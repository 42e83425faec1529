/-!
# MikanOs.Lib.PythonText

Strings as Python has them: white space, `str.lstrip` and `str.splitlines`.
A line ends at a line boundary, of which there are more than the newline, and
`\r\n` is a single one.

All line boundaries are white space, so that `lstrip` may take away whole
lines; `filterMap_splitLines_lstrip` says when that does not matter.

This module depends only on the Lean 4 core library.
-/

namespace PythonText

/-- `str.isspace`, for one character. -/
def isSpace (c : Char) : Bool :=
  let n := c.toNat
  (0x09 ≤ n ∧ n ≤ 0x0d) ∨ (0x1c ≤ n ∧ n ≤ 0x20) ∨ n = 0x85 ∨ n = 0xa0 ∨ n = 0x1680 ∨
    (0x2000 ≤ n ∧ n ≤ 0x200a) ∨ n = 0x2028 ∨ n = 0x2029 ∨ n = 0x202f ∨ n = 0x205f ∨ n = 0x3000

/-- What `str.splitlines` splits at. -/
def isLineBoundary (c : Char) : Bool :=
  let n := c.toNat
  (0x0a ≤ n ∧ n ≤ 0x0d) ∨ (0x1c ≤ n ∧ n ≤ 0x1e) ∨ n = 0x85 ∨ n = 0x2028 ∨ n = 0x2029

/-- `str.lstrip()`. -/
def lstrip (s : List Char) : List Char := s.dropWhile isSpace

/-- `str.splitlines()`. -/
def splitLines : List Char → List (List Char)
  | [] => []
  | '\r' :: '\n' :: s => [] :: splitLines s
  | c :: s =>
      if isLineBoundary c then [] :: splitLines s
      else match splitLines s with
        | [] => [[c]]
        | line :: lines => (c :: line) :: lines

theorem isSpace_of_isLineBoundary {c : Char} (h : isLineBoundary c = true) :
    isSpace c = true := by
  simp only [isLineBoundary, isSpace, decide_eq_true_eq] at h ⊢
  omega

theorem lstrip_cons_of_isSpace {c : Char} (h : isSpace c = true) (s : List Char) :
    lstrip (c :: s) = lstrip s :=
  List.dropWhile_cons_of_pos h

theorem lstrip_cons_of_not_isSpace {c : Char} (h : ¬ isSpace c = true) (s : List Char) :
    lstrip (c :: s) = c :: s :=
  List.dropWhile_cons_of_neg h

/-- Leading white space does not matter to what is made of the lines, if
nothing is made of an empty line, or of one that begins with white space, be
it stripped or not. -/
theorem filterMap_splitLines_lstrip {β : Type u} {f : List Char → Option β} (hnil : f [] = none)
    (hspace : ∀ c line, isSpace c = true → f (c :: line) = none) (src : List Char)
    (h : ∀ c line, c :: line ∈ splitLines src → isSpace c = true → f (lstrip line) = none) :
    (splitLines (lstrip src)).filterMap f = (splitLines src).filterMap f := by
  induction src using splitLines.induct with
  | case1 => rfl
  | case2 s ih =>
      have hlines : splitLines ('\r' :: '\n' :: s) = [] :: splitLines s := rfl
      rw [hlines] at h
      rw [hlines, List.filterMap_cons_none hnil]
      exact ih fun c line hmem => h c line (List.mem_cons_of_mem _ hmem)
  | case3 c s hpair hboundary ih =>
      have hlines : splitLines (c :: s) = [] :: splitLines s := by
        rw [splitLines.eq_3 c s hpair, if_pos hboundary]
      rw [hlines] at h
      rw [hlines, List.filterMap_cons_none hnil,
        lstrip_cons_of_isSpace (isSpace_of_isLineBoundary hboundary)]
      exact ih fun c line hmem => h c line (List.mem_cons_of_mem _ hmem)
  | case4 c s hpair hboundary hrest ih =>
      have hlines : splitLines (c :: s) = [[c]] := by
        rw [splitLines.eq_3 c s hpair, if_neg hboundary, hrest]
      by_cases hc : isSpace c = true
      · rw [hlines, lstrip_cons_of_isSpace hc, ih (by rw [hrest]; nofun), hrest,
          List.filterMap_cons_none (hspace c [] hc)]
      · rw [lstrip_cons_of_not_isSpace hc]
  | case5 c s hpair hboundary line lines hrest ih =>
      have hlines : splitLines (c :: s) = (c :: line) :: lines := by
        rw [splitLines.eq_3 c s hpair, if_neg hboundary, hrest]
      by_cases hc : isSpace c = true
      · have hstrip : f (lstrip line) = none := by
          refine h c line ?_ hc
          rw [hlines]
          exact List.mem_cons_self
        -- the rest of the line brings nothing either, whether there is more white space or not
        have hline : f line = none := by
          cases line with
          | nil => exact hnil
          | cons d line =>
              by_cases hd : isSpace d = true
              · exact hspace d line hd
              · rwa [lstrip_cons_of_not_isSpace hd] at hstrip
        rw [hlines, lstrip_cons_of_isSpace hc, ih, hrest, List.filterMap_cons_none hline,
          List.filterMap_cons_none (hspace c line hc)]
        intro d line' hmem hd
        rw [hrest] at hmem
        rcases List.mem_cons.mp hmem with heq | hmem
        · rw [← heq, lstrip_cons_of_isSpace hd] at hstrip
          exact hstrip
        · exact h d line' (by rw [hlines]; exact List.mem_cons_of_mem _ hmem) hd
      · rw [lstrip_cons_of_not_isSpace hc]

end PythonText
