import Mathlib.Data.List.GetD
import MikanOs.Font
import MikanOs.Lib.LastLines

/-!
# MikanOs.Console

The console (`console.hpp`, `console.cpp`).  It keeps what it shows in
`buffer_` and draws as it goes: a character where the cursor is, and all there
is in `buffer_` when it scrolls.

`Shows` says that the rows of `buffer_` are given lines, and `step_shows` what
becomes of them and of the screen with one character more of the text.
-/

namespace MikanOs

/-- `Console`. -/
structure Console where
  fgColor : PixelColor
  bgColor : PixelColor
  buffer : Vector (Vector (BitVec 8) 81) 25
  cursorRow : Nat
  cursorColumn : Nat
  deriving DecidableEq, Repr

namespace Console

def kRows : Nat := 25

def kColumns : Nat := 80

/-- The constructor. -/
def new (fgColor bgColor : PixelColor) : Console where
  fgColor := fgColor
  bgColor := bgColor
  buffer := .replicate 25 (.replicate 81 0#8)
  cursorRow := 0
  cursorColumn := 0

/-! ## the code -/

/-- What works on the console and draws. -/
abbrev Draw := Console → Except Fault (Console × List Write)

namespace Draw

def nothing : Draw := fun c => pure (c, [])

def andThen (first next : Draw) : Draw := fun c => do
  let (c, drawn) ← first c
  let (c, drawn') ← next c
  pure (c, drawn ++ drawn')

/-- A loop. -/
def forEach (body : α → Draw) : List α → Draw
  | [] => nothing
  | x :: xs => (body x).andThen (forEach body xs)

end Draw

section

variable (charSigned : Bool) (font : Font)

/-- All of the area in one colour. -/
def area (color : PixelColor) : List Write :=
  (List.range (16 * kRows)).flatMap fun y => (List.range (8 * kColumns)).map fun x =>
    (⟨(x : Nat), (y : Nat)⟩, color)

/-- `Newline` gives the area its background. -/
def clear : Draw := fun c => pure (c, area c.bgColor)

/-- `Newline` moves a row up and draws it. -/
def moveRow (row : Nat) : Draw := fun c =>
  if h : row + 1 < 25 then do
    let buffer := c.buffer.set row c.buffer[row + 1]
    let drawn ← writeString charSigned font 0 (16 * row) buffer[row].toList c.fgColor
    pure ({ c with buffer }, drawn)
  else throw .outOfBounds

/-- `Newline` clears the last row. -/
def clearLastRow : Draw := fun c =>
  pure ({ c with buffer := c.buffer.set 24 (.replicate 81 0#8) }, [])

/-- `Newline`. -/
def newline : Draw := fun c =>
  let c := { c with cursorColumn := 0 }
  if c.cursorRow < kRows - 1 then pure ({ c with cursorRow := c.cursorRow + 1 }, [])
  else
    (clear.andThen ((Draw.forEach (moveRow charSigned font) (List.range (kRows - 1))).andThen
      clearLastRow)) c

/-- A round of `PutString`. -/
def putChar (ch : BitVec 8) : Draw := fun c =>
  if ch = 10#8 then newline charSigned font c
  else if c.cursorColumn < kColumns - 1 then
    if h : c.cursorRow < 25 ∧ c.cursorColumn < 81 then
      let row := c.buffer[c.cursorRow].set c.cursorColumn ch
      pure ({ c with buffer := c.buffer.set c.cursorRow row, cursorColumn := c.cursorColumn + 1 },
        writeAscii charSigned font (8 * c.cursorColumn) (16 * c.cursorRow) ch c.fgColor)
    else throw .outOfBounds
  else pure (c, [])

/-- `PutString`. -/
def putString : List (BitVec 8) → Draw
  | [] => fun _ => throw .outOfBounds
  | ch :: s =>
      if ch = 0#8 then .nothing else (putChar charSigned font ch).andThen (putString s)

/-- One call of `PutString` after another. -/
def putStrings (strings : List (List (BitVec 8))) : Draw :=
  .forEach (putString charSigned font) strings

/-- `WriteString` of each row. -/
def redraw (c : Console) : Except Fault (List Write) := do
  let rows ← (List.finRange 25).mapM fun (row : Fin 25) =>
    writeString charSigned font 0 (16 * (row : Nat)) c.buffer[row].toList c.fgColor
  pure rows.flatten

end

/-! ## what the console shows -/

/-- A line, with zero bytes after it. -/
def rowOf (line : List (BitVec 8)) : Vector (BitVec 8) 81 := .ofFn fun j => line.getD j 0#8

/-- Some lines, with empty rows after them. -/
def screenOf (ls : List (List (BitVec 8))) : Vector (Vector (BitVec 8) 81) 25 :=
  .ofFn fun i => rowOf (ls.getD i [])

/-- It fits into a row and is a string. -/
structure Printable (line : List (BitVec 8)) : Prop where
  fits : line.length ≤ kColumns - 1
  noNul : 0#8 ∉ line

/-- The console shows the lines, and the cursor is at the end of the last. -/
structure Shows (c : Console) (ls : List (List (BitVec 8))) : Prop where
  buffer : c.buffer = screenOf ls
  cursor : ∃ before line, ls = before ++ [line] ∧ c.cursorRow = before.length ∧
    c.cursorColumn = line.length
  rows : ls.length ≤ kRows
  lines : ∀ line ∈ ls, Printable line

/-- What is drawn of the lines. -/
def drawLines (charSigned : Bool) (font : Font) (ls : List (List (BitVec 8)))
    (color : PixelColor) : List Write :=
  ls.zipIdx.flatMap fun (line, row) =>
    drawLine charSigned font 0 (16 * (row : Nat)) line color

variable {charSigned : Bool} {font : Font} {c c₁ c₂ : Console} {drawn drawn₁ drawn₂ : List Write}
  {ls before : List (List (BitVec 8))} {line : List (BitVec 8)} {color : PixelColor}

/-! ## rows -/

theorem getElem_screenOf {i : Nat} (h : i < 25) : (screenOf ls)[i] = rowOf (ls.getD i []) :=
  Vector.getElem_ofFn h

theorem getElem_rowOf {j : Nat} (h : j < 81) : (rowOf line)[j] = line.getD j 0#8 :=
  Vector.getElem_ofFn h

theorem rowOf_nil : rowOf [] = .replicate 81 0#8 := by
  refine Vector.ext fun j hj => ?_
  rw [getElem_rowOf, Vector.getElem_replicate, List.getD_nil]

/-- A row as a string. -/
theorem toList_rowOf (h : line.length ≤ kColumns - 1) :
    ∃ rest, (rowOf line).toList = line ++ 0#8 :: rest := by
  refine ⟨List.replicate (80 - line.length) 0#8, ?_⟩
  rw [← List.replicate_succ]
  unfold kColumns at h
  refine List.ext_getElem ?_ fun j hj hj' => ?_
  · rw [Vector.length_toList, List.length_append, List.length_replicate]
    omega
  · rw [Vector.length_toList] at hj
    rw [Vector.getElem_toList, getElem_rowOf hj, List.getD_eq_getElem?_getD, List.getElem_append]
    split
    · rw [List.getElem?_eq_getElem ‹_›, Option.getD_some]
    · rw [List.getElem?_eq_none (by omega), Option.getD_none, List.getElem_replicate]

theorem printable_nil : Printable [] := ⟨Nat.zero_le _, List.not_mem_nil⟩

theorem printable_getD (hlines : ∀ line ∈ ls, Printable line) (i : Nat) :
    Printable (ls.getD i []) := by
  rw [List.getD_eq_getElem?_getD]
  cases hget : ls[i]? with
  | none => exact printable_nil
  | some line => exact hlines line (List.mem_of_getElem? hget)

/-- An empty line makes no difference. -/
theorem getD_append_nil (i : Nat) : (ls ++ [[]]).getD i [] = ls.getD i [] := by
  rw [List.getD_eq_getElem?_getD, List.getD_eq_getElem?_getD, List.getElem?_append]
  split
  · rfl
  · rw [List.getElem?_eq_none (i := i) (l := ls) (by omega), List.getElem?_singleton]
    split <;> rfl

theorem screenOf_append_nil : screenOf (ls ++ [[]]) = screenOf ls := by
  unfold screenOf
  simp only [getD_append_nil]

/-- A character more. -/
theorem set_rowOf {ch : BitVec 8} (h : line.length < 81) :
    (rowOf line).set line.length ch = rowOf (line ++ [ch]) := by
  refine Vector.ext fun j hj => ?_
  rw [Vector.getElem_set, getElem_rowOf hj, getElem_rowOf hj, List.getD_eq_getElem?_getD,
    List.getD_eq_getElem?_getD, List.getElem?_append]
  split
  · subst j
    simp
  · split
    · rfl
    · rw [List.getElem?_eq_none (by omega), List.getElem?_eq_none (by simp; omega)]

/-- Another line. -/
theorem set_screenOf {line' : List (BitVec 8)} (h : before.length < 25) :
    (screenOf (before ++ [line])).set before.length (rowOf line') =
      screenOf (before ++ [line']) := by
  refine Vector.ext fun i hi => ?_
  rw [Vector.getElem_set, getElem_screenOf hi, getElem_screenOf hi, List.getD_eq_getElem?_getD,
    List.getD_eq_getElem?_getD, List.getElem?_append, List.getElem?_append]
  split
  · subst i
    simp
  · split
    · rfl
    · rw [List.getElem?_eq_none (by simp; omega), List.getElem?_eq_none (by simp; omega)]

/-! ## what is drawn -/

theorem drawLines_append :
    drawLines charSigned font (ls ++ [line]) color =
      drawLines charSigned font ls color ++
        drawLine charSigned font 0 (16 * (ls.length : Nat)) line color := by
  simp [drawLines, List.zipIdx_append]

theorem drawLine_nil {x y : Int} : drawLine charSigned font x y [] color = [] := rfl

theorem drawLines_append_nil :
    drawLines charSigned font (ls ++ [[]]) color = drawLines charSigned font ls color := by
  rw [drawLines_append, drawLine_nil, List.append_nil]

/-- The lines row by row. -/
theorem drawLines_eq {n : Nat} (h : ls.length ≤ n) :
    drawLines charSigned font ls color = (List.range n).flatMap fun row =>
      drawLine charSigned font 0 (16 * (row : Nat)) (ls.getD row []) color := by
  induction n generalizing ls with
  | zero =>
      rw [List.length_eq_zero_iff.mp (Nat.le_zero.mp h)]
      rfl
  | succ n ih =>
      rw [List.range_succ, List.flatMap_append, List.flatMap_singleton]
      rcases Nat.lt_or_ge n ls.length with hlt | hge
      · obtain rfl | ⟨before, line, rfl⟩ := List.eq_nil_or_concat ls
        · contradiction
        rw [List.length_concat] at h hlt
        obtain rfl : before.length = n := by omega
        rw [List.concat_eq_append, drawLines_append, ih (Nat.le_refl _)]
        congr 1
        · refine List.flatMap_congr fun row hrow => ?_
          rw [List.getD_append _ _ _ _ (List.mem_range.mp hrow)]
        · rw [List.getD_append_right _ _ _ _ (Nat.le_refl _), Nat.sub_self]
          rfl
      · rw [List.getD_eq_default _ _ hge, drawLine_nil, List.append_nil, ih hge]

/-! ## scrolling -/

/-- The buffer when the first `n` rows have been moved. -/
def scrolled (ls : List (List (BitVec 8))) (n : Nat) : Vector (Vector (BitVec 8) 81) 25 :=
  .ofFn fun i => rowOf (ls.getD (if i.val < n then i.val + 1 else i.val) [])

theorem getElem_scrolled {n i : Nat} (h : i < 25) :
    (scrolled ls n)[i] = rowOf (ls.getD (if i < n then i + 1 else i) []) :=
  Vector.getElem_ofFn h

/-- All rows have been moved and the last is cleared. -/
theorem set_scrolled (htail : ls.tail.length = 24) :
    (scrolled ls 24).set 24 (.replicate 81 0#8) = screenOf (ls.tail ++ [[]]) := by
  refine Vector.ext fun i hi => ?_
  rw [screenOf_append_nil, Vector.getElem_set, getElem_scrolled hi, getElem_screenOf hi]
  split
  · subst i
    rw [List.getD_eq_default _ _ (Nat.le_of_eq htail), rowOf_nil]
  · rw [if_pos (by omega), List.getD_eq_getElem?_getD, List.getD_eq_getElem?_getD,
      List.getElem?_tail]

/-- What is drawn while they are moved. -/
theorem drawLines_tail (htail : ls.tail.length = 24) :
    drawLines charSigned font (ls.tail ++ [[]]) color =
      (List.range' 0 24).flatMap fun row =>
        drawLine charSigned font 0 (16 * (row : Nat)) (ls.getD (row + 1) []) color := by
  rw [drawLines_append_nil, drawLines_eq (Nat.le_of_eq htail), List.range_eq_range']
  refine List.flatMap_congr fun row _ => ?_
  rw [List.getD_eq_getElem?_getD, List.getD_eq_getElem?_getD, List.getElem?_tail]

theorem Draw.andThen_eq {first next : Draw} (h : first c = .ok (c₁, drawn₁))
    (h' : next c₁ = .ok (c₂, drawn₂)) : (first.andThen next) c = .ok (c₂, drawn₁ ++ drawn₂) := by
  unfold Draw.andThen
  rw [h]
  show (do let (c, drawn') ← next c₁; pure (c, drawn₁ ++ drawn')) = _
  rw [h']
  rfl

/-- One row is moved. -/
theorem moveRow_eq (hlines : ∀ line ∈ ls, Printable line) {row : Nat} (hrow : row < 24) :
    moveRow charSigned font row { c with buffer := scrolled ls row } =
      .ok ({ c with buffer := scrolled ls (row + 1) },
        drawLine charSigned font 0 (16 * (row : Nat)) (ls.getD (row + 1) []) c.fgColor) := by
  have hmoved : (scrolled ls row)[row + 1] = rowOf (ls.getD (row + 1) []) := by
    rw [getElem_scrolled, if_neg (by omega)]
  have hset : (scrolled ls row).set row (rowOf (ls.getD (row + 1) [])) = scrolled ls (row + 1) := by
    refine Vector.ext fun i hi => ?_
    rw [Vector.getElem_set, getElem_scrolled hi, getElem_scrolled hi]
    split
    · subst i
      rw [if_pos (by omega)]
    · have hsame : (if i < row then i + 1 else i) = if i < row + 1 then i + 1 else i := by
        split <;> split <;> omega
      rw [hsame]
  have hline : Printable (ls.getD (row + 1) []) := printable_getD hlines (row + 1)
  have hread : (scrolled ls (row + 1))[row] = rowOf (ls.getD (row + 1) []) := by
    rw [getElem_scrolled, if_pos (Nat.lt_succ_self row)]
  obtain ⟨rest, hrest⟩ := toList_rowOf hline.fits
  unfold moveRow
  rw [dif_pos (by omega)]
  simp only [hmoved, hset, hread, hrest, writeString_eq hline.noNul]
  rfl

theorem moveRows_eq (hlines : ∀ line ∈ ls, Printable line) {m k : Nat} (h : k + m ≤ 24) :
    Draw.forEach (moveRow charSigned font) (List.range' k m) { c with buffer := scrolled ls k } =
      .ok ({ c with buffer := scrolled ls (k + m) },
        (List.range' k m).flatMap fun row =>
          drawLine charSigned font 0 (16 * (row : Nat)) (ls.getD (row + 1) []) c.fgColor) := by
  induction m generalizing k with
  | zero => rfl
  | succ m ih =>
      rw [List.range'_succ, List.flatMap_cons]
      have hnext := @ih (k + 1) (by omega)
      rw [show k + 1 + m = k + (m + 1) by omega] at hnext
      exact Draw.andThen_eq (moveRow_eq hlines (by omega)) hnext

/-! ## one character -/

/-- From a console that shows `ls` to one that shows `ls'`: either what is
drawn is what there is more to show, or all is drawn anew. -/
def Goes (charSigned : Bool) (font : Font) (c : Console) (ls : List (List (BitVec 8)))
    (draw : Draw) (ls' : List (List (BitVec 8))) : Prop :=
  ∃ c' drawn, draw c = .ok (c', drawn) ∧ Shows c' ls' ∧
    c'.fgColor = c.fgColor ∧ c'.bgColor = c.bgColor ∧
    (drawLines charSigned font ls' c.fgColor = drawLines charSigned font ls c.fgColor ++ drawn ∨
      drawn = area c.bgColor ++ drawLines charSigned font ls' c.fgColor)

/-- `Newline` with a row left. -/
theorem newline_of_lt (h : Shows c ls) (hrows : ls.length < kRows) :
    Goes charSigned font c ls (newline charSigned font) (ls ++ [[]]) := by
  obtain ⟨hbuffer, ⟨before, line, rfl, hrow, hcolumn⟩, _, hlines⟩ := h
  rw [List.length_append, List.length_singleton] at hrows
  have hlt : c.cursorRow < kRows - 1 := by omega
  refine ⟨_, [], if_pos hlt, ⟨?_, ⟨before ++ [line], [], rfl, ?_, rfl⟩, ?_, ?_⟩, rfl, rfl, .inl ?_⟩
  · rw [screenOf_append_nil]
    exact hbuffer
  · rw [List.length_append, List.length_singleton, ← hrow]
  · simp only [List.length_append, List.length_singleton]
    omega
  · exact List.forall_mem_append.mpr ⟨hlines, List.forall_mem_singleton.mpr printable_nil⟩
  · rw [drawLines_append_nil, List.append_nil]

/-- `Newline` on the last row. -/
theorem newline_of_full (h : Shows c ls) (hrows : ls.length = kRows) :
    Goes charSigned font c ls (newline charSigned font) (ls.tail ++ [[]]) := by
  obtain ⟨hbuffer, ⟨before, line, hbefore, hrow, hcolumn⟩, _, hlines⟩ := h
  have hlength : ls.length = before.length + 1 := by
    rw [hbefore, List.length_append, List.length_singleton]
  have htail : ls.tail.length = 24 := by
    rw [List.length_tail, hrows]
    rfl
  have hfull : c.cursorRow = 24 := by
    rw [hrow]
    exact Nat.succ.inj (hlength.symm.trans hrows)
  let c₀ : Console := { c with cursorColumn := 0 }
  have hstart : c₀ = { c₀ with buffer := scrolled ls 0 } := by
    show Console.mk .. = Console.mk ..
    rw [hbuffer]
    rfl
  have hmoved := @moveRows_eq charSigned font c₀ ls hlines 24 0 (Nat.le_refl _)
  rw [← hstart, ← drawLines_tail htail] at hmoved
  have hnewline : newline charSigned font c = .ok
      ({ c₀ with buffer := screenOf (ls.tail ++ [[]]) },
        area c.bgColor ++ (drawLines charSigned font (ls.tail ++ [[]]) c.fgColor ++ [])) := by
    have hnot : ¬ c₀.cursorRow < kRows - 1 := by
      show ¬ c.cursorRow < 24
      omega
    refine (if_neg hnot).trans ?_
    refine Draw.andThen_eq rfl (Draw.andThen_eq hmoved ?_)
    rw [← set_scrolled htail]
    rfl
  refine ⟨_, _, hnewline, ⟨rfl, ⟨ls.tail, [], rfl, ?_, rfl⟩, ?_, ?_⟩, rfl, rfl, .inr ?_⟩
  · rw [htail]
    exact hfull
  · rw [List.length_append, htail]
    exact Nat.le_refl 25
  · exact List.forall_mem_append.mpr
      ⟨fun l hl => hlines l (List.mem_of_mem_tail hl), List.forall_mem_singleton.mpr printable_nil⟩
  · rw [List.append_nil]

/-- A character that fits goes to the end of the last line. -/
theorem putChar_of_fits {ch : BitVec 8} {fgColor bgColor : PixelColor} (hnewline : ch ≠ 10#8)
    (hrow : before.length < 25) (hfits : line.length < kColumns - 1) :
    putChar charSigned font ch
        ⟨fgColor, bgColor, screenOf (before ++ [line]), before.length, line.length⟩ =
      .ok (⟨fgColor, bgColor, screenOf (before ++ [line ++ [ch]]), before.length, line.length + 1⟩,
        writeAscii charSigned font (8 * line.length) (16 * before.length) ch fgColor) := by
  have hcolumn : line.length < 81 := by
    unfold kColumns at hfits
    omega
  have hget : (screenOf (before ++ [line]))[before.length] = rowOf line := by
    rw [getElem_screenOf hrow, List.getD_append_right _ _ _ _ (Nat.le_refl _), Nat.sub_self]
    rfl
  unfold putChar
  rw [if_neg hnewline, if_pos hfits, dif_pos ⟨hrow, hcolumn⟩]
  simp only [hget, set_rowOf hcolumn, set_screenOf hrow]
  rfl

/-- Another character goes to the end of the last line, if it fits. -/
theorem putChar_of_ne {ch : BitVec 8} (h : Shows c (before ++ [line])) (hnul : ch ≠ 0#8)
    (hnewline : ch ≠ 10#8) :
    Goes charSigned font c (before ++ [line]) (putChar charSigned font ch)
      (before ++ [if line.length < kColumns - 1 then line ++ [ch] else line]) := by
  have hshows := h
  obtain ⟨fgColor, bgColor, buffer, cursorRow, cursorColumn⟩ := c
  obtain ⟨rfl, ⟨_, _, heq, rfl, rfl⟩, hrows, hlines⟩ := h
  obtain ⟨rfl, hline⟩ := List.append_inj' heq rfl
  obtain rfl := List.singleton_inj.mp hline
  rw [List.length_append, List.length_singleton] at hrows
  obtain ⟨hbefore, hlast⟩ := List.forall_mem_append.mp hlines
  split
  · rename_i hfits
    refine ⟨_, _, putChar_of_fits hnewline hrows hfits, ⟨rfl, ⟨before, _, rfl, rfl, ?_⟩, ?_, ?_⟩,
      rfl, rfl, .inl ?_⟩
    · rw [List.length_append, List.length_singleton]
    · rw [List.length_append, List.length_singleton]
      exact hrows
    · refine List.forall_mem_append.mpr ⟨hbefore, List.forall_mem_singleton.mpr ⟨?_, ?_⟩⟩
      · rw [List.length_append, List.length_singleton]
        exact hfits
      · intro hmem
        rcases List.mem_append.mp hmem with hmem | hmem
        · exact (hlast line List.mem_cons_self).noNul hmem
        · exact hnul (List.mem_singleton.mp hmem).symm
    · rw [drawLines_append, drawLines_append, drawLine_append, List.append_assoc, Int.zero_add]
  · rename_i hfull
    have hput : putChar charSigned font ch ⟨fgColor, bgColor, _, before.length, line.length⟩ =
        .ok (⟨fgColor, bgColor, screenOf (before ++ [line]), before.length, line.length⟩, []) :=
      (if_neg hnewline).trans (if_neg hfull)
    exact ⟨_, [], hput, hshows, rfl, rfl, .inl (List.append_nil _).symm⟩

/-! ## the text -/

/-- A C string is what comes before the NUL. -/
def cString (s : List (BitVec 8)) : List (BitVec 8) := s.takeWhile (· ≠ 0#8)

/-- The end of the text, as the console shows it. -/
def lastLines (text : List (BitVec 8)) : List (List (BitVec 8)) :=
  LastLines.shown 10#8 kRows (kColumns - 1) text

variable {text : List (BitVec 8)}

/-- A character more of the text. -/
theorem step_shows (h : Shows c (lastLines text)) {ch : BitVec 8} (hnul : ch ≠ 0#8) :
    Goes charSigned font c (lastLines text) (putChar charSigned font ch)
      (lastLines (text ++ [ch])) := by
  by_cases hnewline : ch = 10#8
  · subst hnewline
    have hput : putChar charSigned font 10#8 = newline charSigned font := rfl
    rw [hput]
    rcases Nat.lt_or_ge (lastLines text).length kRows with hlt | hge
    · have hnext : Goes charSigned font c _ (newline charSigned font) _ := newline_of_lt h hlt
      rwa [lastLines, ← LastLines.shown_newline hlt] at hnext
    · have hrows := Nat.le_antisymm h.rows hge
      have hnext : Goes charSigned font c _ (newline charSigned font) _ := newline_of_full h hrows
      rwa [lastLines, ← LastLines.shown_scroll (by decide) hrows] at hnext
  · have hsplit : ∃ before line, lastLines text = before ++ [line] ∧ lastLines (text ++ [ch]) =
        before ++ [if line.length < kColumns - 1 then line ++ [ch] else line] :=
      LastLines.exists_shown_append (by decide) hnewline
    obtain ⟨before, line, hold, hnew⟩ := hsplit
    rw [hnew]
    rw [hold] at h ⊢
    exact putChar_of_ne h hnul hnewline

end Console

end MikanOs
