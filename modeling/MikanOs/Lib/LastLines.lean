/-!
# MikanOs.Lib.LastLines

The end of a text, as a screen of `height` rows and `width` columns shows it:
the text is split into lines, each line is cut, and of the lines the last ones
that fit are shown.

The text grows at its end, one symbol after another; `shown_newline`,
`shown_scroll` and `exists_shown_append` say what becomes of the lines.

This module depends only on the Lean 4 core library.
-/

namespace LastLines

variable {α : Type u}

/-- The last lines of all and one more. -/
theorem drop_append_singleton {height : Nat} {ls : List (List α)} {l : List α} (h : 0 < height) :
    (ls ++ [l]).drop ((ls ++ [l]).length - height) =
      ls.drop (ls.length + 1 - height) ++ [l] := by
  rw [List.length_append, List.length_singleton, List.drop_append_of_le_length (by omega)]

variable [BEq α] (newline : α) (height width : Nat)

/-- The lines of a text, cut. -/
def lines (text : List α) : List (List α) := (text.splitOn newline).map (List.take width)

/-- The lines on the screen. -/
def shown (text : List α) : List (List α) :=
  (lines newline width text).drop ((lines newline width text).length - height)

variable {newline height width} {text : List α}

theorem shown_nil (h : 0 < height) : shown newline height width [] = [[]] := by
  have hlines : lines newline width [] = [[]] := by
    rw [lines, List.splitOn_nil, List.map_singleton, List.take_nil]
  rw [shown, hlines, List.length_singleton, Nat.sub_eq_zero_of_le h, List.drop_zero]

/-! ## the lines of a text that grows -/

variable [LawfulBEq α]

/-- A newline begins a line. -/
theorem splitOn_newline : (text ++ [newline]).splitOn newline = text.splitOn newline ++ [[]] := by
  rw [List.splitOn_append_cons_self, List.splitOn_nil]

/-- Any other symbol goes to the last line. -/
theorem exists_splitOn_append (text : List α) {c : α} (hc : c ≠ newline) :
    ∃ before line, text.splitOn newline = before ++ [line] ∧
      (text ++ [c]).splitOn newline = before ++ [line ++ [c]] := by
  induction text with
  | nil => exact ⟨[], [], List.splitOn_nil _, List.splitOn_eq_singleton (by simpa using hc.symm)⟩
  | cons x text ih =>
      obtain ⟨before, line, hold, hnew⟩ := ih
      rw [List.cons_append, List.splitOn_cons_eq_if_modifyHead,
        List.splitOn_cons_eq_if_modifyHead, hold, hnew]
      split
      · exact ⟨[] :: before, line, rfl, rfl⟩
      · cases before with
        | nil => exact ⟨[], x :: line, rfl, rfl⟩
        | cons first before => exact ⟨(x :: first) :: before, line, rfl, rfl⟩

/-! ## the screen of a text that grows -/

/-- A newline on a screen with a row left. -/
theorem shown_newline (h : (shown newline height width text).length < height) :
    shown newline height width (text ++ [newline]) = shown newline height width text ++ [[]] := by
  unfold shown at h ⊢
  have hlines : lines newline width (text ++ [newline]) = lines newline width text ++ [[]] := by
    rw [lines, splitOn_newline, List.map_append, List.map_singleton, List.take_nil, lines]
  rw [List.length_drop] at h
  rw [hlines, drop_append_singleton (by omega)]
  rw [show (lines newline width text).length + 1 - height =
    (lines newline width text).length - height by omega]

/-- A newline on a screen that is full. -/
theorem shown_scroll (hpos : 0 < height) (h : (shown newline height width text).length = height) :
    shown newline height width (text ++ [newline]) =
      (shown newline height width text).tail ++ [[]] := by
  unfold shown at h ⊢
  have hlines : lines newline width (text ++ [newline]) = lines newline width text ++ [[]] := by
    rw [lines, splitOn_newline, List.map_append, List.map_singleton, List.take_nil, lines]
  rw [List.length_drop] at h
  rw [hlines, drop_append_singleton hpos, List.tail_drop]
  rw [show (lines newline width text).length + 1 - height =
    (lines newline width text).length - height + 1 by omega]

/-- Any other symbol, on a line that has room for it or not. -/
theorem exists_shown_append {c : α} (hpos : 0 < height) (hc : c ≠ newline) :
    ∃ before line, shown newline height width text = before ++ [line] ∧
      shown newline height width (text ++ [c]) =
        before ++ [if line.length < width then line ++ [c] else line] := by
  obtain ⟨before, line, hold, hnew⟩ := exists_splitOn_append text hc
  have hcut : (line ++ [c]).take width =
      if (line.take width).length < width then line.take width ++ [c] else line.take width := by
    rw [List.length_take]
    split
    · rw [List.take_of_length_le (by simp; omega), List.take_of_length_le (by omega)]
    · rw [List.take_append_of_le_length (by omega)]
  refine ⟨(before.map (List.take width)).drop (before.length + 1 - height), line.take width, ?_, ?_⟩
  · rw [shown, lines, hold, List.map_append, List.map_singleton, drop_append_singleton hpos,
      List.length_map]
  · rw [shown, lines, hnew, List.map_append, List.map_singleton, drop_append_singleton hpos,
      List.length_map, hcut]

end LastLines
