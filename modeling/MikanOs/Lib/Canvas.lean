import Mathlib.Logic.Function.Basic

/-!
# MikanOs.Lib.Canvas

Painting, as a list of writes to a picture: each write gives a point its
colour.  What painting comes to depends on the points and not on the order as
long as there is only one colour, and `paint_of_mono` says so; two paintings
over each other are then compared by the points they touch.

A `Sprite` is drawn here and there on a ground of one colour, and erased
before it is drawn anew; `paint_moves` says that only the last place counts.
-/

namespace Canvas

variable {P : Type u} {C : Type v}

/-- The points that are written to. -/
def touched (writes : List (P × C)) : List P := writes.map Prod.fst

/-- All writes are in this colour. -/
def Mono (color : C) (writes : List (P × C)) : Prop := ∀ write ∈ writes, write.2 = color

variable {writes writes' : List (P × C)} {write : P × C} {color : C} {p : P}

@[simp]
theorem touched_cons : touched (write :: writes) = write.1 :: touched writes := rfl

@[simp]
theorem touched_append : touched (writes ++ writes') = touched writes ++ touched writes' :=
  List.map_append

theorem Mono.append (h : Mono color writes) (h' : Mono color writes') :
    Mono color (writes ++ writes') := fun write hwrite =>
  (List.mem_append.mp hwrite).elim (h write) (h' write)

/-! ## painting -/

variable [DecidableEq P]

/-- The picture after the writes. -/
def paint (picture : P → C) (writes : List (P × C)) : P → C :=
  writes.foldl (fun picture write => Function.update picture write.1 write.2) picture

variable {picture : P → C}

theorem paint_append :
    paint picture (writes ++ writes') = paint (paint picture writes) writes' :=
  List.foldl_append

/-- What a point is painted over with depends on the point only. -/
theorem paint_congr {picture' : P → C} (h : picture p = picture' p) :
    paint picture writes p = paint picture' writes p := by
  induction writes generalizing picture picture' with
  | nil => exact h
  | cons write writes ih =>
      refine ih ?_
      simp only [Function.update_apply, h]

/-- A point that is not written to keeps its colour. -/
theorem paint_of_not_touched (h : p ∉ touched writes) : paint picture writes p = picture p := by
  induction writes generalizing picture with
  | nil => rfl
  | cons write writes ih =>
      rw [touched_cons, List.mem_cons, not_or] at h
      exact (ih h.2).trans (Function.update_of_ne h.1 _ _)

/-- A point that is written to once has the colour it was given. -/
theorem paint_of_mem (hnodup : (touched writes).Nodup) (h : write ∈ writes) :
    paint picture writes write.1 = write.2 := by
  induction writes generalizing picture with
  | nil => contradiction
  | cons first writes ih =>
      rw [touched_cons, List.nodup_cons] at hnodup
      rcases List.mem_cons.mp h with rfl | h
      · exact (paint_of_not_touched hnodup.1).trans (Function.update_self ..)
      · exact ih hnodup.2 h

/-- A point that is written to in one colour only has that colour. -/
theorem paint_of_agree (hmem : p ∈ touched writes)
    (hcolor : ∀ write ∈ writes, write.1 = p → write.2 = color) :
    paint picture writes p = color := by
  induction writes generalizing picture with
  | nil => contradiction
  | cons first writes ih =>
      have hrest := fun write hwrite => hcolor write (List.mem_cons_of_mem first hwrite)
      by_cases hp : p ∈ touched writes
      · exact ih hp hrest
      · have hfirst : p = first.1 := (List.mem_cons.mp hmem).resolve_right hp
        have hkept : paint picture (first :: writes) p =
            Function.update picture first.1 first.2 p := paint_of_not_touched hp
        rw [hkept, hfirst, Function.update_self]
        exact hcolor first List.mem_cons_self hfirst.symm

/-- Painting in one colour. -/
theorem paint_of_mono (h : Mono color writes) :
    paint picture writes p = if p ∈ touched writes then color else picture p := by
  induction writes generalizing picture with
  | nil => rfl
  | cons write writes ih =>
      have hcolor : write.2 = color := h write List.mem_cons_self
      have hrest : paint picture (write :: writes) p =
          if p ∈ touched writes then color else Function.update picture write.1 write.2 p :=
        ih fun w hw => h w (List.mem_cons_of_mem _ hw)
      rw [hrest, touched_cons]
      by_cases hp : p ∈ touched writes
      · rw [if_pos hp, if_pos (List.mem_cons_of_mem _ hp)]
      · rw [if_neg hp]
        by_cases heq : p = write.1
        · rw [heq, Function.update_self, hcolor, if_pos List.mem_cons_self]
        · rw [Function.update_of_ne heq, if_neg]
          exact fun hmem => (List.mem_cons.mp hmem).elim heq hp

/-! ## sprites -/

/-- What can be drawn at any place, and erased where it has been drawn. -/
structure Sprite (P : Type u) (C : Type v) (A : Type w) where
  ground : C
  draw : A → List (P × C)
  erase : A → List (P × C)
  mono : ∀ a, Mono ground (erase a)
  covers : ∀ a, ∀ p, p ∈ touched (draw a) → p ∈ touched (erase a)

namespace Sprite

variable {A : Type w} (s : Sprite P C A)

/-- From `a` to one place after the other. -/
def moves (a : A) : List A → List (P × C)
  | [] => []
  | b :: bs => s.erase a ++ s.draw b ++ moves b bs

/-- What has been drawn on the ground is erased. -/
theorem paint_erase (a : A) :
    paint (paint (fun _ => s.ground) (s.draw a)) (s.erase a) = fun _ => s.ground := by
  funext p
  rw [paint_of_mono (s.mono a)]
  by_cases hp : p ∈ touched (s.erase a)
  · exact if_pos hp
  · rw [if_neg hp]
    exact paint_of_not_touched fun hdraw => hp (s.covers a p hdraw)

/-- **No trail.**  What is left is the sprite at the last place. -/
theorem paint_moves (a : A) (bs : List A) :
    paint (fun _ => s.ground) (s.draw a ++ s.moves a bs) =
      paint (fun _ => s.ground) (s.draw (bs.getLastD a)) := by
  induction bs generalizing a with
  | nil => exact congrArg (paint _) (List.append_nil _)
  | cons b bs ih =>
      rw [moves, List.append_assoc, paint_append, paint_append, paint_erase, List.getLastD_cons]
      exact ih b

end Sprite

end Canvas
