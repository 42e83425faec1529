import Mathlib.Logic.Relation

/-!
# MikanOs.Lib.Run

Runs of a transition system: the reflexive-transitive closure of its step
relation.  `invariant` is the one induction behind every safety property: what
every step preserves holds at the end of every run that starts with it.  Runs
that are computed come from `of_foldlM`.
-/

namespace Run

open Relation

variable {σ : Type u} {step : σ → σ → Prop}

/-- What every step preserves, every run preserves. -/
theorem invariant {inv : σ → Prop} (hstep : ∀ s t, inv s → step s t → inv t) {s t : σ}
    (hs : inv s) (h : ReflTransGen step s t) : inv t := by
  induction h with
  | refl => exact hs
  | tail _ hlast ih => exact hstep _ _ ih hlast

/-- Moves made one after another are a run, if each of them is a step. -/
theorem of_foldlM {move : σ → μ → Option σ} (hmove : ∀ s m t, move s m = some t → step s t)
    {ms : List μ} {s t : σ} (h : ms.foldlM move s = some t) : ReflTransGen step s t := by
  induction ms generalizing s with
  | nil =>
      obtain rfl := Option.some.inj h
      exact .refl
  | cons m ms ih =>
      rw [List.foldlM_cons] at h
      obtain ⟨u, hu, hrest⟩ := Option.bind_eq_some_iff.mp h
      exact .head (hmove s m u hu) (ih hrest)

/-- What is computed of such moves holds at the end of a run. -/
theorem exists_of_foldlM {move : σ → μ → Option σ}
    (hmove : ∀ s m t, move s m = some t → step s t) {ms : List μ} {s : σ} {f : σ → α} {x : α}
    (h : (ms.foldlM move s).map f = some x) : ∃ t, ReflTransGen step s t ∧ f t = x := by
  obtain ⟨t, ht, hx⟩ := Option.map_eq_some_iff.mp h
  exact ⟨t, of_foldlM hmove ht, hx⟩

end Run
