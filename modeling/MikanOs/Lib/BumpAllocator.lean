/-!
# MikanOs.Lib.BumpAllocator

A bump allocator over natural-number addresses, for any type of requests and
any rule that places a request at or after the cursor.  A request that does
not fit below the limit is refused, and moves the cursor to the place it
would have started at.

What holds of every run, whatever the placement rule:

* `run_granted` — a granted block was placed by the rule and ends at or
  before the limit;
* `run_ordered` — blocks are granted at increasing addresses, each starting
  at or after the end of all earlier ones;
* `run_granted_iff` — requests are granted, all of them, just when they fit.

This module depends only on the Lean 4 core library.
-/

/-- A placement rule: where a request starts, given the cursor. -/
structure BumpAllocator (ρ : Type) where
  size : ρ → Nat
  place : Nat → ρ → Nat
  le_place : ∀ p r, p ≤ place p r

namespace BumpAllocator

variable {ρ : Type} (A : BumpAllocator ρ) (limit : Nat)

/-- Serve one request: the start of the block, if granted, and the new
cursor. -/
def step (p : Nat) (r : ρ) : Option Nat × Nat :=
  if A.place p r + A.size r ≤ limit then (some (A.place p r), A.place p r + A.size r)
  else (none, A.place p r)

/-- Serve a list of requests, pairing each with the start of its block. -/
def run (p : Nat) : List ρ → List (ρ × Option Nat)
  | [] => []
  | r :: rs => (r, (A.step limit p r).1) :: run (A.step limit p r).2 rs

/-- Serving a request never moves the cursor down. -/
theorem le_step (p : Nat) (r : ρ) : p ≤ (A.step limit p r).2 := by
  have hle := A.le_place p r
  unfold step
  split
  · exact Nat.le_trans hle (Nat.le_add_right _ _)
  · exact hle

/-- Nor up past the limit, other than to where the request would start. -/
theorem step_le {A : BumpAllocator ρ} {limit top p : Nat} {r : ρ} (hplace : A.place p r ≤ top)
    (hlimit : limit ≤ top) : (A.step limit p r).2 ≤ top := by
  unfold step
  split
  · next hfit => exact Nat.le_trans hfit hlimit
  · exact hplace

/-- A granted block was placed by the rule, fits below the limit, and the
cursor has moved to its end. -/
theorem step_granted {A : BumpAllocator ρ} {limit p : Nat} {r : ρ} {a : Nat}
    (h : (A.step limit p r).1 = some a) :
    a = A.place p r ∧ a + A.size r ≤ limit ∧ (A.step limit p r).2 = a + A.size r := by
  unfold step at h ⊢
  split at h
  · next hfit =>
    have ha : A.place p r = a := Option.some.inj h
    rw [if_pos hfit, ← ha]
    exact ⟨rfl, hfit, rfl⟩
  · contradiction

/-- Every block granted in a run was placed by the rule at or after the
first cursor, and ends at or before the limit. -/
theorem run_granted {A : BumpAllocator ρ} {limit p : Nat} {rs : List ρ} {r : ρ} {a : Nat}
    (h : (r, some a) ∈ A.run limit p rs) :
    p ≤ a ∧ a + A.size r ≤ limit ∧ ∃ q, a = A.place q r := by
  induction rs generalizing p with
  | nil => exact (List.not_mem_nil h).elim
  | cons r' rs ih =>
      rw [run, List.mem_cons] at h
      cases h with
      | inl heq =>
          obtain ⟨rfl, hgrant⟩ := Prod.mk.inj heq
          obtain ⟨hplace, hlimit, _⟩ := step_granted hgrant.symm
          exact ⟨hplace ▸ A.le_place p r, hlimit, p, hplace⟩
      | inr htail =>
          obtain ⟨hle, hlimit, hplace⟩ := ih htail
          exact ⟨Nat.le_trans (A.le_step limit p r') hle, hlimit, hplace⟩

/-- The blocks granted in a run follow one another in memory. -/
theorem run_ordered (p : Nat) (rs : List ρ) :
    (A.run limit p rs).Pairwise fun x y =>
      ∀ a b, x.2 = some a → y.2 = some b → a + A.size x.1 ≤ b := by
  induction rs generalizing p with
  | nil => exact List.Pairwise.nil
  | cons r rs ih =>
      rw [run, List.pairwise_cons]
      refine ⟨?_, ih _⟩
      rintro ⟨r', o⟩ hmem a b ha hb
      have hcursor := (step_granted ha).2.2
      simp only at hb
      subst hb
      rw [← hcursor]
      exact (run_granted hmem).1

/-! ## requests that fit -/

/-- Requests that fit below the limit, one after another from the cursor on. -/
def Fits (p : Nat) : List ρ → Prop
  | [] => True
  | r :: rs => A.place p r + A.size r ≤ limit ∧ Fits (A.place p r + A.size r) rs

/-- Room for some requests and others is room for the former. -/
theorem Fits.of_append {p : Nat} {rs rs' : List ρ} (h : A.Fits limit p (rs ++ rs')) :
    A.Fits limit p rs := by
  induction rs generalizing p with
  | nil => trivial
  | cons r rs ih => exact ⟨h.1, ih h.2⟩

instance decidableFits (p : Nat) (rs : List ρ) : Decidable (A.Fits limit p rs) :=
  match rs with
  | [] => isTrue trivial
  | r :: rs =>
      have := decidableFits (A.place p r + A.size r) rs
      inferInstanceAs (Decidable (_ ∧ _))

/-- A request that fits is granted. -/
theorem step_of_fits {A : BumpAllocator ρ} {limit p : Nat} {r : ρ}
    (h : A.place p r + A.size r ≤ limit) :
    A.step limit p r = (some (A.place p r), A.place p r + A.size r) := if_pos h

theorem isSome_step_iff {A : BumpAllocator ρ} {limit p : Nat} {r : ρ} :
    (A.step limit p r).1.isSome ↔ A.place p r + A.size r ≤ limit := by
  unfold step
  split
  · next hfit => exact iff_of_true rfl hfit
  · next hfit => exact iff_of_false nofun hfit

/-- **Requests are granted**, all of them, just when they fit. -/
theorem run_granted_iff {A : BumpAllocator ρ} {limit p : Nat} {rs : List ρ} :
    (∀ x ∈ A.run limit p rs, x.2.isSome) ↔ A.Fits limit p rs := by
  induction rs generalizing p with
  | nil => exact iff_of_true nofun trivial
  | cons r rs ih =>
      rw [run, List.forall_mem_cons, Fits, isSome_step_iff]
      refine and_congr_right fun hfit => ?_
      rw [step_of_fits hfit]
      exact ih

end BumpAllocator
