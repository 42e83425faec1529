import Mathlib.Data.List.Chain

/-!
# MikanOs.Lib.Linked

Linked lists, given by the node after each node.  Nothing says that there is
an end to one: `Visits` is a list that has been walked from a node to its end,
and `exists_visits` says that there is such a walk when every step makes
something smaller.
-/

namespace Linked

variable {α : Type u} (next : α → Option α)

/-- From `start` on there are the nodes `as`, and no others. -/
inductive Visits : Option α → List α → Prop
  | stop : Visits none []
  | visit {a : α} {as : List α} (h : Visits (next a) as) : Visits (some a) (a :: as)

variable {next} {start : Option α} {as : List α} {a : α}

/-- A walk whose steps count down comes to its end. -/
theorem exists_visits {measure : α → Nat}
    (hmeasure : ∀ a b, next a = some b → measure b < measure a) (start : Option α) :
    ∃ as, Visits next start as := by
  cases start with
  | none => exact ⟨[], .stop⟩
  | some a =>
      induction hn : measure a using Nat.strongRecOn generalizing a with
      | ind n ih =>
          cases hnext : next a with
          | none => exact ⟨[a], .visit (hnext ▸ .stop)⟩
          | some b =>
              obtain ⟨as, has⟩ := ih (measure b) (hn ▸ hmeasure a b hnext) b rfl
              exact ⟨a :: as, .visit (hnext ▸ has)⟩

/-- What holds of the first node and goes from each to the next holds of all. -/
theorem Visits.forall_mem {inv : α → Prop} (h : Visits next start as)
    (hstart : ∀ a, start = some a → inv a) (hnext : ∀ a b, inv a → next a = some b → inv b) :
    ∀ a ∈ as, inv a := by
  induction h with
  | stop => exact fun _ hmem => nomatch hmem
  | visit _ ih =>
      have hfirst := hstart _ rfl
      exact List.forall_mem_cons.mpr ⟨hfirst, ih fun b hb => hnext _ b hfirst hb⟩

theorem Visits.head? (h : Visits next start as) : as.head? = start := by
  cases h with
  | stop => rfl
  | visit _ => rfl

/-- Each node is the one after the node before. -/
theorem Visits.isChain (h : Visits next start as) : as.IsChain fun a b => next a = some b := by
  induction h with
  | stop => exact .nil
  | visit hrest ih =>
      refine List.isChain_cons.mpr ⟨fun b hb => ?_, ih⟩
      exact hrest.head?.symm.trans hb

/-- The walk goes on up to the first node with none after it. -/
theorem Visits.next_eq_none_iff (h : Visits next start as) :
    ∀ a ∈ as, next a = none ↔ as.getLast? = some a := by
  induction h with
  | stop => exact fun _ hmem => nomatch hmem
  | @visit first rest hrest ih =>
      intro a hmem
      cases rest with
      | nil =>
          rw [List.mem_singleton.mp hmem]
          exact iff_of_true hrest.head?.symm rfl
      | cons second rest =>
          rw [List.getLast?_cons_cons]
          rcases List.mem_cons.mp hmem with rfl | hmem
          · have hnext : next a = some second := hrest.head?.symm
            constructor
            · exact fun hnone => nomatch hnone.symm.trans hnext
            · exact fun hlast => (ih a (List.mem_of_getLast? hlast)).mpr hlast
          · exact ih a hmem

end Linked
