/-!
# MikanOs.Lib.DepthFirst

Depth-first walks of a forest, given by the children of each node.  Nothing
says that the forest is finite, or that a node is not its own descendant, so
a walk need not end and is not a list: `visited children roots k` is the
`k`-th node the walk visits, if it gets that far.

What a walk has still to do is a list of nodes; to visit the first of them is
to put its children in its place.  `Visits` is a stretch of a walk, and its
rules follow the ways a program composes one.

`Reached` is what a walk that ends has visited, and a walk of a `Forest`
visits nothing twice.

This module depends only on the Lean 4 core library.
-/

namespace DepthFirst

variable {α : Type u} (children : α → List α)

/-- Visit the first node. -/
def step : List α → List α
  | [] => []
  | x :: rest => children x ++ rest

/-- What is left after some visits. -/
def pending (roots : List α) : Nat → List α
  | 0 => roots
  | k + 1 => pending (step children roots) k

/-- The `k`-th node the walk visits. -/
def visited (roots : List α) (k : Nat) : Option α := (pending children roots k).head?

/-- From `roots` the walk visits the nodes `out`, and then has `left` to do. -/
inductive Visits : List α → List α → List α → Prop
  | done (xs : List α) : Visits xs [] xs
  | visit {x : α} {rest out left : List α} (h : Visits (children x ++ rest) out left) :
      Visits (x :: rest) (x :: out) left

variable {children} {xs ys zs out more left : List α}

/-! ## composition -/

/-- A stretch and the next one. -/
theorem Visits.trans (h : Visits children xs out ys) (h' : Visits children ys more left) :
    Visits children xs (out ++ more) left := by
  induction h with
  | done _ => exact h'
  | visit _ ih => exact .visit (ih h')

/-- What comes later in the walk makes no difference. -/
theorem Visits.append (h : Visits children xs out left) (zs : List α) :
    Visits children (xs ++ zs) out (left ++ zs) := by
  induction h with
  | done xs => exact .done _
  | @visit x rest out left _ ih =>
      rw [List.append_assoc] at ih
      exact .visit ih

/-- The walk of two forests, the first of which it finishes. -/
theorem Visits.append_finished (h : Visits children xs out []) (h' : Visits children ys more left) :
    Visits children (xs ++ ys) (out ++ more) left :=
  (h.append ys).trans h'

/-! ## single visits -/

theorem Visits.pending_eq (h : Visits children xs out left) :
    pending children xs out.length = left := by
  induction h with
  | done _ => rfl
  | visit _ ih => exact ih

/-- A stretch lists what the walk visits. -/
theorem Visits.visited_eq (h : Visits children xs out left) {k : Nat} (hk : k < out.length) :
    visited children xs k = some (out[k]) := by
  induction h generalizing k with
  | done _ => contradiction
  | visit _ ih =>
      cases k with
      | zero => rfl
      | succ k => exact ih (Nat.lt_of_succ_lt_succ hk)

/-- After a stretch the walk visits what is left. -/
theorem Visits.visited_length (h : Visits children xs out left) :
    visited children xs out.length = left.head? :=
  congrArg List.head? h.pending_eq

/-! ## the end of a walk -/

theorem pending_nil (k : Nat) : pending children [] k = [] := by
  induction k with
  | zero => rfl
  | succ k ih => exact ih

theorem pending_add (roots : List α) (k m : Nat) :
    pending children roots (k + m) = pending children (pending children roots k) m := by
  induction k generalizing roots with
  | zero => rw [Nat.zero_add, pending]
  | succ k ih =>
      rw [Nat.succ_add]
      exact ih (step children roots)

/-- A walk that has ended visits nothing more. -/
theorem visited_eq_none_of_le {roots : List α} {k m : Nat} (h : visited children roots k = none)
    (hle : k ≤ m) : visited children roots m = none := by
  obtain ⟨d, rfl⟩ := Nat.le.dest hle
  have hnil : pending children roots k = [] := List.head?_eq_none_iff.mp h
  rw [visited, pending_add, hnil, pending_nil]
  rfl

/-! ## what a walk visits -/

/-- A root, or a child of what is reached. -/
inductive Reached (children : α → List α) (roots : List α) : α → Prop
  | root {x : α} (h : x ∈ roots) : Reached children roots x
  | child {x y : α} (hx : Reached children roots x) (h : y ∈ children x) :
      Reached children roots y

/-- Nothing that is reached is a root twice, a child twice, or both. -/
structure Forest (children : α → List α) (roots : List α) : Prop where
  nodup_roots : roots.Nodup
  nodup_children : ∀ x, Reached children roots x → (children x).Nodup
  not_root : ∀ x y, Reached children roots x → y ∈ children x → y ∉ roots
  parent : ∀ x y z, Reached children roots x → Reached children roots y → z ∈ children x →
    z ∈ children y → x = y

/-- A walk from `roots` that has visited `seen` and has `todo` left. -/
structure Walked (children : α → List α) (roots seen todo : List α) : Prop where
  root : ∀ x ∈ roots, x ∈ seen ++ todo
  child : ∀ x ∈ seen, ∀ y ∈ children x, y ∈ seen ++ todo
  reached : ∀ x ∈ seen ++ todo, Reached children roots x
  origin : ∀ x ∈ seen ++ todo, x ∈ roots ∨ ∃ y ∈ seen, x ∈ children y

variable {roots seen todo rest : List α} {x : α}

theorem Walked.start : Walked children roots [] roots :=
  ⟨fun _ h => h, nofun, fun _ h => .root h, fun _ h => .inl h⟩

/-- What is to be visited next has been visited, or is still to be visited. -/
theorem mem_step {y : α} (h : y ∈ seen ++ x :: rest) : y ∈ seen ++ [x] ++ (children x ++ rest) := by
  simp only [List.mem_append, List.mem_cons, List.not_mem_nil, or_false] at h ⊢
  rcases h with h | h | h
  · exact .inl (.inl h)
  · exact .inl (.inr h)
  · exact .inr (.inr h)

/-- One visit. -/
theorem Walked.step (h : Walked children roots seen (x :: rest)) :
    Walked children roots (seen ++ [x]) (children x ++ rest) := by
  have hx : x ∈ seen ++ x :: rest := List.mem_append_right _ List.mem_cons_self
  have hcases : ∀ y ∈ seen ++ [x] ++ (children x ++ rest),
      y ∈ seen ++ x :: rest ∨ y ∈ children x := by
    intro y hy
    simp only [List.mem_append, List.mem_cons, List.not_mem_nil, or_false] at hy ⊢
    rcases hy with (hy | hy) | hy | hy
    · exact .inl (.inl hy)
    · exact .inl (.inr (.inl hy))
    · exact .inr hy
    · exact .inl (.inr (.inr hy))
  refine ⟨fun y hy => mem_step (h.root y hy), fun y hy z hz => ?_, fun y hy => ?_,
    fun y hy => ?_⟩
  · rcases List.mem_append.mp hy with hy | hy
    · exact mem_step (h.child y hy z hz)
    · obtain rfl := List.mem_singleton.mp hy
      exact List.mem_append_right _ (List.mem_append_left _ hz)
  · rcases hcases y hy with hy | hy
    · exact h.reached y hy
    · exact .child (h.reached x hx) hy
  · rcases hcases y hy with hy | hy
    · rcases h.origin y hy with hroot | ⟨z, hz, hyz⟩
      · exact .inl hroot
      · exact .inr ⟨z, List.mem_append_left _ hz, hyz⟩
    · exact .inr ⟨x, List.mem_append_right _ List.mem_cons_self, hy⟩

theorem Visits.walked (h : Visits children todo out left)
    (hw : Walked children roots seen todo) : Walked children roots (seen ++ out) left := by
  induction h generalizing seen with
  | done _ => rwa [List.append_nil]
  | visit _ ih =>
      have hnext := ih hw.step
      rwa [List.append_assoc, List.singleton_append] at hnext

/-- All that a walk visits is reached. -/
theorem Visits.reached (h : Visits children roots out left) :
    ∀ x ∈ out ++ left, Reached children roots x :=
  (h.walked .start).reached

/-- A walk that ends has visited all that is reached. -/
theorem Visits.mem_of_reached (h : Visits children roots out []) (hx : Reached children roots x) :
    x ∈ out := by
  have hw : Walked children roots out [] := h.walked .start
  induction hx with
  | root hroot => exact List.append_nil out ▸ hw.root _ hroot
  | child _ hchild ih => exact List.append_nil out ▸ hw.child _ ih _ hchild

/-- One visit in a forest: the children are new. -/
theorem Walked.nodup_step (h : Walked children roots seen (x :: rest))
    (forest : Forest children roots) (hnodup : (seen ++ x :: rest).Nodup) :
    (seen ++ [x] ++ (children x ++ rest)).Nodup := by
  have hx := h.reached x (List.mem_append_right _ List.mem_cons_self)
  have hnew : ∀ y ∈ children x, y ∉ seen ++ x :: rest := by
    intro y hy hold
    rcases h.origin y hold with hroot | ⟨z, hz, hyz⟩
    · exact forest.not_root x y hx hy hroot
    · have hzx : z = x := forest.parent z x y (h.reached z (List.mem_append_left _ hz)) hx hyz hy
      rw [hzx] at hz
      exact (List.nodup_append.mp hnodup).2.2 x hz x List.mem_cons_self rfl
  have hperm : (seen ++ [x] ++ (children x ++ rest)).Perm
      (children x ++ (seen ++ x :: rest)) := by
    have hcomm := (@List.perm_append_comm α (seen ++ [x]) (children x)).append_right rest
    simpa only [List.append_assoc, List.cons_append, List.nil_append] using hcomm
  refine hperm.nodup_iff.mpr (List.nodup_append.mpr ⟨forest.nodup_children x hx, hnodup, ?_⟩)
  exact fun y hy z hz hyz => hnew y hy (hyz ▸ hz)

theorem Visits.nodup_walked (h : Visits children todo out left) (forest : Forest children roots)
    (hw : Walked children roots seen todo) (hnodup : (seen ++ todo).Nodup) :
    (seen ++ out ++ left).Nodup := by
  induction h generalizing seen with
  | done _ => rwa [List.append_nil]
  | visit _ ih =>
      have hnext := ih hw.step (hw.nodup_step forest hnodup)
      rwa [List.append_assoc seen, List.singleton_append] at hnext

/-- A walk of a forest visits nothing twice. -/
theorem Visits.nodup (h : Visits children roots out left) (forest : Forest children roots) :
    (out ++ left).Nodup :=
  h.nodup_walked forest .start forest.nodup_roots

end DepthFirst
