import Mathlib.Data.List.Induction

/-!
# MikanOs.Lib.MapHistory

What a map is, said of the calls alone: after some puts and deletes a key has
the value of the last of them that is about it.

`agrees_iff` is how an implementation is shown to be one.  If a call does not
concern the other keys, then it answers correctly throughout a run just when
each call is right about its own key.
-/

namespace MapHistory

/-- A call that changes a map. -/
inductive Op (K V : Type)
  | put (key : K) (value : V)
  | delete (key : K)
  deriving DecidableEq

namespace Op

variable {K V : Type}

/-- The key a call is about. -/
def key : Op K V → K
  | put k _ => k
  | delete k => k

/-- What its key is to have afterwards. -/
def result : Op K V → Option V
  | put _ v => some v
  | delete _ => none

end Op

variable {K V : Type} [DecidableEq K]

/-- The value of the last put under a key, unless a delete came after it. -/
def latest (ops : List (Op K V)) (k : K) : Option V :=
  (ops.reverse.find? fun op => op.key = k).bind Op.result

theorem latest_append_self (ops : List (Op K V)) (op : Op K V) :
    latest (ops ++ [op]) op.key = op.result := by
  unfold latest
  rw [List.reverse_append, List.reverse_singleton, List.singleton_append,
    List.find?_cons_of_pos (by simp)]
  rfl

theorem latest_append_ne (ops : List (Op K V)) (op : Op K V) {k : K} (h : k ≠ op.key) :
    latest (ops ++ [op]) k = latest ops k := by
  unfold latest
  rw [List.reverse_append, List.reverse_singleton, List.singleton_append,
    List.find?_cons_of_neg (by simpa using Ne.symm h)]

theorem latest_put_self (ops : List (Op K V)) (k : K) (v : V) :
    latest (ops ++ [.put k v]) k = some v :=
  latest_append_self ops (.put k v)

theorem latest_delete_self (ops : List (Op K V)) (k : K) :
    latest (ops ++ [.delete k]) k = none :=
  latest_append_self ops (.delete k)

/-- A key with a value has been put. -/
theorem exists_of_latest_ne_none {ops : List (Op K V)} {k : K} (h : latest ops k ≠ none) :
    ∃ op ∈ ops, op.key = k := by
  cases hfind : ops.reverse.find? fun op => op.key = k with
  | none =>
      rw [latest, hfind] at h
      exact absurd rfl h
  | some op =>
      exact ⟨op, List.mem_reverse.mp (List.mem_of_find?_eq_some hfind),
        by simpa using List.find?_some hfind⟩

/-- At no time more than `n` keys have a value. -/
def AtMostLive (n : Nat) (ops : List (Op K V)) : Prop :=
  ∀ pre, pre <+: ops → ∀ ks : List K, ks.Nodup → (∀ k ∈ ks, latest pre k ≠ none) → ks.length ≤ n

/-- A bound on the keys there are. -/
theorem atMostLive_of_keys {n : Nat} {ops : List (Op K V)} (keys : List K)
    (hkeys : ∀ op ∈ ops, op.key ∈ keys) (hn : keys.length ≤ n) : AtMostLive n ops := by
  intro pre hpre ks hnodup hlive
  have hsub : ks ⊆ keys := by
    intro k hk
    obtain ⟨op, hop, rfl⟩ := exists_of_latest_ne_none (hlive k hk)
    exact hkeys op (hpre.subset hop)
  exact Nat.le_trans (hnodup.length_le_of_subset hsub) hn

/-- A put is only made under a key without a value. -/
def FreshPuts (ops : List (Op K V)) : Prop :=
  ∀ pre k v, pre ++ [.put k v] <+: ops → latest pre k = none

variable {S : Type} (step : S → Op K V → S) (get : S → K → Option V) {s₀ : S}

/-- **An implementation is a map** throughout a run just when each call is
right about its own key. -/
theorem agrees_iff (hempty : ∀ k, get s₀ k = none)
    (hframe : ∀ s op k, k ≠ op.key → get (step s op) k = get s k) (ops : List (Op K V)) :
    (∀ pre, pre <+: ops → ∀ k, get (pre.foldl step s₀) k = latest pre k) ↔
      ∀ pre op, pre ++ [op] <+: ops →
        get (step (pre.foldl step s₀) op) op.key = op.result := by
  constructor
  · intro hagrees pre op hpre
    have hlast := hagrees _ hpre op.key
    rwa [latest_append_self, List.foldl_append] at hlast
  · intro hright pre
    induction pre using List.reverseRecOn with
    | nil => exact fun _ k => hempty k
    | append_singleton pre op ih =>
        intro hpre k
        have hbefore := ih ((List.prefix_append pre [op]).trans hpre) k
        rw [List.foldl_append]
        by_cases hk : k = op.key
        · subst hk
          rw [latest_append_self]
          exact hright pre op hpre
        · rw [latest_append_ne pre op hk, ← hbefore]
          exact hframe _ op k hk

end MapHistory
