/-!
# MikanOs.Lib.LapRing

A ring of `N` slots between one producer and one consumer that share no
counters: each slot carries a *lap bit*, which the producer writes as `true`
on its first lap and flips on every later one.  The consumer knows a slot is
filled when its lap bit is the one of the consumer's own lap.

`Holds N taken items val bit` says that the slots `val` and lap bits `bit`
are those after the producer has committed `items` and the consumer has
taken the first `taken` of them.  It survives everything the two sides do:
`scribble` (the producer writes into the slot it is about to commit),
`commit` and `take`.  Under it the bit tells the truth (`ready_iff`), and
what a filled slot holds is the right item (`front`).

This module depends only on the Lean 4 core library.
-/

namespace LapRing

/-! ## slots and laps -/

/-- The lap bit of the `k`-th item on a ring of `N` slots. -/
def lapBit (N k : Nat) : Bool := k / N % 2 == 0

theorem lapBit_of_lt (h : k < N) : lapBit N k = true := by
  simp [lapBit, Nat.div_eq_of_lt h]

/-- One lap later the bit is flipped. -/
theorem lapBit_add_lap (hN : 0 < N) (k : Nat) : lapBit N (k + N) = !lapBit N k := by
  unfold lapBit
  rw [Nat.add_div_right k hN]
  have hcases : k / N % 2 = 0 ∨ k / N % 2 = 1 := by omega
  cases hcases with
  | inl h => rw [Nat.add_mod, h]; rfl
  | inr h => rw [Nat.add_mod, h]; rfl

/-- Two items less than a lap apart lie in different slots. -/
theorem mod_ne_mod {j k N : Nat} (hlt : j < k) (hlap : k < j + N) : j % N ≠ k % N := by
  intro h
  obtain ⟨d, rfl⟩ : ∃ d, k = j + d := ⟨k - j, by omega⟩
  have hd : d % N = 0 := by
    have hsub := Nat.sub_mod_eq_zero_of_mod_eq h.symm
    rwa [Nat.add_sub_cancel_left] at hsub
  rw [Nat.mod_eq_of_lt (by omega)] at hd
  omega

/-- The slot after a slot. -/
theorem succ_mod (hN : 0 < N) (k : Nat) :
    (k + 1) % N = if k % N + 1 = N then 0 else k % N + 1 := by
  have hlt := Nat.mod_lt k hN
  split
  · next h => rw [← Nat.mod_add_mod, h, Nat.mod_self]
  · next h => rw [← Nat.mod_add_mod, Nat.mod_eq_of_lt (by omega)]

/-- The number of whole laps after one more item. -/
theorem succ_div (hN : 0 < N) (k : Nat) :
    (k + 1) / N = if k % N + 1 = N then k / N + 1 else k / N := by
  have hlt := Nat.mod_lt k hN
  have hk := Nat.div_add_mod k N
  split
  · next h =>
    have hk' : k + 1 = N * (k / N + 1) := by rw [Nat.mul_add]; omega
    rw [hk', Nat.mul_div_cancel_left _ hN]
  · next h =>
    have hk' : k + 1 = k % N + 1 + N * (k / N) := by omega
    rw [hk', Nat.add_mul_div_left _ _ hN, Nat.div_eq_of_lt (by omega), Nat.zero_add]

/-- The lap bit flips exactly when the last slot has been passed. -/
theorem lapBit_succ (hN : 0 < N) (k : Nat) :
    lapBit N (k + 1) = if k % N + 1 = N then !lapBit N k else lapBit N k := by
  unfold lapBit
  rw [succ_div hN]
  split
  · have hcases : k / N % 2 = 0 ∨ k / N % 2 = 1 := by omega
    cases hcases with
    | inl h => rw [Nat.add_mod, h]; rfl
    | inr h => rw [Nat.add_mod, h]; rfl
  · rfl

/-! ## the invariant -/

/-- The ring after `items` have been committed and `taken` of them taken:
the slots of the items not yet taken hold them under their lap bits, and the
slots of the next lap's worth of items still show the bit of an earlier
lap. -/
structure Holds (N taken : Nat) (items : List α) (val : Nat → α) (bit : Nat → Bool) : Prop where
  pos : 0 < N
  taken_le : taken ≤ items.length
  room : items.length ≤ taken + N
  live : ∀ k (h : k < items.length), taken ≤ k →
    val (k % N) = items[k] ∧ bit (k % N) = lapBit N k
  stale : ∀ k, items.length ≤ k → k < items.length + N → bit (k % N) = !lapBit N k

namespace Holds

variable {N taken : Nat} {items : List α} {val val' : Nat → α} {bit bit' : Nat → Bool}

/-- A ring whose lap bits are all clear holds nothing. -/
theorem init (hN : 0 < N) (val : Nat → α) (hbit : ∀ i < N, bit i = false) :
    Holds N 0 [] val bit where
  pos := hN
  taken_le := Nat.zero_le _
  room := Nat.zero_le _
  live k h := absurd h (Nat.not_lt_zero k)
  stale k _ hk := by
    have hk' : k < N := by simpa using hk
    rw [Nat.mod_eq_of_lt hk', hbit k hk', lapBit_of_lt hk']
    rfl

/-- Only the `N` slots of the ring count. -/
theorem congr (h : Holds N taken items val bit) (hval : ∀ i < N, val' i = val i)
    (hbit : ∀ i < N, bit' i = bit i) : Holds N taken items val' bit' where
  pos := h.pos
  taken_le := h.taken_le
  room := h.room
  live k hk hle := by
    have hlt := Nat.mod_lt k h.pos
    rw [hval _ hlt, hbit _ hlt]
    exact h.live k hk hle
  stale k hle hlt := by
    rw [hbit _ (Nat.mod_lt k h.pos)]
    exact h.stale k hle hlt

/-- The consumer's slot shows the consumer's lap exactly when an item is
waiting. -/
theorem ready_iff (h : Holds N taken items val bit) :
    bit (taken % N) = lapBit N taken ↔ taken < items.length := by
  constructor
  · intro hbit
    apply Nat.lt_of_le_of_ne h.taken_le
    intro heq
    have hpos := h.pos
    have hstale := h.stale taken (by omega) (by omega)
    rw [hbit] at hstale
    exact absurd hstale (by simp)
  · intro hlt
    exact (h.live taken hlt (Nat.le_refl _)).2

/-- What waits in the consumer's slot is the next item. -/
theorem front (h : Holds N taken items val bit) (hlt : taken < items.length) :
    val (taken % N) = items[taken] :=
  (h.live taken hlt (Nat.le_refl _)).1

/-- The consumer takes items. -/
theorem takeTo (h : Holds N taken items val bit) (hle : taken ≤ taken')
    (hlen : taken' ≤ items.length) : Holds N taken' items val bit where
  pos := h.pos
  taken_le := hlen
  room := by have := h.room; omega
  live k hk hk' := h.live k hk (by omega)
  stale := h.stale

/-- The consumer takes an item. -/
theorem take (h : Holds N taken items val bit) (hlt : taken < items.length) :
    Holds N (taken + 1) items val bit :=
  h.takeTo (Nat.le_succ taken) hlt

/-- The producer writes into the slot it is about to commit, leaving its lap
bit alone. -/
theorem scribble (h : Holds N taken items val bit) (hroom : items.length < taken + N)
    (hval : ∀ i, i ≠ items.length % N → val' i = val i) : Holds N taken items val' bit where
  pos := h.pos
  taken_le := h.taken_le
  room := h.room
  live k hk hle := by
    have hne : k % N ≠ items.length % N := mod_ne_mod hk (by omega)
    rw [hval _ hne]
    exact h.live k hk hle
  stale := h.stale

/-- The producer commits an item by writing its slot's lap bit. -/
theorem commit (h : Holds N taken items val bit) (hroom : items.length < taken + N)
    (hval : ∀ i, i ≠ items.length % N → val' i = val i)
    (hbit : ∀ i, i ≠ items.length % N → bit' i = bit i)
    (hslot : val' (items.length % N) = x)
    (hlap : bit' (items.length % N) = lapBit N items.length) :
    Holds N taken (items ++ [x]) val' bit' where
  pos := h.pos
  taken_le := by have := h.taken_le; rw [List.length_append]; omega
  room := by rw [List.length_append, List.length_singleton]; omega
  live k hk hle := by
    rw [List.length_append, List.length_singleton] at hk
    by_cases hlt : k < items.length
    · have hne : k % N ≠ items.length % N := mod_ne_mod hlt (by omega)
      rw [hval _ hne, hbit _ hne, List.getElem_append_left hlt]
      exact h.live k hlt hle
    · have hk' : k = items.length := by omega
      subst hk'
      simp [hslot, hlap]
  stale k hle hlt := by
    rw [List.length_append, List.length_singleton] at hle hlt
    by_cases hlast : k = items.length + N
    · subst hlast
      rw [Nat.add_mod_right, hlap, lapBit_add_lap h.pos, Bool.not_not]
    · have hne : items.length % N ≠ k % N := mod_ne_mod (by omega) (by omega)
      rw [hbit _ hne.symm]
      exact h.stale k (by omega) (by omega)

end Holds

end LapRing
