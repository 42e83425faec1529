/-!
# MikanOs.Usb.ArrayMap

The fixed-size map of `usb/arraymap.hpp`: an array of slots searched from
the front, a slot without a key being free.  `put` takes the first free slot
whatever the key and does nothing when there is none.

`live` is what the map means: the entries of the slots in use.  As long as
their keys are distinct, `get` finds them, `put` adds one if there is room,
and `delete` removes one; the order of the entries does not matter, so the
statements are up to permutation.

This module depends only on the Lean 4 core library.
-/

namespace MikanOs.Usb

variable {K V : Type} [DecidableEq K] {N : Nat}

/-- `ArrayMap<K, V, N>`; a slot whose key is gone keeps its value. -/
structure ArrayMap (K V : Type) (N : Nat) where
  table : List (Option K × V)
  size : table.length = N

namespace ArrayMap

/-! ## the code, slot by slot -/

/-- `Get` from some slot on. -/
def getFrom (key : K) : List (Option K × V) → Option V
  | [] => none
  | (k, v) :: rest => if k = some key then some v else getFrom key rest

/-- `Put` from some slot on. -/
def putFrom (key : K) (value : V) : List (Option K × V) → List (Option K × V)
  | [] => []
  | (none, _) :: rest => (some key, value) :: rest
  | (some k, v) :: rest => (some k, v) :: putFrom key value rest

/-- `Delete` from some slot on. -/
def deleteFrom (key : K) : List (Option K × V) → List (Option K × V)
  | [] => []
  | (k, v) :: rest => if k = some key then (none, v) :: rest else (k, v) :: deleteFrom key rest

omit [DecidableEq K] in
theorem length_putFrom (key : K) (value : V) (table : List (Option K × V)) :
    (putFrom key value table).length = table.length := by
  induction table with
  | nil => rfl
  | cons slot rest ih =>
      obtain ⟨k, v⟩ := slot
      cases k with
      | none => rfl
      | some k => rw [putFrom, List.length_cons, ih, List.length_cons]

theorem length_deleteFrom (key : K) (table : List (Option K × V)) :
    (deleteFrom key table).length = table.length := by
  induction table with
  | nil => rfl
  | cons slot rest ih =>
      rw [deleteFrom]
      split
      · rfl
      · rw [List.length_cons, ih, List.length_cons]

/-! ## the interface -/

/-- A map with every slot free and value-initialized. -/
def new (N : Nat) (value : V) : ArrayMap K V N where
  table := List.replicate N (none, value)
  size := List.length_replicate

/-- `Get`. -/
def get (m : ArrayMap K V N) (key : K) : Option V := getFrom key m.table

/-- `Put`. -/
def put (m : ArrayMap K V N) (key : K) (value : V) : ArrayMap K V N where
  table := putFrom key value m.table
  size := by rw [length_putFrom, m.size]

/-- `Delete`. -/
def delete (m : ArrayMap K V N) (key : K) : ArrayMap K V N where
  table := deleteFrom key m.table
  size := by rw [length_deleteFrom, m.size]

/-! ## the entries in use -/

/-- The entries of the slots in use, of some slots. -/
def liveOf : List (Option K × V) → List (K × V)
  | [] => []
  | (none, _) :: rest => liveOf rest
  | (some k, v) :: rest => (k, v) :: liveOf rest

/-- The entries of the slots in use. -/
def live (m : ArrayMap K V N) : List (K × V) := liveOf m.table

omit [DecidableEq K] in
/-- A new map holds nothing. -/
theorem live_new (value : V) : (new N value : ArrayMap K V N).live = [] := by
  show liveOf (List.replicate N (none, value)) = []
  induction N with
  | zero => rfl
  | succ n ih => rw [List.replicate_succ, liveOf, ih]

omit [DecidableEq K] in
theorem length_liveOf_le (table : List (Option K × V)) : (liveOf table).length ≤ table.length := by
  induction table with
  | nil => exact Nat.le_refl 0
  | cons slot rest ih =>
      obtain ⟨k, v⟩ := slot
      cases k with
      | none => exact Nat.le_succ_of_le ih
      | some k => exact Nat.succ_le_succ ih

omit [DecidableEq K] in
/-- With a slot free, `putFrom` adds its entry. -/
theorem live_putFrom (key : K) (value : V) {table : List (Option K × V)}
    (h : (liveOf table).length < table.length) :
    (liveOf (putFrom key value table)).Perm ((key, value) :: liveOf table) := by
  induction table with
  | nil => contradiction
  | cons slot rest ih =>
      obtain ⟨k, v⟩ := slot
      cases k with
      | none => exact .refl _
      | some k =>
          rw [liveOf, List.length_cons, List.length_cons] at h
          rw [putFrom, liveOf, liveOf]
          exact ((ih (by omega)).cons (k, v)).trans (.swap _ _ _)

/-- `getFrom` finds the entry of a key in use. -/
theorem getFrom_eq_some {key : K} {value : V} {table : List (Option K × V)}
    (hmem : (key, value) ∈ liveOf table) (hnodup : ((liveOf table).map Prod.fst).Nodup) :
    getFrom key table = some value := by
  induction table with
  | nil => exact (List.not_mem_nil hmem).elim
  | cons slot rest ih =>
      obtain ⟨k, v⟩ := slot
      cases k with
      | none =>
          rw [getFrom, if_neg (by simp)]
          exact ih hmem hnodup
      | some k =>
          rw [liveOf, List.map_cons, List.nodup_cons] at hnodup
          rw [liveOf, List.mem_cons] at hmem
          rw [getFrom]
          cases hmem with
          | inl heq =>
              obtain ⟨rfl, rfl⟩ := Prod.mk.inj heq
              exact if_pos rfl
          | inr hrest =>
              have hkey := List.mem_map_of_mem (f := Prod.fst) hrest
              have hne : k ≠ key := fun h => hnodup.1 (by subst h; exact hkey)
              rw [if_neg (by simpa using hne)]
              exact ih hrest hnodup.2

/-- `getFrom` finds nothing under a key not in use. -/
theorem getFrom_eq_none {key : K} {table : List (Option K × V)}
    (h : key ∉ (liveOf table).map Prod.fst) : getFrom key table = none := by
  induction table with
  | nil => rfl
  | cons slot rest ih =>
      obtain ⟨k, v⟩ := slot
      cases k with
      | none =>
          rw [getFrom, if_neg (by simp)]
          exact ih h
      | some k =>
          rw [liveOf, List.map_cons, List.mem_cons, not_or] at h
          rw [getFrom, if_neg (by simpa using Ne.symm h.1)]
          exact ih h.2

/-- `deleteFrom` removes the entry of a key in use. -/
theorem live_deleteFrom {key : K} {value : V} {table : List (Option K × V)}
    (hmem : (key, value) ∈ liveOf table) (hnodup : ((liveOf table).map Prod.fst).Nodup) :
    ((key, value) :: liveOf (deleteFrom key table)).Perm (liveOf table) := by
  induction table with
  | nil => exact (List.not_mem_nil hmem).elim
  | cons slot rest ih =>
      obtain ⟨k, v⟩ := slot
      cases k with
      | none =>
          rw [deleteFrom, if_neg (by simp)]
          exact ih hmem hnodup
      | some k =>
          rw [liveOf, List.map_cons, List.nodup_cons] at hnodup
          rw [liveOf, List.mem_cons] at hmem
          rw [deleteFrom]
          cases hmem with
          | inl heq =>
              obtain ⟨rfl, rfl⟩ := Prod.mk.inj heq
              rw [if_pos rfl]
              exact .refl _
          | inr hrest =>
              have hkey := List.mem_map_of_mem (f := Prod.fst) hrest
              have hne : k ≠ key := fun h => hnodup.1 (by subst h; exact hkey)
              rw [if_neg (by simpa using hne), liveOf, liveOf]
              exact (List.Perm.swap _ _ _).trans ((ih hrest hnodup.2).cons _)

/-- Storing under one key does not concern the others. -/
theorem getFrom_putFrom_ne {key other : K} (h : other ≠ key) (value : V)
    (table : List (Option K × V)) :
    getFrom other (putFrom key value table) = getFrom other table := by
  induction table with
  | nil => rfl
  | cons slot rest ih =>
      obtain ⟨k, v⟩ := slot
      cases k with
      | none => rw [putFrom, getFrom, if_neg (by simpa using Ne.symm h), getFrom, if_neg (by simp)]
      | some k => rw [putFrom, getFrom, getFrom, ih]

/-- The first entry under a new key is found, if there is a slot for it. -/
theorem getFrom_putFrom_self {key : K} {table : List (Option K × V)}
    (hnew : getFrom key table = none) (value : V) : getFrom key (putFrom key value table) =
      if (liveOf table).length < table.length then some value else none := by
  induction table with
  | nil => rfl
  | cons slot rest ih =>
      obtain ⟨k, v⟩ := slot
      cases k with
      | none =>
          have hlive : (liveOf rest).length ≤ rest.length := length_liveOf_le rest
          rw [putFrom, getFrom, if_pos rfl, liveOf, List.length_cons, if_pos (by omega)]
      | some k =>
          rw [getFrom] at hnew
          split at hnew
          · contradiction
          · next hne =>
            rw [putFrom, getFrom, if_neg hne, ih hnew, liveOf, List.length_cons, List.length_cons]
            simp only [Nat.add_lt_add_iff_right]

/-! ## the map laws -/

variable {m : ArrayMap K V N} {key : K} {value : V}

omit [DecidableEq K] in
/-- With a slot free, `put` adds its entry. -/
theorem live_put (h : m.live.length < N) (key : K) (value : V) :
    (m.put key value).live.Perm ((key, value) :: m.live) :=
  live_putFrom key value (by rw [m.size]; exact h)

/-- `get` finds the entry of a key in use. -/
theorem get_eq_some (hmem : (key, value) ∈ m.live) (hnodup : (m.live.map Prod.fst).Nodup) :
    m.get key = some value :=
  getFrom_eq_some hmem hnodup

/-- `get` finds nothing under a key not in use. -/
theorem get_eq_none (h : key ∉ m.live.map Prod.fst) : m.get key = none :=
  getFrom_eq_none h

/-- `put` under one key does not concern the others. -/
theorem get_put_ne {other : K} (h : other ≠ key) (value : V) :
    (m.put key value).get other = m.get other :=
  getFrom_putFrom_ne h value m.table

/-- `put` under a new key is found, if there is a slot for it. -/
theorem get_put_self (hnew : m.get key = none) (value : V) :
    (m.put key value).get key = if m.live.length < N then some value else none := by
  have hput := getFrom_putFrom_self hnew value
  rw [m.size] at hput
  exact hput

/-- A new map finds nothing. -/
theorem get_new (value : V) (key : K) : (new N value : ArrayMap K V N).get key = none :=
  get_eq_none (by rw [live_new]; exact List.not_mem_nil)

/-- `delete` removes the entry of a key in use. -/
theorem live_delete (hmem : (key, value) ∈ m.live) (hnodup : (m.live.map Prod.fst).Nodup) :
    ((key, value) :: (m.delete key).live).Perm m.live :=
  live_deleteFrom hmem hnodup

/-! ## a map that is only added to -/

/-- The slots after some entries have been stored one after another, and none
deleted. -/
def slotsOf (N : Nat) (value : V) (entries : List (K × V)) : List (Option K × V) :=
  (entries.take N).map (fun e => (some e.1, e.2)) ++
    List.replicate (N - entries.length) (none, value)

omit [DecidableEq K] in
/-- `putFrom` passes over slots in use. -/
theorem putFrom_append (key : K) (value : V) (entries : List (K × V))
    (rest : List (Option K × V)) :
    putFrom key value (entries.map (fun e => (some e.1, e.2)) ++ rest) =
      entries.map (fun e => (some e.1, e.2)) ++ putFrom key value rest := by
  induction entries with
  | nil => rfl
  | cons e entries ih => exact congrArg _ ih

omit [DecidableEq K] in
/-- `putFrom` stores in the next slot, or nowhere. -/
theorem putFrom_slotsOf (free : V) (entries : List (K × V)) (key : K) (value : V) :
    putFrom key value (slotsOf N free entries) = slotsOf N free (entries ++ [(key, value)]) := by
  unfold slotsOf
  rw [putFrom_append]
  by_cases hroom : entries.length < N
  · obtain ⟨n, hn⟩ : ∃ n, N - entries.length = n + 1 := ⟨N - entries.length - 1, by omega⟩
    have hrest : N - (entries ++ [(key, value)]).length = n := by
      rw [List.length_append, List.length_singleton]
      omega
    rw [hn, hrest, List.take_of_length_le (Nat.le_of_lt hroom),
      List.take_of_length_le (by rw [List.length_append]; exact hroom), List.map_append,
      List.append_assoc]
    rfl
  · have hnone : N - entries.length = 0 := by omega
    have hrest : N - (entries ++ [(key, value)]).length = 0 := by
      rw [List.length_append]
      omega
    rw [hnone, hrest, List.take_append_of_le_length (by omega)]
    rfl

/-- `getFrom` finds the first entry of a key. -/
theorem getFrom_slotsOf (free : V) (entries : List (K × V)) (key : K) :
    getFrom key (slotsOf N free entries) =
      ((entries.take N).find? fun e => e.1 = key).map Prod.snd := by
  unfold slotsOf
  generalize entries.take N = stored
  induction stored with
  | nil =>
      generalize N - entries.length = n
      induction n with
      | zero => rfl
      | succ n ih => exact ih
  | cons e stored ih =>
      rw [List.map_cons, List.cons_append, getFrom, List.find?_cons, ih]
      by_cases he : e.1 = key
      · rw [if_pos (congrArg some he), he, decide_eq_true rfl]
        rfl
      · rw [if_neg (by simpa using he), decide_eq_false he]

end ArrayMap

end MikanOs.Usb
