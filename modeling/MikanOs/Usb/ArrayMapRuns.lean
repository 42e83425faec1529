import MikanOs.Lib.MapHistory
import MikanOs.Usb.ArrayMap

/-!
# MikanOs.Usb.ArrayMapRuns

How far `ArrayMap` is a map.

`Put` does not look for its key.  It takes the first free slot, and `Get` the
first slot of a key, so that a second value under a key may be hidden by the
first, and uncovered by `Delete`.  `StepOk` says of the slots before a call
when this does no harm.
-/

namespace MikanOs.Usb.ArrayMap

open MapHistory

variable {K V : Type} [DecidableEq K] {N : Nat}

/-! ## one call -/

/-- The first slot that is free or has the key is free, or has the value
already. -/
def PutOk (key : K) (value : V) (table : List (Option K × V)) : Prop :=
  ∃ slot, table.find? (fun s => s.1 = none ∨ s.1 = some key) = some slot ∧
    (slot.1 = none ∨ slot.2 = value)

/-- No more than one slot has the key. -/
def DeleteOk (key : K) (table : List (Option K × V)) : Prop :=
  (table.filter fun s => s.1 = some key).length ≤ 1

/-- What a call asks of the slots. -/
def StepOk (m : ArrayMap K V N) : Op K V → Prop
  | .put key value => PutOk key value m.table
  | .delete key => DeleteOk key m.table

/-- A call. -/
def call (m : ArrayMap K V N) : Op K V → ArrayMap K V N
  | .put key value => m.put key value
  | .delete key => m.delete key

theorem getFrom_putFrom_iff (key : K) (value : V) (table : List (Option K × V)) :
    getFrom key (putFrom key value table) = some value ↔ PutOk key value table := by
  unfold PutOk
  induction table with
  | nil => simp [putFrom, getFrom]
  | cons slot rest ih =>
      obtain ⟨k, v⟩ := slot
      cases k with
      | none =>
          rw [putFrom, getFrom, if_pos rfl, List.find?_cons_of_pos (by simp)]
          exact ⟨fun _ => ⟨_, rfl, .inl rfl⟩, fun _ => rfl⟩
      | some k =>
          rw [putFrom, getFrom]
          by_cases hk : k = key
          · rw [if_pos (congrArg some hk), List.find?_cons_of_pos (by simpa using hk)]
            simp
          · rw [if_neg (by simpa using hk), List.find?_cons_of_neg (by simpa using hk)]
            exact ih

theorem getFrom_eq_none_iff (key : K) (table : List (Option K × V)) :
    getFrom key table = none ↔ table.filter (fun s => s.1 = some key) = [] := by
  induction table with
  | nil => exact ⟨fun _ => rfl, fun _ => rfl⟩
  | cons slot rest ih =>
      obtain ⟨k, v⟩ := slot
      rw [getFrom]
      by_cases hk : k = some key
      · rw [if_pos hk, List.filter_cons_of_pos (by simpa using hk)]
        simp
      · rw [if_neg hk, List.filter_cons_of_neg (by simpa using hk)]
        exact ih

theorem getFrom_deleteFrom_iff (key : K) (table : List (Option K × V)) :
    getFrom key (deleteFrom key table) = none ↔ DeleteOk key table := by
  unfold DeleteOk
  induction table with
  | nil => exact ⟨fun _ => Nat.zero_le 1, fun _ => rfl⟩
  | cons slot rest ih =>
      obtain ⟨k, v⟩ := slot
      rw [deleteFrom]
      by_cases hk : k = some key
      · rw [if_pos hk, getFrom, if_neg (by simp), getFrom_eq_none_iff,
          List.filter_cons_of_pos (by simpa using hk), List.length_cons, ← List.length_eq_zero_iff]
        omega
      · rw [if_neg hk, getFrom, if_neg hk, List.filter_cons_of_neg (by simpa using hk)]
        exact ih

/-- Deleting one key does not concern the others. -/
theorem getFrom_deleteFrom_ne {key other : K} (h : other ≠ key) (table : List (Option K × V)) :
    getFrom other (deleteFrom key table) = getFrom other table := by
  induction table with
  | nil => rfl
  | cons slot rest ih =>
      obtain ⟨k, v⟩ := slot
      rw [deleteFrom]
      by_cases hk : k = some key
      · rw [if_pos hk, getFrom, if_neg (by simp), getFrom,
          if_neg (by rw [hk]; simpa using Ne.symm h)]
      · rw [if_neg hk, getFrom, getFrom, ih]

/-- There is nothing to delete. -/
theorem deleteFrom_of_none {key : K} {table : List (Option K × V)}
    (h : getFrom key table = none) : deleteFrom key table = table := by
  induction table with
  | nil => rfl
  | cons slot rest ih =>
      obtain ⟨k, v⟩ := slot
      rw [getFrom] at h
      rw [deleteFrom]
      split at h
      · contradiction
      · next hk => rw [if_neg hk, ih h]

variable {m : ArrayMap K V N}

/-- A call does not concern other keys than its own. -/
theorem get_call_ne (m : ArrayMap K V N) (op : Op K V) (k : K) (h : k ≠ op.key) :
    (m.call op).get k = m.get k := by
  cases op with
  | put key value => exact get_put_ne h value
  | delete key => exact getFrom_deleteFrom_ne h m.table

/-- And is right about its own just when it finds the slots so. -/
theorem get_call_iff (m : ArrayMap K V N) (op : Op K V) :
    (m.call op).get op.key = op.result ↔ m.StepOk op := by
  cases op with
  | put key value => exact getFrom_putFrom_iff key value m.table
  | delete key => exact getFrom_deleteFrom_iff key m.table

/-! ## runs -/

/-- The map after some calls. -/
def after (N : Nat) (free : V) (ops : List (Op K V)) : ArrayMap K V N :=
  ops.foldl call (new N free)

/-- `Get` answers as a map does throughout a run. -/
def IsMap (N : Nat) (free : V) (ops : List (Op K V)) : Prop :=
  ∀ pre, pre <+: ops → ∀ k, (after N free pre).get k = latest pre k

theorem after_append (N : Nat) (free : V) (ops : List (Op K V)) (op : Op K V) :
    after N free (ops ++ [op]) = (after N free ops).call op :=
  List.foldl_append

/-- The slots in use have different keys, those that have a value. -/
structure Distinct (m : ArrayMap K V N) (ops : List (Op K V)) : Prop where
  nodup : (m.live.map Prod.fst).Nodup
  agrees : ∀ k, m.get k = latest ops k

variable {ops : List (Op K V)}

theorem Distinct.latest_ne_none (h : Distinct m ops) {k : K} (hk : k ∈ m.live.map Prod.fst) :
    latest ops k ≠ none := by
  obtain ⟨⟨key, value⟩, hmem, rfl⟩ := List.mem_map.mp hk
  rw [← h.agrees, get_eq_some hmem h.nodup]
  exact Option.some_ne_none value

/-- A new key finds a slot, as long as there are not too many keys. -/
theorem Distinct.put (h : Distinct m ops) {key : K} {value : V} (hnew : latest ops key = none)
    (hlive : AtMostLive N (ops ++ [.put key value])) :
    Distinct (m.put key value) (ops ++ [.put key value]) := by
  have hnot : key ∉ m.live.map Prod.fst := fun hmem => h.latest_ne_none hmem hnew
  have hnodup : (key :: m.live.map Prod.fst).Nodup := List.nodup_cons.mpr ⟨hnot, h.nodup⟩
  have hroom : m.live.length < N := by
    have hcount := hlive _ List.prefix_rfl (key :: m.live.map Prod.fst) hnodup ?_
    · rwa [List.length_cons, List.length_map] at hcount
    · refine List.forall_mem_cons.mpr ⟨?_, fun k hk => ?_⟩
      · rw [latest_put_self]
        exact Option.some_ne_none value
      · have hne : k ≠ key := fun heq => hnot (heq ▸ hk)
        rw [latest_append_ne ops (.put key value) hne]
        exact h.latest_ne_none hk
  refine ⟨?_, fun k => ?_⟩
  · exact ((live_put hroom key value).map Prod.fst).nodup_iff.mpr hnodup
  · by_cases hk : k = key
    · rw [hk, latest_put_self, get_put_self (by rw [h.agrees, hnew]), if_pos hroom]
    · rw [get_put_ne hk, h.agrees, latest_append_ne ops (.put key value) hk]

theorem Distinct.delete (h : Distinct m ops) (key : K) :
    Distinct (m.delete key) (ops ++ [.delete key]) := by
  have hne : ∀ k, k ≠ key → (m.delete key).get k = latest (ops ++ [.delete key]) k := by
    intro k hk
    rw [latest_append_ne ops (.delete key) hk, ← h.agrees]
    exact getFrom_deleteFrom_ne hk m.table
  cases hget : m.get key with
  | none =>
      have hsame : m.delete key = m := by
        unfold ArrayMap.delete
        congr
        exact deleteFrom_of_none hget
      rw [hsame] at hne ⊢
      refine ⟨h.nodup, fun k => ?_⟩
      by_cases hk : k = key
      · rw [hk, latest_delete_self, hget]
      · exact hne k hk
  | some value =>
      have hmem : key ∈ m.live.map Prod.fst := by
        by_contra hnot
        rw [get_eq_none hnot] at hget
        cases hget
      obtain ⟨⟨k₀, v⟩, hentry, hkey⟩ := List.mem_map.mp hmem
      obtain rfl : k₀ = key := hkey
      have hperm := ((live_delete hentry h.nodup).map Prod.fst).nodup_iff.mpr h.nodup
      obtain ⟨hgone, hnodup⟩ := List.nodup_cons.mp hperm
      refine ⟨hnodup, fun k => ?_⟩
      by_cases hk : k = k₀
      · rw [hk, latest_delete_self, get_eq_none hgone]
      · exact hne k hk

/-- As long as keys are only put while they have no value. -/
theorem distinct_after (free : V) (hlive : AtMostLive N ops) (hfresh : FreshPuts ops) :
    Distinct (after N free ops) ops := by
  induction ops using List.reverseRecOn with
  | nil =>
      have hempty : (after N free ([] : List (Op K V))).live = [] := live_new free
      exact ⟨by rw [hempty]; exact List.nodup_nil, fun k => get_new free k⟩
  | append_singleton ops op ih =>
      have hpre := List.prefix_append ops [op]
      have hbefore := ih (fun pre h => hlive pre (h.trans hpre))
        (fun pre k v h => hfresh pre k v (h.trans hpre))
      rw [after_append]
      cases op with
      | put key value => exact hbefore.put (hfresh ops key value List.prefix_rfl) hlive
      | delete key => exact hbefore.delete key

/-- **`ArrayMap` is a map** throughout a run just when each `Put` finds a slot
that is free or has the key, the first of them free or with the value already,
and each `Delete` no more than one slot with the key.  It is enough that no
more keys have a value than there are slots, and that a key is only put while
it has none. -/
theorem isMap_iff (N : Nat) (free : V) (ops : List (Op K V)) :
    (IsMap N free ops ↔ ∀ pre op, pre ++ [op] <+: ops → (after N free pre).StepOk op) ∧
      (AtMostLive N ops → FreshPuts ops → IsMap N free ops) := by
  constructor
  · refine (agrees_iff call get (get_new free) get_call_ne ops).trans ?_
    exact forall_congr' fun pre => forall_congr' fun op => imp_congr_right fun _ =>
      get_call_iff _ op
  · intro hlive hfresh pre hpre
    exact (distinct_after free (fun p h => hlive p (h.trans hpre))
      (fun p k v h => hfresh p k v (h.trans hpre))).agrees

/-- A second value under a key is not found. -/
theorem not_isMap : AtMostLive 4 [Op.put 7 1, .put 7 2] ∧ ¬ IsMap 4 0 [Op.put 7 1, .put 7 2] := by
  refine ⟨atMostLive_of_keys [7] (by decide) (by decide), fun hmap => ?_⟩
  exact absurd (hmap _ List.prefix_rfl 7) (by decide)

end MikanOs.Usb.ArrayMap
