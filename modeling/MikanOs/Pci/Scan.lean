import MikanOs.Error
import MikanOs.Lib.DepthFirst
import MikanOs.Pci.ConfigSpace

/-!
# MikanOs.Pci.Scan

The scan for PCI functions (`pci.cpp`).  `ScanBus`, `ScanDevice` and
`ScanFunction` call one another, with bus numbers that come from the bridges
found, and nothing keeps a bus from being scanned from within itself.  What
ends the recursion is the table: each function takes up an entry before its
secondary bus is scanned, and the table has 32.

The model follows the text and takes the calls of `ScanBus` one level of
bridges at a time.  The order of the functions is that of a depth-first walk
of the buses (`visited`), which may well go on forever; `scanAllBus_visited`
says that the table is filled with the beginning of it.
-/

namespace MikanOs.Pci

/-- `struct Device`. -/
structure Device where
  bus : BitVec 8
  device : BitVec 8
  function : BitVec 8
  headerType : BitVec 8
  classCode : ClassCode
  deriving DecidableEq, Repr

/-- `devices` and `num_device`. -/
structure Table where
  devices : Vector Device 32
  numDevice : Nat

namespace Table

/-- `devices[0..num_device)`. -/
def stored (t : Table) : List Device := t.devices.toList.take t.numDevice

theorem length_stored {t : Table} (h : t.numDevice ≤ 32) : t.stored.length = t.numDevice := by
  rw [stored, List.length_take, Vector.length_toList]
  exact Nat.min_eq_left h

end Table

/-! ## the code -/

/-- A function that works on the table and returns an error. -/
abbrev Scan := Table → Except Fault (Error × Table)

namespace Scan

/-- `return MAKE_ERROR(Error::kSuccess)`. -/
def success : Scan := fun t => pure (.kSuccess, t)

/-- `if (auto err = first) { return err; }`, and on with `next`. -/
def andThen (first next : Scan) : Scan := fun t => do
  let (err, t) ← first t
  if err = .kSuccess then next t else pure (err, t)

/-- A loop that skips what is not `present`. -/
def forEach (present : BitVec 8 → Bool) (body : BitVec 8 → Scan) : List (BitVec 8) → Scan
  | [] => success
  | i :: is =>
      if present i then (body i).andThen (forEach present body is) else forEach present body is

end Scan

/-- The numbers from `first` up to but not including `last`. -/
def numbers (first last : Nat) : List (BitVec 8) :=
  ((List.range last).drop first).map (BitVec.ofNat 8)

/-- `AddDevice`. -/
def addDevice (device : Device) : Scan := fun t =>
  if t.numDevice = t.devices.size then pure (.kFull, t)
  else if h : t.numDevice < 32 then
    pure (.kSuccess,
      { devices := t.devices.set t.numDevice device, numDevice := t.numDevice + 1 })
  else throw .outOfBounds

section

variable (cs : ConfigSpace)

/-- A function answers with a vendor id. -/
def present (bus device function : BitVec 8) : Bool :=
  readVendorId cs bus device function ≠ 0xffff#16

/-- The bus behind a bridge. -/
def secondaryBus (bus device function : BitVec 8) : BitVec 8 :=
  (readBusNumbers cs bus device function >>> 8).setWidth 8

/-- `ScanFunction`. -/
def scanFunction (scanBus : BitVec 8 → Scan) (bus device function : BitVec 8) : Scan :=
  let classCode := readClassCode cs bus device function
  let headerType := readHeaderType cs bus device function
  (addDevice ⟨bus, device, function, headerType, classCode⟩).andThen
    (if classCode.matches 0x06#8 0x04#8 then scanBus (secondaryBus cs bus device function)
    else .success)

/-- `ScanDevice`. -/
def scanDevice (scanBus : BitVec 8 → Scan) (bus device : BitVec 8) : Scan :=
  (scanFunction cs scanBus bus device 0#8).andThen
    (if isSingleFunctionDevice (readHeaderType cs bus device 0#8) then .success
    else .forEach (present cs bus device) (scanFunction cs scanBus bus device) (numbers 1 8))

/-- `ScanBus`, with up to `n - 1` calls of itself on the stack. -/
def scanBus : Nat → BitVec 8 → Scan
  | 0, _ => fun _ => throw .endless
  | n + 1, bus =>
      .forEach (present cs bus · 0#8) (scanDevice cs (scanBus n) bus) (numbers 0 32)

/-- `ScanAllBus`. -/
def scanAllBus (n : Nat) : Scan := fun t =>
  let t := { t with numDevice := 0 }
  if isSingleFunctionDevice (readHeaderType cs 0#8 0#8 0#8) then scanBus cs n 0#8 t
  else Scan.forEach (present cs 0#8 0#8) (scanBus cs n) (numbers 0 8) t

/-! ## the walk -/

/-- Where a function is. -/
structure Location where
  bus : BitVec 8
  device : BitVec 8
  function : BitVec 8
  deriving DecidableEq, Repr

/-- The functions of a device whose function 0 is present. -/
def functionsOfDevice (bus device : BitVec 8) : List Location :=
  ⟨bus, device, 0#8⟩ ::
    if isSingleFunctionDevice (readHeaderType cs bus device 0#8) then []
    else ((numbers 1 8).filter (present cs bus device)).map (⟨bus, device, ·⟩)

/-- The functions of a bus. -/
def functionsOfBus (bus : BitVec 8) : List Location :=
  ((numbers 0 32).filter (present cs bus · 0#8)).flatMap (functionsOfDevice cs bus)

/-- The buses no bridge leads to. -/
def rootBuses : List (BitVec 8) :=
  if isSingleFunctionDevice (readHeaderType cs 0#8 0#8 0#8) then [0#8]
  else (numbers 0 8).filter (present cs 0#8 0#8)

/-- What a function brings into the walk: a bridge, its secondary bus. -/
def behind (l : Location) : List Location :=
  if (readClassCode cs l.bus l.device l.function).matches 0x06#8 0x04#8 then
    functionsOfBus cs (secondaryBus cs l.bus l.device l.function)
  else []

/-- The entry for a function. -/
def deviceAt (l : Location) : Device where
  bus := l.bus
  device := l.device
  function := l.function
  headerType := readHeaderType cs l.bus l.device l.function
  classCode := readClassCode cs l.bus l.device l.function

/-- The `k`-th function of the depth-first walk of the root buses. -/
def visited (k : Nat) : Option Location :=
  DepthFirst.visited (behind cs) ((rootBuses cs).flatMap (functionsOfBus cs)) k

/-! ## what a scan does -/

/-- Filling the table from `t` with a walk of `xs` ends with `err` and `t'`:
it visits everything, or the table is full and there is more to visit. -/
structure Filled (xs : List Location) (t : Table) (err : Error) (t' : Table) : Prop where
  bound : t'.numDevice ≤ 32
  visits : ∃ out left, DepthFirst.Visits (behind cs) xs out left ∧
    t'.stored = t.stored ++ out.map (deviceAt cs) ∧
    ((err = .kSuccess ∧ left = []) ∨ (err = .kFull ∧ t'.numDevice = 32 ∧ left ≠ []))

/-- A scan of `xs` that has room for `n` levels of bridges, as many as the
table has entries left. -/
def Covers (n : Nat) (scan : Scan) (xs : List Location) : Prop :=
  ∀ t : Table, t.numDevice ≤ 32 → 32 < t.numDevice + n →
    ∃ err t', scan t = .ok (err, t') ∧ Filled cs xs t err t'

end

variable {cs : ConfigSpace} {n : Nat} {xs ys : List Location} {scan next : Scan}

/-- No scan removes an entry. -/
theorem Filled.le {t t' : Table} (h : Filled cs xs t err t') (ht : t.numDevice ≤ 32) :
    t.numDevice ≤ t'.numDevice := by
  obtain ⟨out, left, _, hstored, _⟩ := h.visits
  have hlength := congrArg List.length hstored
  rw [Table.length_stored h.bound, List.length_append, Table.length_stored ht] at hlength
  omega

theorem covers_success : Covers cs n .success [] := by
  intro t ht _
  refine ⟨.kSuccess, t, rfl, ht, [], [], .done _, ?_, .inl ⟨rfl, rfl⟩⟩
  rw [List.map_nil, List.append_nil]

/-- One scan after another, unless the first has filled the table. -/
theorem Covers.andThen (h : Covers cs n scan xs) (h' : Covers cs n next ys) :
    Covers cs n (scan.andThen next) (xs ++ ys) := by
  intro t ht hn
  obtain ⟨err, t₁, hscan, hfilled⟩ := h t ht hn
  have hle := hfilled.le ht
  obtain ⟨out, left, hvisits, hstored, hend⟩ := hfilled.visits
  unfold Scan.andThen
  rw [hscan]
  show ∃ err' t', (if err = .kSuccess then next t₁ else pure (err, t₁)) = _ ∧ _
  cases hend with
  | inl hdone =>
      obtain ⟨rfl, rfl⟩ := hdone
      rw [if_pos rfl]
      obtain ⟨err', t₂, hnext, hfilled'⟩ := h' t₁ hfilled.bound (by omega)
      obtain ⟨out', left', hvisits', hstored', hend'⟩ := hfilled'.visits
      refine ⟨err', t₂, hnext, hfilled'.bound, out ++ out', left',
        hvisits.append_finished hvisits', ?_, hend'⟩
      rw [hstored', hstored, List.append_assoc, List.map_append]
  | inr hfull =>
      obtain ⟨rfl, hnum, hleft⟩ := hfull
      rw [if_neg (by decide)]
      refine ⟨.kFull, t₁, rfl, hfilled.bound, out, left ++ ys, hvisits.append ys, hstored,
        .inr ⟨rfl, hnum, ?_⟩⟩
      simp [hleft]

/-- A loop covers what its rounds cover. -/
theorem covers_forEach {present : BitVec 8 → Bool} {body : BitVec 8 → Scan}
    {functions : BitVec 8 → List Location} (h : ∀ i, Covers cs n (body i) (functions i))
    (is : List (BitVec 8)) :
    Covers cs n (.forEach present body is) ((is.filter present).flatMap functions) := by
  induction is with
  | nil => exact covers_success
  | cons i is ih =>
      unfold Scan.forEach
      by_cases hi : present i = true
      · rw [if_pos hi, List.filter_cons_of_pos hi, List.flatMap_cons]
        exact (h i).andThen ih
      · rw [if_neg hi, List.filter_cons_of_neg hi]
        exact ih

/-! ## the scan functions -/

/-- `AddDevice` with an entry free. -/
theorem addDevice_of_lt {t : Table} (h : t.numDevice < 32) (device : Device) :
    ∃ t', addDevice device t = .ok (.kSuccess, t') ∧ t'.numDevice = t.numDevice + 1 ∧
      t'.stored = t.stored ++ [device] := by
  unfold addDevice
  rw [if_neg (by rw [Vector.size]; omega), dif_pos h]
  refine ⟨_, rfl, rfl, ?_⟩
  have hlength : t.numDevice < t.devices.toList.length := by rw [Vector.length_toList]; exact h
  rw [Table.stored, Table.stored, Vector.toList_set, List.take_add_one, List.take_set_of_le]
  · rw [List.getElem?_set_self hlength]
    rfl
  · exact Nat.le_refl _

/-- `AddDevice` with the table full. -/
theorem addDevice_of_full {t : Table} (h : t.numDevice = 32) (device : Device) :
    addDevice device t = .ok (.kFull, t) := if_pos h

/-- `ScanFunction` takes up an entry, and may then go one level deeper. -/
theorem covers_scanFunction {scanBus : BitVec 8 → Scan}
    (h : ∀ bus, Covers cs n (scanBus bus) (functionsOfBus cs bus))
    (bus device function : BitVec 8) :
    Covers cs (n + 1) (scanFunction cs scanBus bus device function) [⟨bus, device, function⟩] := by
  intro t ht hn
  unfold scanFunction Scan.andThen
  by_cases hroom : t.numDevice < 32
  · obtain ⟨t₁, hadd, hnum, hstored⟩ := addDevice_of_lt hroom (deviceAt cs ⟨bus, device, function⟩)
    have hbehind : Covers cs n
        (if (readClassCode cs bus device function).matches 0x06#8 0x04#8 then
          scanBus (secondaryBus cs bus device function) else .success)
        (behind cs ⟨bus, device, function⟩) := by
      unfold behind
      split
      · exact h _
      · exact covers_success
    obtain ⟨err, t₂, hscan, hfilled⟩ := hbehind t₁ (by omega) (by omega)
    obtain ⟨out, left, hvisits, hstored', hend⟩ := hfilled.visits
    refine ⟨err, t₂, ?_, hfilled.bound, ⟨bus, device, function⟩ :: out, left, .visit ?_, ?_, hend⟩
    · exact Returns.bind_eq_ok.mpr ⟨_, hadd, hscan⟩
    · rw [List.append_nil]
      exact hvisits
    · rw [hstored', hstored, List.append_assoc, List.map_cons, List.singleton_append]
  · have hfull : t.numDevice = 32 := by omega
    refine ⟨.kFull, t, ?_, ht, [], [⟨bus, device, function⟩], .done _, ?_, .inr ⟨rfl, hfull, ?_⟩⟩
    · exact Returns.bind_eq_ok.mpr ⟨_, addDevice_of_full hfull _, rfl⟩
    · rw [List.map_nil, List.append_nil]
    · exact List.cons_ne_nil _ _

theorem covers_scanDevice {scanBus : BitVec 8 → Scan}
    (h : ∀ bus, Covers cs n (scanBus bus) (functionsOfBus cs bus)) (bus device : BitVec 8) :
    Covers cs (n + 1) (scanDevice cs scanBus bus device) (functionsOfDevice cs bus device) := by
  have hothers : Covers cs (n + 1)
      (if isSingleFunctionDevice (readHeaderType cs bus device 0#8) then .success
      else .forEach (present cs bus device) (scanFunction cs scanBus bus device) (numbers 1 8))
      (if isSingleFunctionDevice (readHeaderType cs bus device 0#8) then []
      else ((numbers 1 8).filter (present cs bus device)).map (⟨bus, device, ·⟩)) := by
    split
    · exact covers_success
    · rw [List.map_eq_flatMap]
      exact covers_forEach (covers_scanFunction h bus device) _
  exact (covers_scanFunction h bus device 0#8).andThen hothers

/-- `ScanBus` visits the functions of its bus, as many levels of bridges deep
as the table has entries left. -/
theorem covers_scanBus (n : Nat) (bus : BitVec 8) :
    Covers cs n (scanBus cs n bus) (functionsOfBus cs bus) := by
  induction n generalizing bus with
  | zero =>
      intro t ht hn
      omega
  | succ n ih => exact covers_forEach (covers_scanDevice ih bus) _

/-- `ScanAllBus` visits the functions of the root buses. -/
theorem covers_roots (n : Nat) :
    Covers cs n
      (if isSingleFunctionDevice (readHeaderType cs 0#8 0#8 0#8) then scanBus cs n 0#8
      else .forEach (present cs 0#8 0#8) (scanBus cs n) (numbers 0 8))
      ((rootBuses cs).flatMap (functionsOfBus cs)) := by
  unfold rootBuses
  split
  · rw [List.flatMap_singleton]
    exact covers_scanBus n 0#8
  · exact covers_forEach (covers_scanBus n) _

/-- An entry in use, in the table and in the list. -/
theorem Table.getElem?_stored {t : Table} {k : Nat} (h : k < t.numDevice) :
    t.stored[k]? = t.devices[k]? := by
  rw [stored, List.getElem?_take_of_lt h, Vector.getElem?_toList]

/-- `ScanAllBus` returns, and leaves the table filled with a walk of the root
buses. -/
theorem scanAllBus_filled (cs : ConfigSpace) {n : Nat} (h : 33 ≤ n) (t : Table) :
    ∃ err t', scanAllBus cs n t = .ok (err, t') ∧
      Filled cs ((rootBuses cs).flatMap (functionsOfBus cs)) { t with numDevice := 0 } err t' := by
  have hcovers : Covers cs n _ _ := covers_roots n
  obtain ⟨err, t', hscan, hfilled⟩ :=
    hcovers { t with numDevice := 0 } (Nat.zero_le _) (by show 32 < 0 + n; omega)
  refine ⟨err, t', ?_, hfilled⟩
  rw [← hscan, scanAllBus]
  split <;> rfl

/-- **The scan ends and fills the table with the walk.**  Whatever the bridges
say, `ScanAllBus` returns, with at most 32 entries in use; these are the first
functions of the walk, in its order.  It returns `kSuccess` when the walk ends
there, and `kFull` when the walk has a 33rd function. -/
theorem scanAllBus_visited (cs : ConfigSpace) (n : Nat) (h : 33 ≤ n) (t : Table) :
    ∃ err t', scanAllBus cs n t = .ok (err, t') ∧ t'.numDevice ≤ 32 ∧
      (∀ k < t'.numDevice, t'.devices[k]? = (visited cs k).map (deviceAt cs)) ∧
      (err = .kSuccess ∨ err = .kFull) ∧
      (err = .kSuccess ↔ visited cs t'.numDevice = none) ∧
      (err = .kFull ↔ (visited cs 32).isSome) := by
  obtain ⟨err, t', hscan, hfilled⟩ := scanAllBus_filled cs h t
  obtain ⟨out, left, hvisits, hstored, hend⟩ := hfilled.visits
  have hstored : t'.stored = out.map (deviceAt cs) := hstored
  have hnum : t'.numDevice = out.length := by
    rw [← Table.length_stored hfilled.bound, hstored, List.length_map]
  have hnext : visited cs t'.numDevice = left.head? := hnum ▸ hvisits.visited_length
  refine ⟨err, t', hscan, hfilled.bound, ?_, ?_⟩
  · intro k hk
    have hout : k < out.length := hnum ▸ hk
    rw [← Table.getElem?_stored hk, hstored, List.getElem?_map, List.getElem?_eq_getElem hout,
      visited, hvisits.visited_eq hout]
  · cases hend with
    | inl hdone =>
        obtain ⟨rfl, rfl⟩ := hdone
        have hends : visited cs t'.numDevice = none := hnext
        have hnone : visited cs 32 = none := DepthFirst.visited_eq_none_of_le hends hfilled.bound
        simp [hends, hnone]
    | inr hfull =>
        obtain ⟨rfl, h32, hleft⟩ := hfull
        have hmore : (visited cs 32).isSome = true := by
          rw [← h32, hnext, List.isSome_head?]
          simpa using hleft
        have hgoes : visited cs t'.numDevice ≠ none := by
          rw [h32]
          exact Option.isSome_iff_ne_none.mp hmore
        simp [hmore, hgoes]

/-- A machine whose only function is a bridge to its own bus. -/
def selfBridge : ConfigSpace := fun bus device function regAddr =>
  if bus = 0#8 ∧ device = 0#8 ∧ function = 0#8 then
    if regAddr = 0x08#8 then 0x06040000#32 else 0#32
  else 0xffffffff#32

/-- On such a machine the walk has no end, and the scan has. -/
theorem scanAllBus_selfBridge :
    ∃ err t', scanAllBus selfBridge 33 ⟨.replicate 32 ⟨0, 0, 0, 0, 0, 0, 0⟩, 0⟩ = .ok (err, t') ∧
      t'.numDevice ≤ 32 ∧
      (∀ k < t'.numDevice, t'.devices[k]? = (visited selfBridge k).map (deviceAt selfBridge)) ∧
      (err = .kSuccess ∨ err = .kFull) ∧
      (err = .kSuccess ↔ visited selfBridge t'.numDevice = none) ∧
      (err = .kFull ↔ (visited selfBridge 32).isSome) :=
  scanAllBus_visited selfBridge 33 (by decide) _

example : (visited selfBridge 32).isSome := by decide +kernel

end MikanOs.Pci
