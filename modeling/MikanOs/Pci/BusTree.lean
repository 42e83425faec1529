import Mathlib.Data.List.Perm.Subperm
import Mathlib.Data.List.Nodup
import MikanOs.Pci.Scan

/-!
# MikanOs.Pci.BusTree

What the scan finds on a machine that has been set up properly: the bridges
lead to buses of their own.  The buses then form a tree under the root buses,
and a bus is scanned once.

`scanAllBus_reachable` says that every function that can be reached is in the
table, once, and nothing else is.
-/

namespace MikanOs.Pci

variable (cs : ConfigSpace)

/-- A PCI-PCI bridge. -/
def IsBridge (l : Location) : Prop :=
  (readClassCode cs l.bus l.device l.function).matches 0x06#8 0x04#8 = true

/-- The bus behind it. -/
def Location.secondaryBus (l : Location) : BitVec 8 := Pci.secondaryBus cs l.bus l.device l.function

/-- The function is on a bus: function 0 of a device that is present, or
another function that is present, of a multi-function device. -/
structure OnBus (bus : BitVec 8) (l : Location) : Prop where
  number : l.bus = bus
  device_lt : l.device.toNat < 32
  function_lt : l.function.toNat < 8
  device_present : present cs bus l.device 0#8 = true
  other : l.function ≠ 0#8 →
    isSingleFunctionDevice (readHeaderType cs bus l.device 0#8) = false ∧
      present cs bus l.device l.function = true

/-- The buses that bridges lead to from the root buses. -/
inductive BusReached : BitVec 8 → Prop
  | root {bus : BitVec 8} (h : bus ∈ rootBuses cs) : BusReached bus
  | bridge {bus : BitVec 8} {l : Location} (h : BusReached bus) (on : OnBus cs bus l)
      (bridge : IsBridge cs l) : BusReached (l.secondaryBus cs)

/-- The functions on them. -/
def Reachable (l : Location) : Prop := ∃ bus, BusReached cs bus ∧ OnBus cs bus l

/-- Every bridge leads to a bus of its own. -/
structure Tree : Prop where
  distinct : ∀ l l', Reachable cs l → Reachable cs l' → IsBridge cs l → IsBridge cs l' →
    l.secondaryBus cs = l'.secondaryBus cs → l = l'
  not_root : ∀ l, Reachable cs l → IsBridge cs l → l.secondaryBus cs ∉ rootBuses cs

/-! ## the functions of a bus -/

/-- The numbers of a loop. -/
theorem mem_numbers {first last : Nat} (h : last ≤ 256) {i : BitVec 8} :
    i ∈ numbers first last ↔ first ≤ i.toNat ∧ i.toNat < last := by
  rw [numbers, List.mem_map]
  constructor
  · rintro ⟨k, hk, rfl⟩
    obtain ⟨j, hj, rfl⟩ := List.mem_iff_getElem.mp hk
    rw [List.length_drop, List.length_range] at hj
    rw [List.getElem_drop, List.getElem_range, BitVec.toNat_ofNat, Nat.mod_eq_of_lt (by omega)]
    omega
  · rintro ⟨hfirst, hlast⟩
    refine ⟨i.toNat, List.mem_iff_getElem.mpr ⟨i.toNat - first, ?_, ?_⟩, by simp⟩
    · rw [List.length_drop, List.length_range]
      omega
    · rw [List.getElem_drop, List.getElem_range]
      omega

theorem nodup_numbers {first last : Nat} (h : last ≤ 256) : (numbers first last).Nodup := by
  refine List.Nodup.map_on ?_ (List.nodup_range.sublist (List.drop_sublist _ _))
  intro a ha b hb hab
  have ha' := List.mem_range.mp (List.mem_of_mem_drop ha)
  have hb' := List.mem_range.mp (List.mem_of_mem_drop hb)
  have hnat := congrArg BitVec.toNat hab
  rwa [BitVec.toNat_ofNat, BitVec.toNat_ofNat, Nat.mod_eq_of_lt (by omega),
    Nat.mod_eq_of_lt (by omega)] at hnat

/-- Lists that bear the number they stand for do not meet. -/
theorem nodup_flatMap_of_key {α β : Type} (key : β → α) {f : α → List β} {l : List α}
    (hl : l.Nodup) (hkey : ∀ x, ∀ y ∈ f x, key y = x) (hf : ∀ x ∈ l, (f x).Nodup) :
    (l.flatMap f).Nodup := by
  refine List.nodup_flatMap.mpr ⟨hf, hl.imp ?_⟩
  intro a b hab y hya hyb
  exact hab ((hkey a y hya).symm.trans (hkey b y hyb))

variable {cs}

theorem mem_functionsOfDevice {bus device : BitVec 8} {l : Location} :
    l ∈ functionsOfDevice cs bus device ↔ l.bus = bus ∧ l.device = device ∧
      l.function.toNat < 8 ∧ (l.function ≠ 0#8 →
        isSingleFunctionDevice (readHeaderType cs bus device 0#8) = false ∧
          present cs bus device l.function = true) := by
  obtain ⟨lbus, ldevice, lfunction⟩ := l
  have hzero : lfunction ≠ 0#8 ↔ 1 ≤ lfunction.toNat := by
    rw [← BitVec.toNat_ne_iff_ne]
    exact Nat.pos_iff_ne_zero.symm
  have heq : lfunction = 0#8 → lfunction.toNat < 8 := by
    rintro rfl
    decide
  rw [functionsOfDevice, List.mem_cons, Location.mk.injEq]
  cases hsingle : isSingleFunctionDevice (readHeaderType cs bus device 0#8) with
  | true =>
      rw [if_pos rfl]
      constructor
      · rintro (⟨hbus, hdevice, hfirst⟩ | hnil)
        · exact ⟨hbus, hdevice, heq hfirst, fun h => absurd hfirst h⟩
        · exact absurd hnil List.not_mem_nil
      · rintro ⟨hbus, hdevice, _, hother⟩
        by_cases hfirst : lfunction = 0#8
        · exact .inl ⟨hbus, hdevice, hfirst⟩
        · exact absurd (hother hfirst).1 (by decide)
  | false =>
      rw [if_neg Bool.false_ne_true, List.mem_map]
      simp only [List.mem_filter, mem_numbers (show 8 ≤ 256 by decide), Location.mk.injEq]
      constructor
      · rintro (⟨hbus, hdevice, hfirst⟩ | ⟨function, ⟨hnumber, hpresent⟩, rfl, rfl, rfl⟩)
        · exact ⟨hbus, hdevice, heq hfirst, fun h => absurd hfirst h⟩
        · exact ⟨rfl, rfl, hnumber.2, fun _ => ⟨trivial, hpresent⟩⟩
      · rintro ⟨hbus, hdevice, hfunction, hother⟩
        by_cases hfirst : lfunction = 0#8
        · exact .inl ⟨hbus, hdevice, hfirst⟩
        · exact .inr ⟨lfunction, ⟨⟨hzero.mp hfirst, hfunction⟩, (hother hfirst).2⟩,
            hbus.symm, hdevice.symm, rfl⟩

/-- The functions the scan of a bus comes to are those on the bus. -/
theorem mem_functionsOfBus {bus : BitVec 8} {l : Location} :
    l ∈ functionsOfBus cs bus ↔ OnBus cs bus l := by
  rw [functionsOfBus, List.mem_flatMap]
  constructor
  · rintro ⟨device, hdevice, hl⟩
    obtain ⟨hnumber, hpresent⟩ := List.mem_filter.mp hdevice
    obtain ⟨hbus, rfl, hfunction, hother⟩ := mem_functionsOfDevice.mp hl
    exact ⟨hbus, ((mem_numbers (by decide)).mp hnumber).2, hfunction, hpresent, hother⟩
  · rintro ⟨hbus, hdevice, hfunction, hpresent, hother⟩
    refine ⟨l.device, List.mem_filter.mpr ⟨?_, hpresent⟩, ?_⟩
    · exact (mem_numbers (by decide)).mpr ⟨Nat.zero_le _, hdevice⟩
    · exact mem_functionsOfDevice.mpr ⟨hbus, rfl, hfunction, hother⟩

theorem nodup_functionsOfDevice (bus device : BitVec 8) :
    (functionsOfDevice cs bus device).Nodup := by
  unfold functionsOfDevice
  split
  · exact List.nodup_singleton _
  · refine List.nodup_cons.mpr ⟨?_, ?_⟩
    · intro h
      obtain ⟨f, hf, heq⟩ := List.mem_map.mp h
      have hnumber := (mem_numbers (by decide)).mp (List.mem_filter.mp hf).1
      rw [(Location.mk.injEq ..).mp heq |>.2.2] at hnumber
      exact absurd hnumber.1 (by decide)
    · refine List.Nodup.map ?_ ((nodup_numbers (by decide)).filter _)
      intro f f' heq
      exact ((Location.mk.injEq ..).mp heq).2.2

theorem nodup_functionsOfBus (bus : BitVec 8) : (functionsOfBus cs bus).Nodup :=
  nodup_flatMap_of_key Location.device ((nodup_numbers (by decide)).filter _)
    (fun _ _ h => (mem_functionsOfDevice.mp h).2.1) fun _ _ => nodup_functionsOfDevice _ _

theorem nodup_rootBuses : (rootBuses cs).Nodup := by
  unfold rootBuses
  split
  · exact List.nodup_singleton _
  · exact (nodup_numbers (by decide)).filter _

/-! ## the forest of functions -/

/-- The functions of the root buses. -/
def rootFunctions (cs : ConfigSpace) : List Location := (rootBuses cs).flatMap (functionsOfBus cs)

theorem mem_rootFunctions {l : Location} :
    l ∈ rootFunctions cs ↔ l.bus ∈ rootBuses cs ∧ OnBus cs l.bus l := by
  rw [rootFunctions, List.mem_flatMap]
  constructor
  · rintro ⟨bus, hroot, hl⟩
    have on := mem_functionsOfBus.mp hl
    obtain rfl := on.number
    exact ⟨hroot, on⟩
  · rintro ⟨hroot, on⟩
    exact ⟨l.bus, hroot, mem_functionsOfBus.mpr on⟩

/-- What is behind a function: if it is a bridge, what is on its bus. -/
theorem mem_behind {l l' : Location} :
    l' ∈ behind cs l ↔ IsBridge cs l ∧ OnBus cs (l.secondaryBus cs) l' := by
  unfold behind IsBridge Location.secondaryBus
  split
  · rename_i h
    rw [mem_functionsOfBus]
    exact ⟨fun on => ⟨h, on⟩, fun on => on.2⟩
  · rename_i h
    exact ⟨nofun, fun on => absurd on.1 h⟩

/-- What the walk reaches is what can be reached. -/
theorem reached_iff {l : Location} :
    DepthFirst.Reached (behind cs) (rootFunctions cs) l ↔ Reachable cs l := by
  constructor
  · intro h
    induction h with
    | root h =>
        obtain ⟨hroot, on⟩ := mem_rootFunctions.mp h
        exact ⟨_, .root hroot, on⟩
    | child _ h ih =>
        obtain ⟨bridge, on⟩ := mem_behind.mp h
        obtain ⟨bus, hbus, on'⟩ := ih
        exact ⟨_, .bridge hbus on' bridge, on⟩
  · rintro ⟨bus, hbus, on⟩
    induction hbus generalizing l with
    | root hroot =>
        obtain rfl := on.number
        exact .root (mem_rootFunctions.mpr ⟨hroot, on⟩)
    | bridge _ on' bridge ih => exact .child (ih on') (mem_behind.mpr ⟨bridge, on⟩)

/-- Where every bridge has a bus of its own, the functions form a forest. -/
theorem Tree.forest (tree : Tree cs) : DepthFirst.Forest (behind cs) (rootFunctions cs) where
  nodup_roots :=
    nodup_flatMap_of_key Location.bus nodup_rootBuses
      (fun _ _ h => (mem_functionsOfBus.mp h).number) fun _ _ => nodup_functionsOfBus _
  nodup_children l _ := by
    unfold behind
    split
    · exact nodup_functionsOfBus _
    · exact List.nodup_nil
  not_root l l' hl hl' hroot := by
    obtain ⟨bridge, on⟩ := mem_behind.mp hl'
    refine tree.not_root l (reached_iff.mp hl) bridge ?_
    rw [← on.number]
    exact (mem_rootFunctions.mp hroot).1
  parent l₁ l₂ l h₁ h₂ h₁' h₂' := by
    obtain ⟨bridge₁, on₁⟩ := mem_behind.mp h₁'
    obtain ⟨bridge₂, on₂⟩ := mem_behind.mp h₂'
    exact tree.distinct l₁ l₂ (reached_iff.mp h₁) (reached_iff.mp h₂) bridge₁ bridge₂
      (on₁.number.symm.trans on₂.number)

/-! ## the scan -/

/-- Functions in different places have different entries. -/
theorem deviceAt_injective : Function.Injective (deviceAt cs) := by
  rintro ⟨bus, device, function⟩ ⟨bus', device', function'⟩ h
  obtain ⟨rfl, rfl, rfl, _, _⟩ := (Device.mk.injEq ..).mp h
  rfl

/-- **The scan finds every function once.**  When every bridge leads to a bus
of its own, and there are no more than 32 functions to be reached,
`ScanAllBus` succeeds, and the table has an entry for each of them, no entry
twice and nothing else. -/
theorem scanAllBus_reachable (cs : ConfigSpace) (tree : Tree cs)
    (few : ∀ ls : List Location, ls.Nodup → (∀ l ∈ ls, Reachable cs l) → ls.length ≤ 32)
    (n : Nat) (h : 33 ≤ n) (t : Table) :
    ∃ t', scanAllBus cs n t = .ok (.kSuccess, t') ∧ t'.numDevice ≤ 32 ∧ t'.stored.Nodup ∧
      ∀ dev, dev ∈ t'.stored ↔ ∃ l, Reachable cs l ∧ dev = deviceAt cs l := by
  obtain ⟨err, t', hscan, hfilled⟩ := scanAllBus_filled cs h t
  obtain ⟨out, left, hvisits, hstored, hend⟩ := hfilled.visits
  have hstored : t'.stored = out.map (deviceAt cs) := hstored
  have hvisits : DepthFirst.Visits (behind cs) (rootFunctions cs) out left := hvisits
  have hnodup := hvisits.nodup tree.forest
  have hreached : ∀ l ∈ out ++ left, Reachable cs l :=
    fun l hl => reached_iff.mp (hvisits.reached l hl)
  cases hend with
  | inl hdone =>
      obtain ⟨rfl, rfl⟩ := hdone
      rw [List.append_nil] at hnodup hreached
      refine ⟨t', hscan, hfilled.bound, ?_, ?_⟩
      · rw [hstored]
        exact hnodup.map deviceAt_injective
      · intro dev
        rw [hstored, List.mem_map]
        constructor
        · rintro ⟨l, hl, rfl⟩
          exact ⟨l, hreached l hl, rfl⟩
        · rintro ⟨l, hl, rfl⟩
          exact ⟨l, hvisits.mem_of_reached (reached_iff.mpr hl), rfl⟩
  | inr hfull =>
      -- a full table and one function more are 33 functions
      obtain ⟨rfl, h32, hleft⟩ := hfull
      have hlength : out.length = 32 := by
        rw [← h32, ← Table.length_stored hfilled.bound, hstored, List.length_map]
      have hmore := few _ hnodup hreached
      rw [List.length_append, hlength] at hmore
      exact absurd (List.length_eq_zero_iff.mp (by omega)) hleft

/-- A host bridge and, as its second device, a bridge to bus 1, on which there
is a device of two functions. -/
def oneBridge : ConfigSpace := fun bus device function regAddr =>
  if bus = 0#8 ∧ device.toNat < 2 ∧ function = 0#8 then
    if device = 1#8 ∧ regAddr = 0x08#8 then 0x06040000#32
    else if regAddr = 0x18#8 then 0x00010100#32
    else 0#32
  else if bus = 1#8 ∧ device = 0#8 ∧ function.toNat < 2 then
    if regAddr = 0x0c#8 then 0x00800000#32 else 0#32
  else 0xffffffff#32

theorem functionsOfBus_oneBridge :
    functionsOfBus oneBridge 0#8 = [⟨0, 0, 0⟩, ⟨0, 1, 0⟩] ∧
      functionsOfBus oneBridge 1#8 = [⟨1, 0, 0⟩, ⟨1, 0, 1⟩] := by
  decide +kernel

theorem onBus_oneBridge {bus : BitVec 8} {l : Location} (hbus : bus = 0#8 ∨ bus = 1#8)
    (on : OnBus oneBridge bus l) :
    l ∈ [(⟨0, 0, 0⟩ : Location), ⟨0, 1, 0⟩, ⟨1, 0, 0⟩, ⟨1, 0, 1⟩] := by
  have hl := mem_functionsOfBus.mpr on
  rcases hbus with rfl | rfl
  · rw [functionsOfBus_oneBridge.1] at hl
    exact List.mem_append_left [⟨1, 0, 0⟩, ⟨1, 0, 1⟩] hl
  · rw [functionsOfBus_oneBridge.2] at hl
    exact List.mem_append_right [⟨0, 0, 0⟩, ⟨0, 1, 0⟩] hl

theorem isBridge_oneBridge {l : Location}
    (hl : l ∈ [(⟨0, 0, 0⟩ : Location), ⟨0, 1, 0⟩, ⟨1, 0, 0⟩, ⟨1, 0, 1⟩])
    (bridge : IsBridge oneBridge l) : l = ⟨0, 1, 0⟩ := by
  simp only [List.mem_cons, List.not_mem_nil, or_false] at hl
  rcases hl with rfl | rfl | rfl | rfl
  · exact absurd bridge (by unfold IsBridge; decide)
  · rfl
  · exact absurd bridge (by unfold IsBridge; decide)
  · exact absurd bridge (by unfold IsBridge; decide)

theorem reachable_oneBridge {l : Location} (hl : Reachable oneBridge l) :
    l ∈ [(⟨0, 0, 0⟩ : Location), ⟨0, 1, 0⟩, ⟨1, 0, 0⟩, ⟨1, 0, 1⟩] := by
  obtain ⟨bus, hbus, on⟩ := hl
  refine onBus_oneBridge ?_ on
  clear on
  induction hbus with
  | root h => exact .inl (List.mem_singleton.mp h)
  | bridge _ on bridge ih =>
      obtain rfl := isBridge_oneBridge (onBus_oneBridge ih on) bridge
      exact .inr (by decide)

/-- On such a machine the scan finds the four functions. -/
theorem scanAllBus_oneBridge :
    ∃ t', scanAllBus oneBridge 33 ⟨.replicate 32 ⟨0, 0, 0, 0, 0, 0, 0⟩, 0⟩ = .ok (.kSuccess, t') ∧
      t'.numDevice ≤ 32 ∧ t'.stored.Nodup ∧
      ∀ dev, dev ∈ t'.stored ↔ ∃ l, Reachable oneBridge l ∧ dev = deviceAt oneBridge l := by
  refine scanAllBus_reachable oneBridge ⟨?_, ?_⟩ ?_ 33 (by decide) _
  · intro l l' hl hl' bridge bridge' _
    rw [isBridge_oneBridge (reachable_oneBridge hl) bridge,
      isBridge_oneBridge (reachable_oneBridge hl') bridge']
  · intro l hl bridge
    rw [isBridge_oneBridge (reachable_oneBridge hl) bridge]
    decide
  · intro ls hnodup hls
    have hsub := List.subperm_of_subset hnodup fun l hl => reachable_oneBridge (hls l hl)
    exact Nat.le_trans hsub.length_le (by decide)

end MikanOs.Pci
