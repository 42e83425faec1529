import MikanOs.Usb.Xhci.Device

/-!
# MikanOs.Usb.Xhci.DeviceManager

The device table (`usb/xhci/devmgr.cpp`): for each slot the device object
and the address of its device context, the latter in the array the
controller reads (`DCBAAP`).  Both arrays have `max_slots + 1` entries.
-/

namespace MikanOs.Usb.Xhci

/-- `class DeviceManager`. -/
structure DeviceManager where
  maxSlots : Nat
  devices : BitVec 8 → Option Device
  deviceContextPointers : BitVec 8 → BitVec 64

namespace DeviceManager

/-- The tables as `Initialize` clears them. -/
def empty (maxSlots : Nat) : DeviceManager := ⟨maxSlots, fun _ => none, fun _ => 0#64⟩

/-- `FindBySlot`. -/
def findBySlot (m : DeviceManager) (slotId : BitVec 8) : Option Device :=
  if m.maxSlots < slotId.toNat then none else m.devices slotId

/-- Write back the object in a slot. -/
def set (m : DeviceManager) (slotId : BitVec 8) (dev : Device) : DeviceManager :=
  { m with devices := update m.devices slotId (some dev) }

/-- `AllocDevice`: the error, the tables and the host. -/
def allocDevice (env : Env) (h : Host) (m : DeviceManager) (slotId dbreg : BitVec 8) :
    Except Fault (Error × DeviceManager × Host) :=
  if m.maxSlots < slotId.toNat then pure (.kInvalidSlotID, m, h)
  else
    match m.devices slotId with
    | some _ => pure (.kAlreadyAllocated, m, h)
    | none =>
        let a := h.allocArray env Device.sizeofDevice 1 64#32 4096#32
        -- the constructor runs on whatever address this is
        if a.1 = 0#64 then throw .nullPointer
        else pure (.kSuccess, m.set slotId (Device.new a.1 slotId dbreg), a.2)

/-- `LoadDCBAA`. -/
def loadDCBAA (m : DeviceManager) (slotId : BitVec 8) : Except Fault (Error × DeviceManager) :=
  if m.maxSlots < slotId.toNat then pure (.kInvalidSlotID, m)
  else
    match m.devices slotId with
    | none => throw .nullPointer
    | some dev =>
        pure (.kSuccess, { m with
          deviceContextPointers := update m.deviceContextPointers slotId dev.deviceContext })

/-- `Remove`: the first of the two writes is made before anything is looked
at. -/
def remove (m : DeviceManager) (slotId : BitVec 8) : Except Fault (Error × DeviceManager) :=
  if m.maxSlots < slotId.toNat then throw .outOfBounds
  else pure (.kSuccess, { m with
    deviceContextPointers := update m.deviceContextPointers slotId 0#64
    devices := update m.devices slotId none })

/-! ## slots -/

theorem findBySlot_of_le {m : DeviceManager} (h : slotId.toNat ≤ m.maxSlots) :
    m.findBySlot slotId = m.devices slotId := if_neg (Nat.not_lt_of_le h)

theorem le_of_findBySlot {m : DeviceManager} (h : m.findBySlot slotId = some dev) :
    slotId.toNat ≤ m.maxSlots ∧ m.devices slotId = some dev := by
  unfold findBySlot at h
  split at h
  · contradiction
  · next hslot => exact ⟨Nat.le_of_not_lt hslot, h⟩

@[simp] theorem set_devices_self (m : DeviceManager) (slotId : BitVec 8) (dev : Device) :
    (m.set slotId dev).devices slotId = some dev := update_self _ _ _

theorem findBySlot_set {m : DeviceManager} (h : slotId.toNat ≤ m.maxSlots) (dev : Device) :
    (m.set slotId dev).findBySlot slotId = some dev :=
  (findBySlot_of_le (m := m.set slotId dev) h).trans (set_devices_self m slotId dev)

theorem set_set (m : DeviceManager) (slotId : BitVec 8) (d d' : Device) :
    (m.set slotId d).set slotId d' = m.set slotId d' := by
  unfold set
  rw [update_update]

/-- Writing back the object that is there. -/
theorem set_eq_self {m : DeviceManager} (h : m.devices slotId = some dev) :
    m.set slotId dev = m := by
  unfold set
  rw [← h, update_eq_self]

theorem allocDevice_of_lt {m : DeviceManager} (h : m.maxSlots < slotId.toNat) (env : Env)
    (host : Host) (dbreg : BitVec 8) :
    m.allocDevice env host slotId dbreg = .ok (.kInvalidSlotID, m, host) := if_pos h

/-- `AllocDevice` of a slot that has a device. -/
theorem allocDevice_of_some {m : DeviceManager} (h : slotId.toNat ≤ m.maxSlots)
    (taken : m.devices slotId = some dev) (env : Env) (host : Host) (dbreg : BitVec 8) :
    m.allocDevice env host slotId dbreg = .ok (.kAlreadyAllocated, m, host) := by
  unfold allocDevice
  rw [if_neg (Nat.not_lt_of_le h), taken]
  rfl

/-- `AllocDevice` leaves a device in every slot there is. -/
theorem allocDevice_ok {m m' : DeviceManager} {h h' : Host}
    (ret : m.allocDevice env h slotId dbreg = .ok (err, m', h')) :
    (m.maxSlots < slotId.toNat ∧ m' = m ∧ h' = h) ∨
      (slotId.toNat ≤ m.maxSlots ∧ ∃ dev, m' = m.set slotId dev) := by
  unfold allocDevice at ret
  split at ret
  · next hbeyond =>
    obtain ⟨rfl, hret⟩ := Returns.pure_mk_eq_ok.mp ret
    obtain ⟨rfl, rfl⟩ := Prod.mk.inj hret
    exact .inl ⟨hbeyond, rfl, rfl⟩
  · next hslot =>
    refine .inr ⟨Nat.le_of_not_lt hslot, ?_⟩
    cases hdev : m.devices slotId with
    | some dev =>
        rw [hdev] at ret
        obtain ⟨_, hret⟩ := Returns.pure_mk_eq_ok.mp ret
        obtain ⟨rfl, _⟩ := Prod.mk.inj hret
        exact ⟨dev, (set_eq_self hdev).symm⟩
    | none =>
        rw [hdev] at ret
        simp only at ret
        split at ret
        · exact absurd ret Returns.throw_ne_ok
        · obtain ⟨_, hret⟩ := Returns.pure_mk_eq_ok.mp ret
          exact ⟨_, (Prod.mk.inj hret).1.symm⟩

theorem loadDCBAA_of_lt {m : DeviceManager} (h : m.maxSlots < slotId.toNat) :
    m.loadDCBAA slotId = .ok (.kInvalidSlotID, m) := if_pos h

/-- `LoadDCBAA` of a slot that has no device. -/
theorem loadDCBAA_of_none {m : DeviceManager} (h : slotId.toNat ≤ m.maxSlots)
    (free : m.devices slotId = none) : m.loadDCBAA slotId = .error .nullPointer := by
  unfold loadDCBAA
  rw [if_neg (Nat.not_lt_of_le h), free]
  rfl

/-- The tables with a device in a slot and its context in the array. -/
def load (m : DeviceManager) (slotId : BitVec 8) (dev : Device) : DeviceManager :=
  { m.set slotId dev with
    deviceContextPointers := update m.deviceContextPointers slotId dev.deviceContext }

@[simp] theorem load_devices_self (m : DeviceManager) (slotId : BitVec 8) (dev : Device) :
    (m.load slotId dev).devices slotId = some dev := update_self _ _ _

@[simp] theorem load_pointers_self (m : DeviceManager) (slotId : BitVec 8) (dev : Device) :
    (m.load slotId dev).deviceContextPointers slotId = dev.deviceContext := update_self _ _ _

theorem load_set (m : DeviceManager) (slotId : BitVec 8) (d d' : Device) :
    (m.set slotId d).load slotId d' = m.load slotId d' := by
  unfold load
  rw [set_set]
  rfl

/-- `LoadDCBAA` of a slot that has a device. -/
theorem loadDCBAA_set {m : DeviceManager} (h : slotId.toNat ≤ m.maxSlots) (dev : Device) :
    (m.set slotId dev).loadDCBAA slotId = .ok (.kSuccess, m.load slotId dev) := by
  have hslot : ¬ (m.set slotId dev).maxSlots < slotId.toNat := Nat.not_lt_of_le h
  unfold loadDCBAA
  rw [if_neg hslot, set_devices_self]
  rfl

theorem loadDCBAA_of_some {m : DeviceManager} (h : slotId.toNat ≤ m.maxSlots)
    (taken : m.devices slotId = some dev) :
    m.loadDCBAA slotId = .ok (.kSuccess, m.load slotId dev) := by
  have hload := loadDCBAA_set h dev
  rwa [set_eq_self taken] at hload

end DeviceManager

end MikanOs.Usb.Xhci
