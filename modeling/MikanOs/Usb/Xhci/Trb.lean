import MikanOs.Lib.BitField

/-!
# MikanOs.Usb.Xhci.Trb

Transfer request blocks (`usb/xhci/trb.hpp`): 16-byte blocks that driver and
controller exchange through rings in memory.  The unions of the source are
views of the same 128 bits, so a TRB is a `BitVec 128` and each view is a
family of `BitField`s; `data` is the view as four 32-bit words, which are
what the driver stores.

Only the fields the driver reads or writes are listed.
-/

namespace MikanOs.Usb.Xhci

/-- A TRB: `std::array<uint32_t, 4>`, word 0 in the low bits. -/
abbrev Trb := BitVec 128

/-! ## all TRBs -/

namespace TRB

/-- `data[j]`. -/
def data (j : Fin 4) : BitField 128 32 := ⟨32 * j, by omega⟩

def cycleBit : BitField 128 1 := ⟨96, by decide⟩
def trbType : BitField 128 6 := ⟨106, by decide⟩

/-- The cycle bit within `data[3]`. -/
def cycleBitOfWord : BitField 32 1 := .lowest (by decide)

/-- A TRB of the given type, zero elsewhere. -/
def ofType (type : BitVec 6) : Trb := trbType.put 0#128 type

/-- The part of a TRB that is not its cycle bit. -/
def body (t : Trb) : Trb := cycleBit.put t 0#1

/-- A TRB with its cycle bit set to a cycle state. -/
def withCycle (t : Trb) (c : Bool) : Trb := cycleBit.put t (BitVec.ofBool c)

/-- The cycle bit as a truth value. -/
def cycle (t : Trb) : Bool := cycleBit.get t == 1#1

end TRB

/-! ## transfer TRBs -/

namespace NormalTRB

def type : BitVec 6 := 1#6
def dataBufferPointer : BitField 128 64 := ⟨0, by decide⟩
def trbTransferLength : BitField 128 17 := ⟨64, by decide⟩
def interruptOnShortPacket : BitField 128 1 := ⟨98, by decide⟩
def interruptOnCompletion : BitField 128 1 := ⟨101, by decide⟩

/-- `NormalTRB()`. -/
def new : Trb := TRB.ofType type

end NormalTRB

namespace SetupStageTRB

def type : BitVec 6 := 2#6
def kNoDataStage : BitVec 2 := 0#2
def kOutDataStage : BitVec 2 := 2#2
def kInDataStage : BitVec 2 := 3#2
def requestType : BitField 128 8 := ⟨0, by decide⟩
def request : BitField 128 8 := ⟨8, by decide⟩
def value : BitField 128 16 := ⟨16, by decide⟩
def index : BitField 128 16 := ⟨32, by decide⟩
def length : BitField 128 16 := ⟨48, by decide⟩
def trbTransferLength : BitField 128 17 := ⟨64, by decide⟩
def interruptOnCompletion : BitField 128 1 := ⟨101, by decide⟩
def immediateData : BitField 128 1 := ⟨102, by decide⟩
def transferType : BitField 128 2 := ⟨112, by decide⟩

/-- `SetupStageTRB()`. -/
def new : Trb :=
  trbTransferLength.put (immediateData.put (TRB.ofType type) 1#1) 8#17

end SetupStageTRB

namespace DataStageTRB

def type : BitVec 6 := 3#6
def dataBufferPointer : BitField 128 64 := ⟨0, by decide⟩
def trbTransferLength : BitField 128 17 := ⟨64, by decide⟩
def tdSize : BitField 128 5 := ⟨81, by decide⟩
def interruptOnCompletion : BitField 128 1 := ⟨101, by decide⟩
def direction : BitField 128 1 := ⟨112, by decide⟩

/-- `DataStageTRB()`. -/
def new : Trb := TRB.ofType type

end DataStageTRB

namespace StatusStageTRB

def type : BitVec 6 := 4#6
def interruptOnCompletion : BitField 128 1 := ⟨101, by decide⟩
def direction : BitField 128 1 := ⟨112, by decide⟩

/-- `StatusStageTRB()`. -/
def new : Trb := TRB.ofType type

end StatusStageTRB

namespace LinkTRB

def type : BitVec 6 := 6#6
def ringSegmentPointer : BitField 128 60 := ⟨4, by decide⟩
def toggleCycle : BitField 128 1 := ⟨97, by decide⟩

/-- `LinkTRB(ring_segment_pointer)`. -/
def new (p : BitVec 64) : Trb :=
  ringSegmentPointer.put (TRB.ofType type) ((p >>> 4).setWidth 60)

/-- `Pointer()`. -/
def pointer (t : Trb) : BitVec 64 := (ringSegmentPointer.get t).setWidth 64 <<< 4

end LinkTRB

/-! ## command TRBs -/

namespace EnableSlotCommandTRB

def type : BitVec 6 := 9#6

/-- `EnableSlotCommandTRB()`. -/
def new : Trb := TRB.ofType type

end EnableSlotCommandTRB

namespace AddressDeviceCommandTRB

def type : BitVec 6 := 11#6
def inputContextPointer : BitField 128 60 := ⟨4, by decide⟩
def slotId : BitField 128 8 := ⟨120, by decide⟩

/-- `AddressDeviceCommandTRB(input_context, slot_id)`. -/
def new (inputContext : BitVec 64) (slot : BitVec 8) : Trb :=
  inputContextPointer.put (slotId.put (TRB.ofType type) slot) ((inputContext >>> 4).setWidth 60)

end AddressDeviceCommandTRB

namespace ConfigureEndpointCommandTRB

def type : BitVec 6 := 12#6
def inputContextPointer : BitField 128 60 := ⟨4, by decide⟩
def slotId : BitField 128 8 := ⟨120, by decide⟩

/-- `ConfigureEndpointCommandTRB(input_context, slot_id)`. -/
def new (inputContext : BitVec 64) (slot : BitVec 8) : Trb :=
  inputContextPointer.put (slotId.put (TRB.ofType type) slot) ((inputContext >>> 4).setWidth 60)

end ConfigureEndpointCommandTRB

/-! ## event TRBs -/

namespace TransferEventTRB

def type : BitVec 6 := 32#6
def trbPointer : BitField 128 64 := ⟨0, by decide⟩
def trbTransferLength : BitField 128 24 := ⟨64, by decide⟩
def completionCode : BitField 128 8 := ⟨88, by decide⟩
def eventData : BitField 128 1 := ⟨98, by decide⟩
def endpointId : BitField 128 5 := ⟨112, by decide⟩
def slotId : BitField 128 8 := ⟨120, by decide⟩

/-- `Pointer()`. -/
def pointer (t : Trb) : BitVec 64 := trbPointer.get t

end TransferEventTRB

namespace CommandCompletionEventTRB

def type : BitVec 6 := 33#6
def commandTrbPointer : BitField 128 60 := ⟨4, by decide⟩
def completionCode : BitField 128 8 := ⟨88, by decide⟩
def slotId : BitField 128 8 := ⟨120, by decide⟩

/-- `Pointer()`. -/
def pointer (t : Trb) : BitVec 64 := (commandTrbPointer.get t).setWidth 64 <<< 4

end CommandCompletionEventTRB

namespace PortStatusChangeEventTRB

def type : BitVec 6 := 34#6
def portId : BitField 128 8 := ⟨24, by decide⟩

end PortStatusChangeEventTRB

/-! ## cycle bit and words -/

namespace TRB

@[simp] theorem cycle_withCycle (t : Trb) (c : Bool) : cycle (withCycle t c) = c := by
  cases c <;> simp [cycle, withCycle]

@[simp] theorem body_withCycle (t : Trb) (c : Bool) : body (withCycle t c) = body t := by
  simp [body, withCycle]

/-- A field other than the cycle bit is a field of the body. -/
theorem get_body {f : BitField 128 len} (h : f.Disjoint cycleBit) (t : Trb) :
    f.get (body t) = f.get t :=
  BitField.get_put_of_disjoint h _ _

/-- A field other than the cycle bit depends on the body only. -/
theorem get_eq_of_body_eq {f : BitField 128 len} (h : f.Disjoint cycleBit) {s t : Trb}
    (hb : body s = body t) : f.get s = f.get t := by
  rw [← get_body h s, hb, get_body h]

/-- A TRB is its four words. -/
theorem ext_data {s t : Trb} (h : ∀ j, (data j).get s = (data j).get t) : s = t := by
  apply BitVec.eq_of_getLsbD_eq
  intro i hi
  have hword := congrArg (fun w => w.getLsbD (i % 32)) (h ⟨i / 32, by omega⟩)
  simp only [BitField.getLsbD_get, data] at hword
  have hlt : i % 32 < 32 := Nat.mod_lt _ (by decide)
  have hidx : 32 * (i / 32) + i % 32 = i := Nat.div_add_mod i 32
  simpa [hlt, hidx] using hword

/-- The words other than the last do not contain the cycle bit. -/
theorem data_disjoint_cycleBit {j : Fin 4} (h : j ≠ 3) : (data j).Disjoint cycleBit := by
  unfold BitField.Disjoint data cycleBit
  have hne : j.val ≠ 3 := fun hj => h (Fin.ext hj)
  simp only
  omega

/-- Distinct words share no bit. -/
theorem data_disjoint {i j : Fin 4} (h : i ≠ j) : (data i).Disjoint (data j) := by
  unfold BitField.Disjoint data
  have hne : i.val ≠ j.val := fun hij => h (Fin.ext hij)
  simp only
  omega

/-- The cycle bit is the lowest bit of the last word. -/
theorem cycleBit_get_eq (t : Trb) : cycleBit.get t = cycleBitOfWord.get ((data 3).get t) :=
  (BitField.get_get cycleBit (data 3) cycleBitOfWord rfl t).symm

end TRB

end MikanOs.Usb.Xhci
