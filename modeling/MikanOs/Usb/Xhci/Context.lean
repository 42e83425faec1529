import MikanOs.Lib.BitField

/-!
# MikanOs.Usb.Xhci.Context

Slot, endpoint and input contexts (`usb/xhci/context.hpp`): 32-byte blocks
through which driver and controller describe a device to each other.  Only
the fields the driver reads or writes are listed.
-/

namespace MikanOs.Usb.Xhci

namespace SlotContext

def routeString : BitField 256 20 := ⟨0, by decide⟩
def speed : BitField 256 4 := ⟨20, by decide⟩
def contextEntries : BitField 256 5 := ⟨27, by decide⟩
def rootHubPortNum : BitField 256 8 := ⟨48, by decide⟩

end SlotContext

namespace EndpointContext

def mult : BitField 256 2 := ⟨8, by decide⟩
def maxPrimaryStreams : BitField 256 5 := ⟨10, by decide⟩
def interval : BitField 256 8 := ⟨16, by decide⟩
def errorCount : BitField 256 2 := ⟨33, by decide⟩
def epType : BitField 256 3 := ⟨35, by decide⟩
def maxBurstSize : BitField 256 8 := ⟨40, by decide⟩
def maxPacketSize : BitField 256 16 := ⟨48, by decide⟩
def dequeueCycleState : BitField 256 1 := ⟨64, by decide⟩
def trDequeuePointer : BitField 256 60 := ⟨68, by decide⟩
def averageTrbLength : BitField 256 16 := ⟨128, by decide⟩

/-- `SetTransferRingBuffer`. -/
def setTransferRingBuffer (ctx : BitVec 256) (buffer : BitVec 64) : BitVec 256 :=
  trDequeuePointer.put ctx ((buffer >>> 4).setWidth 60)

/-- `TransferRingBuffer`. -/
def transferRingBuffer (ctx : BitVec 256) : BitVec 64 :=
  (trDequeuePointer.get ctx).setWidth 64 <<< 4

end EndpointContext

namespace InputControlContext

def dropContextFlags : BitField 256 32 := ⟨0, by decide⟩
def addContextFlags : BitField 256 32 := ⟨32, by decide⟩

end InputControlContext

/-- `struct InputContext`. -/
structure InputContext where
  inputControlContext : BitVec 256
  slotContext : BitVec 256
  epContexts : Nat → BitVec 256

namespace InputContext

/-- Set a bit of `add_context_flags`. -/
def addContext (c : InputContext) (i : Nat) : InputContext :=
  let flags := InputControlContext.addContextFlags.get c.inputControlContext ||| (1#32 <<< i)
  { c with
    inputControlContext := InputControlContext.addContextFlags.put c.inputControlContext flags }

/-- `EnableSlotContext`. -/
def enableSlotContext (c : InputContext) : InputContext := c.addContext 0

/-- `EnableEndpoint`. -/
def enableEndpoint (c : InputContext) (dci : Nat) : InputContext := c.addContext dci

end InputContext

end MikanOs.Usb.Xhci
