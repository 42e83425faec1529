import MikanOs.Lib.BitField
import MikanOs.Usb.Host

/-!
# MikanOs.Usb.Xhci.Port

A root hub port (`usb/xhci/port.cpp`): every member function reads `PORTSC`,
so each takes the number of the read, counted from the start of the call
into the driver.
-/

namespace MikanOs.Usb.Xhci

/-- `class Port`, with what its `PORTSC` reads as. -/
structure Port where
  portNum : BitVec 8
  portsc : Nat → BitVec 32

namespace Portsc

def currentConnectStatus : BitField 32 1 := ⟨0, by decide⟩
def portEnabledDisabled : BitField 32 1 := ⟨1, by decide⟩
def portReset : BitField 32 1 := ⟨4, by decide⟩
def portSpeed : BitField 32 4 := ⟨10, by decide⟩
def portLinkStateWriteStrobe : BitField 32 1 := ⟨16, by decide⟩
def connectStatusChange : BitField 32 1 := ⟨17, by decide⟩
def portResetChange : BitField 32 1 := ⟨21, by decide⟩
def warmPortReset : BitField 32 1 := ⟨31, by decide⟩

end Portsc

namespace Port

/-- `PortAt`. -/
def ofEnv (env : Env) (portNum : BitVec 8) : Port := ⟨portNum, env.portsc portNum⟩

/-- `IsConnected`. -/
def isConnected (p : Port) (k : Nat) : Bool :=
  Portsc.currentConnectStatus.get (p.portsc k) = 1#1

/-- `IsEnabled`. -/
def isEnabled (p : Port) (k : Nat) : Bool :=
  Portsc.portEnabledDisabled.get (p.portsc k) = 1#1

/-- `IsPortResetChanged`. -/
def isPortResetChanged (p : Port) (k : Nat) : Bool :=
  Portsc.portResetChange.get (p.portsc k) = 1#1

/-- `Speed`. -/
def speed (p : Port) (k : Nat) : BitVec 4 := Portsc.portSpeed.get (p.portsc k)

/-- Wait until `port_reset` reads as clear, for at most `n` reads. -/
def awaitReset (p : Port) : Nat → Nat → Except Fault Unit
  | 0, _ => throw .endless
  | n + 1, k => if Portsc.portReset.get (p.portsc k) = 1#1 then awaitReset p n (k + 1) else pure ()

/-- `Reset`. -/
def reset (env : Env) (h : Host) (p : Port) (k : Nat) : Except Fault Host := do
  let portsc := (p.portsc k &&& 0x0e00c3e0#32) ||| 0x00020010#32
  p.awaitReset env.steps (k + 1)
  pure (h.act (.portsc p.portNum portsc))

/-- `ClearConnectStatusChanged`. -/
def clearConnectStatusChanged (h : Host) (p : Port) (k : Nat) : Host :=
  h.act (.portsc p.portNum
    (Portsc.connectStatusChange.put (p.portsc k &&& 0x0e01c3e0#32) 1#1))

/-- `ClearPortResetChange`. -/
def clearPortResetChange (h : Host) (p : Port) (k : Nat) : Host :=
  h.act (.portsc p.portNum
    (Portsc.portResetChange.put (p.portsc k &&& 0x0e01c3e0#32) 1#1))

end Port

end MikanOs.Usb.Xhci
