import MikanOs.Usb.Host
import MikanOs.Usb.SetupData

/-!
# MikanOs.Usb.ClassDriver

The HID class drivers (`usb/classdriver/`): `HIDBaseDriver` with its two
subclasses, the boot keyboard and the boot mouse.

A class driver asks its parent device for transfers, always as the last
thing it does: the functions here return that request as a `Transfer`, and
the device carries it out.
-/

namespace MikanOs.Usb

/-- A virtual call on a `usb::Device`; `issuer` is the class driver that made
it, by its place in the device's `drivers`. -/
inductive Transfer
  | controlIn (epId : EndpointID) (setupData : SetupData) (buf : BitVec 64) (len : Int)
      (issuer : Option Nat)
  | controlOut (epId : EndpointID) (setupData : SetupData) (buf : BitVec 64) (len : Int)
      (issuer : Option Nat)
  | interruptIn (epId : EndpointID) (buf : BitVec 64) (len : Int)
  deriving DecidableEq

/-- How a call ends: with an error of its own, or with a transfer whose error
it returns. -/
inductive Outcome
  | error (e : Error)
  | transfer (t : Transfer)

/-- The two subclasses of `HIDBaseDriver`. -/
inductive HIDKind
  | keyboard
  | mouse
  deriving DecidableEq

/-- `class HIDBaseDriver`; `buf_` is written by the controller and read from
memory. -/
structure HIDDriver where
  this : BitVec 64
  kind : HIDKind
  epInterruptIn : EndpointID
  epInterruptOut : EndpointID
  interfaceIndex : BitVec 8
  inPacketSize : Int
  initializePhase : Nat
  previousBuf : Nat → BitVec 8
  numObservers : Nat

namespace HIDDriver

/-- `kBufferSize`. -/
def kBufferSize : Nat := 1024

/-- `sizeof(HIDKeyboardDriver)` and `sizeof(HIDMouseDriver)`: the base class
object, four `std::function`s and a counter. -/
def sizeofDriver : Nat := 2304

/-- `offsetof(HIDBaseDriver, buf_)`. -/
def offsetofBuf : Nat := 36

/-- `HIDKeyboardDriver(dev, interface_index)` and `HIDMouseDriver(dev,
interface_index)`. -/
def new (this : BitVec 64) (kind : HIDKind) (interfaceIndex : BitVec 8) : HIDDriver where
  this := this
  kind := kind
  epInterruptIn := EndpointID.none
  epInterruptOut := EndpointID.none
  interfaceIndex := interfaceIndex
  inPacketSize := match kind with
    | .keyboard => 8
    | .mouse => 3
  initializePhase := 0
  previousBuf := fun _ => 0#8
  numObservers := 0

/-- `buf_.data()`. -/
def buf (d : HIDDriver) : BitVec 64 := d.this + BitVec.ofNat 64 offsetofBuf

/-- `Buffer()[i]`. -/
def buffer (env : Env) (d : HIDDriver) (i : Nat) : BitVec 8 :=
  env.mem (d.buf + BitVec.ofNat 64 i)

/-- `SetEndpoint`. -/
def setEndpoint (d : HIDDriver) (config : EndpointConfig) : HIDDriver :=
  if config.epType = .kInterrupt ∧ config.epId.isIn then { d with epInterruptIn := config.epId }
  else if config.epType = .kInterrupt ∧ ¬ config.epId.isIn then
    { d with epInterruptOut := config.epId }
  else d

/-- `OnEndpointsConfigured`. -/
def onEndpointsConfigured (d : HIDDriver) (self : Nat) : HIDDriver × Transfer :=
  let setupData : SetupData :=
    { requestType := RequestType.new RequestType.kOut RequestType.kClass RequestType.kInterface
      request := Request.kSetProtocol
      value := 0#16
      index := d.interfaceIndex.setWidth 16
      length := 0#16 }
  ({ d with initializePhase := 1 },
    .controlOut kDefaultControlPipeID setupData 0#64 0 (some self))

/-- `OnControlCompleted`. -/
def onControlCompleted (d : HIDDriver) : HIDDriver × Outcome :=
  if d.initializePhase = 1 then
    ({ d with initializePhase := 2 }, .transfer (.interruptIn d.epInterruptIn d.buf d.inPacketSize))
  else (d, .error .kNotImplemented)

/-- The keys a report adds: nonzero, and nowhere in the previous buffer. -/
def newKeys (env : Env) (d : HIDDriver) : List (BitVec 8) :=
  (((List.range 8).drop 2).map (d.buffer env)).filter fun key =>
    key ≠ 0#8 ∧ ∀ i < kBufferSize, d.previousBuf i ≠ key

/-- What `OnDataReceived` tells each observer. -/
def notifications (env : Env) (d : HIDDriver) : List Io :=
  match d.kind with
  | .keyboard => (d.newKeys env).map .keyPush
  | .mouse => [.mouseMove (d.buffer env 1) (d.buffer env 2)]

/-- `OnDataReceived`: `NotifyKeyPush` and `NotifyMouseMove` go through the
observers for each notification. -/
def onDataReceived (env : Env) (h : Host) (d : HIDDriver) : Host :=
  { h with io := h.io ++ (d.notifications env).flatMap (List.replicate d.numObservers) }

/-- `OnInterruptCompleted`. -/
def onInterruptCompleted (env : Env) (h : Host) (d : HIDDriver) (epId : EndpointID) (len : Int) :
    Except Fault (HIDDriver × Host × Outcome) :=
  if epId.isIn then
    if len ≤ kBufferSize then
      let copied := fun i : Nat => if (i : Int) < len then d.buffer env i else d.previousBuf i
      pure ({ d with previousBuf := copied }, d.onDataReceived env h,
        .transfer (.interruptIn d.epInterruptIn d.buf d.inPacketSize))
    else throw .outOfBounds
  else pure (d, h, .error .kNotImplemented)

end HIDDriver

end MikanOs.Usb
