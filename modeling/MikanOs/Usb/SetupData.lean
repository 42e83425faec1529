import MikanOs.Lib.BitField

/-!
# MikanOs.Usb.SetupData

Control requests (`usb/setupdata.hpp`) and endpoints (`usb/endpoint.hpp`).
A C++ `int` that no code path can overflow is an `Int`.
-/

namespace MikanOs.Usb

/-! ## requests -/

/-- `SetupData`. -/
structure SetupData where
  requestType : BitVec 8
  request : BitVec 8
  value : BitVec 16
  index : BitVec 16
  length : BitVec 16
  deriving DecidableEq, Repr

namespace RequestType

def recipient : BitField 8 5 := ⟨0, by decide⟩
def type : BitField 8 2 := ⟨5, by decide⟩
def direction : BitField 8 1 := ⟨7, by decide⟩
def kDevice : BitVec 5 := 0#5
def kInterface : BitVec 5 := 1#5
def kStandard : BitVec 2 := 0#2
def kClass : BitVec 2 := 1#2
def kOut : BitVec 1 := 0#1
def kIn : BitVec 1 := 1#1

/-- `request_type` assembled from its bits. -/
def new (dir : BitVec 1) (ty : BitVec 2) (rcpt : BitVec 5) : BitVec 8 :=
  recipient.put (type.put (direction.put 0#8 dir) ty) rcpt

end RequestType

namespace Request

def kGetDescriptor : BitVec 8 := 6#8
def kSetConfiguration : BitVec 8 := 9#8
def kSetProtocol : BitVec 8 := 11#8

end Request

/-! ## endpoints -/

/-- `enum class EndpointType`. -/
inductive EndpointType
  | kControl
  | kIsochronous
  | kBulk
  | kInterrupt
  deriving DecidableEq, Repr

/-- `static_cast<EndpointType>` of a two-bit transfer type. -/
def EndpointType.ofBits (b : BitVec 2) : EndpointType :=
  if b = 0#2 then .kControl else if b = 1#2 then .kIsochronous
  else if b = 2#2 then .kBulk else .kInterrupt

/-- `class EndpointID`. -/
structure EndpointID where
  addr : Int
  deriving DecidableEq, Repr

namespace EndpointID

/-- `EndpointID()`. -/
def none : EndpointID := ⟨0⟩

/-- `EndpointID(ep_num, dir_in)`: `ep_num << 1 | dir_in`. -/
def new (epNum : Nat) (dirIn : Bool) : EndpointID := ⟨2 * epNum + dirIn.toNat⟩

/-- `Number`: `addr_ >> 1`, the sign bit kept. -/
def number (e : EndpointID) : Int := e.addr / 2

/-- `IsIn`: `addr_ & 1`. -/
def isIn (e : EndpointID) : Bool := e.addr % 2 = 1

end EndpointID

/-- `kDefaultControlPipeID`. -/
def kDefaultControlPipeID : EndpointID := EndpointID.new 0 true

/-- `struct EndpointConfig`. -/
structure EndpointConfig where
  epId : EndpointID
  epType : EndpointType
  maxPacketSize : Int
  interval : Int
  deriving DecidableEq, Repr

end MikanOs.Usb
