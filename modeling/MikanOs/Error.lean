import MikanOs.Lib.Returns

/-!
# MikanOs.Error

Error codes (`error.hpp`) and the ways a call can fail to return at all.

A driver function is modelled as `Except Fault (Error × σ)`: it returns an
`Error` (`kSuccess` included) with the state it leaves behind, or it does
something after which the language promises nothing, or it never returns.
-/

namespace MikanOs

/-- `Error::Code`. -/
inductive Error
  | kSuccess
  | kFull
  | kEmpty
  | kNoEnoughMemory
  | kIndexOutOfRange
  | kHostControllerNotHalted
  | kInvalidSlotID
  | kPortNotConnected
  | kInvalidEndpointNumber
  | kTransferRingNotSet
  | kAlreadyAllocated
  | kNotImplemented
  | kInvalidDescriptor
  | kBufferTooSmall
  | kUnknownDevice
  | kNoCorrespondingSetupStage
  | kTransferFailed
  | kInvalidPhase
  | kUnknownXHCISpeedID
  | kNoWaiter
  deriving DecidableEq, Repr

/-- Why a call does not return. -/
inductive Fault
  /-- a null pointer is dereferenced -/
  | nullPointer
  /-- a write, or a read the code goes on to use, outside an array -/
  | outOfBounds
  /-- a loop has not ended within the steps it was given -/
  | endless
  deriving DecidableEq, Repr

end MikanOs
