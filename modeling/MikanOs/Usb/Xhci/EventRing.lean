import MikanOs.Usb.Xhci.Controller

/-!
# MikanOs.Usb.Xhci.EventRing

The event ring (`EventRing` of `usb/xhci/ring.cpp`) and `ProcessEvent`.  The
driver keeps no index into the ring: its dequeue pointer is the `ERDP`
register, which it reads again for every access.

The upper 60 bits of `ERDP` stay as written; the low four belong to the
controller and may read differently each time.  As with `PORTSC`, a function
takes the number of its first read of the register.
-/

namespace MikanOs.Usb.Xhci

/-! ## registers -/

namespace Erdp

def low : BitField 64 4 := ⟨0, by decide⟩
def eventRingDequeuePointer : BitField 64 60 := ⟨4, by decide⟩

/-- `Pointer()`. -/
def pointer (v : BitVec 64) : BitVec 64 := (eventRingDequeuePointer.get v).setWidth 64 <<< 4

/-- `SetPointer`. -/
def setPointer (v p : BitVec 64) : BitVec 64 :=
  eventRingDequeuePointer.put v ((p >>> 4).setWidth 60)

end Erdp

/-- `union EventRingSegmentTableEntry`. -/
structure EventRingSegmentTableEntry where
  ringSegmentBaseAddress : BitVec 64
  ringSegmentSize : BitVec 16

/-! ## the ring -/

/-- `class EventRing`, with what the driver has written to `ERDP`;
`erdpWrites` records each such write with the value read before it. -/
structure EventRing where
  buf : BitVec 64
  bufSize : Nat
  cycleBit : Bool
  erst : EventRingSegmentTableEntry
  erdp : BitVec 64
  erdpWrites : List (BitVec 64 × BitVec 64)

namespace EventRing

/-- `ERDP.Read()`. -/
def readErdp (env : Env) (er : EventRing) (k : Nat) : BitVec 64 :=
  Erdp.low.put er.erdp (env.erdpLow k)

/-- `ReadDequeuePointer`, and `Front`. -/
def readDequeuePointer (env : Env) (er : EventRing) (k : Nat) : BitVec 64 :=
  Erdp.pointer (er.readErdp env k)

/-- `WriteDequeuePointer`. -/
def writeDequeuePointer (env : Env) (er : EventRing) (p : BitVec 64) (k : Nat) : EventRing :=
  let erdp := er.readErdp env k
  { er with
    erdp := Erdp.setPointer erdp p
    erdpWrites := er.erdpWrites ++ [(erdp, Erdp.setPointer erdp p)] }

/-- `HasFront`. -/
def hasFront (env : Env) (er : EventRing) (k : Nat) : Bool :=
  TRB.cycle (env.trb (er.readDequeuePointer env k)) == er.cycleBit

/-- `Pop`. -/
def pop (env : Env) (er : EventRing) (k : Nat) : EventRing :=
  let p := er.readDequeuePointer env k + 16#64
  let segmentBegin := er.erst.ringSegmentBaseAddress
  let segmentEnd := segmentBegin + BitVec.ofNat 64 (sizeofTRB * er.erst.ringSegmentSize.toNat)
  if p = segmentEnd then
    { er with cycleBit := !er.cycleBit }.writeDequeuePointer env segmentBegin (k + 1)
  else er.writeDequeuePointer env p (k + 1)

/-- `sizeof(EventRingSegmentTableEntry)`. -/
def sizeofEntry : Nat := 16

/-- `Initialize` after the allocation of the segment, when `ERDP` holds `erdp`
before. -/
def onBlock (env : Env) (erdp : BitVec 64) (bufSize : Nat) (a : BitVec 64 × Host) :
    Error × EventRing × Host :=
  let er : EventRing :=
    { buf := a.1, bufSize := bufSize, cycleBit := true, erst := ⟨0#64, 0#16⟩, erdp := erdp
      erdpWrites := [] }
  if a.1 = 0#64 then (.kNoEnoughMemory, er, a.2)
  else
    let b := a.2.allocArray env sizeofEntry 1 64#32 (BitVec.ofNat 32 (64 * 1024))
    if b.1 = 0#64 then (.kNoEnoughMemory, er, b.2)
    else
      let er := { er with erst := ⟨a.1, BitVec.ofNat 16 bufSize⟩ }
      (.kSuccess, er.writeDequeuePointer env a.1 0, b.2)

/-- `Initialize`. -/
def initializeRing (env : Env) (h : Host) (erdp : BitVec 64) (bufSize : Nat) :
    Error × EventRing × Host :=
  onBlock env erdp bufSize
    (h.allocArray env sizeofTRB bufSize 64#32 (BitVec.ofNat 32 (64 * 1024)))

end EventRing

/-! ## the event loop -/

/-- The driver: `class Controller` with its event ring. -/
structure Driver where
  xhc : Controller
  er : EventRing

namespace Driver

/-- `ProcessEvent`.  `Front` is called three times, then `Pop`. -/
def processEvent (env : Env) (d : Driver) : Except Fault (Error × Driver) :=
  if ¬ d.er.hasFront env 1 then pure (.kSuccess, d)
  else do
    let eventTrb := env.trb (d.er.readDequeuePointer env 2)
    let (err, xhc) ← d.xhc.onEvent env eventTrb
    pure (err, ⟨xhc, d.er.pop env 3⟩)

/-- `ConfigurePort`. -/
def configurePort (env : Env) (d : Driver) (port : BitVec 8) : Except Fault (Error × Driver) := do
  let (err, xhc) ← d.xhc.configurePort env port
  pure (err, { d with xhc := xhc })

end Driver

end MikanOs.Usb.Xhci
