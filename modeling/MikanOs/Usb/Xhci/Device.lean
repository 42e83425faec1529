import MikanOs.Usb.Device
import MikanOs.Usb.Xhci.Context
import MikanOs.Usb.Xhci.Ring

/-!
# MikanOs.Usb.Xhci.Device

A USB device behind an xHCI controller (`usb/xhci/device.cpp`): control and
interrupt transfers are TRBs pushed to the transfer ring of an endpoint, and
a transfer event completes one of them.

`Pipes` is the part of the object that transfers work on, so that nothing
here can touch the input context or the state of the ports.  A transfer
event is handled in two steps: `completedTransfer` finds out which transfer
it completes, and `report` tells the base class.
-/

namespace MikanOs.Usb.Xhci

/-- `class xhci::Device` but for its contexts and its slot. -/
structure Pipes where
  base : Usb.Device
  dbreg : BitVec 8
  transferRings : Nat → Option Ring
  setupStageMap : ArrayMap (BitVec 64) (BitVec 64) 16

/-- `class xhci::Device`; its device context belongs to the controller. -/
structure Device where
  slotId : BitVec 8
  inputCtx : InputContext
  pipes : Pipes

/-! ## TRBs -/

/-- `MakeSetupStageTRB`. -/
def makeSetupStageTRB (setupData : SetupData) (transferType : BitVec 2) : Trb :=
  let setup := SetupStageTRB.new
  let setup := SetupStageTRB.requestType.put setup setupData.requestType
  let setup := SetupStageTRB.request.put setup setupData.request
  let setup := SetupStageTRB.value.put setup setupData.value
  let setup := SetupStageTRB.index.put setup setupData.index
  let setup := SetupStageTRB.length.put setup setupData.length
  SetupStageTRB.transferType.put setup transferType

/-- The `SetupData` of a setup stage TRB. -/
def setupDataOf (t : Trb) : SetupData where
  requestType := SetupStageTRB.requestType.get t
  request := SetupStageTRB.request.get t
  value := SetupStageTRB.value.get t
  index := SetupStageTRB.index.get t
  length := SetupStageTRB.length.get t

/-- `MakeDataStageTRB`. -/
def makeDataStageTRB (buf : BitVec 64) (len : Int) (dirIn : Bool) : Trb :=
  let data := DataStageTRB.new
  let data := DataStageTRB.dataBufferPointer.put data buf
  let data := DataStageTRB.trbTransferLength.put data (BitVec.ofInt 17 len)
  let data := DataStageTRB.tdSize.put data 0#5
  DataStageTRB.direction.put data (BitVec.ofBool dirIn)

/-- `TRBDynamicCast` of a pointer to a TRB. -/
def trbDynamicCast (type : BitVec 6) (t : Trb) (p : BitVec 64) : BitVec 64 :=
  if TRB.trbType.get t = type then p else 0#64

/-- `Push` on a ring whose buffer may be missing. -/
def Ring.tryPush (r : Ring) (data : Trb) : Except Fault (BitVec 64 × Ring) :=
  if r.buf = 0#64 then throw .nullPointer else pure (r.push data)

namespace Pipes

/-! ## requests -/

/-- What `ControlIn` and `ControlOut` have in common: the stages of the
transfer are pushed, and the setup stage is remembered under the stage whose
completion will be reported. -/
def control (transferType : BitVec 2) (dataIn statusIn : Bool) (h : Host) (p : Pipes)
    (epId : EndpointID) (setupData : SetupData) (buf : BitVec 64) (len : Int)
    (issuer : Option Nat) : Except Fault (Error × Pipes × Host) := do
  let p := { p with base := p.base.registerWaiter setupData issuer }
  if epId.number < 0 ∨ 15 < epId.number then pure (.kInvalidEndpointNumber, p, h)
  else
    let i ← checked 31 (epId.addr - 1)
    match p.transferRings i with
    | none => pure (.kTransferRingNotSet, p, h)
    | some tr =>
        let h' := h.act (.doorbell p.dbreg (BitVec.ofInt 8 epId.addr))
        if buf ≠ 0#64 then
          let (setupPos, tr₁) ← tr.tryPush (makeSetupStageTRB setupData transferType)
          let setupPos := trbDynamicCast SetupStageTRB.type (tr₁.trbs tr.writeIndex) setupPos
          let data := DataStageTRB.interruptOnCompletion.put (makeDataStageTRB buf len dataIn) 1#1
          let (dataPos, tr₂) ← tr₁.tryPush data
          let status := StatusStageTRB.direction.put StatusStageTRB.new (BitVec.ofBool statusIn)
          let (_, tr₃) ← tr₂.tryPush status
          pure (.kSuccess,
            { p with
              transferRings := update p.transferRings i (some tr₃)
              setupStageMap := p.setupStageMap.put dataPos setupPos }, h')
        else
          let (setupPos, tr₁) ←
            tr.tryPush (makeSetupStageTRB setupData SetupStageTRB.kNoDataStage)
          let setupPos := trbDynamicCast SetupStageTRB.type (tr₁.trbs tr.writeIndex) setupPos
          let status := StatusStageTRB.direction.put StatusStageTRB.new 1#1
          let status := StatusStageTRB.interruptOnCompletion.put status 1#1
          let (statusPos, tr₂) ← tr₁.tryPush status
          pure (.kSuccess,
            { p with
              transferRings := update p.transferRings i (some tr₂)
              setupStageMap := p.setupStageMap.put statusPos setupPos }, h')

/-- `ControlIn`. -/
def controlIn (h : Host) (p : Pipes) (epId : EndpointID) (setupData : SetupData)
    (buf : BitVec 64) (len : Int) (issuer : Option Nat) : Except Fault (Error × Pipes × Host) :=
  control SetupStageTRB.kInDataStage true false h p epId setupData buf len issuer

/-- `ControlOut`. -/
def controlOut (h : Host) (p : Pipes) (epId : EndpointID) (setupData : SetupData)
    (buf : BitVec 64) (len : Int) (issuer : Option Nat) : Except Fault (Error × Pipes × Host) :=
  control SetupStageTRB.kOutDataStage false true h p epId setupData buf len issuer

/-- `InterruptIn`. -/
def interruptIn (h : Host) (p : Pipes) (epId : EndpointID) (buf : BitVec 64) (len : Int) :
    Except Fault (Error × Pipes × Host) := do
  let i ← checked 31 (epId.addr - 1)
  match p.transferRings i with
  | none => pure (.kTransferRingNotSet, p, h)
  | some tr =>
      let normal := NormalTRB.dataBufferPointer.put NormalTRB.new buf
      let normal := NormalTRB.trbTransferLength.put normal (BitVec.ofInt 17 len)
      let normal := NormalTRB.interruptOnShortPacket.put normal 1#1
      let normal := NormalTRB.interruptOnCompletion.put normal 1#1
      let (_, tr) ← tr.tryPush normal
      pure (.kSuccess, { p with transferRings := update p.transferRings i (some tr) },
        h.act (.doorbell p.dbreg (BitVec.ofInt 8 epId.addr)))

/-- The virtual call a `Transfer` stands for. -/
def run (h : Host) (p : Pipes) : Transfer → Except Fault (Error × Pipes × Host)
  | .controlIn epId setupData buf len issuer => controlIn h p epId setupData buf len issuer
  | .controlOut epId setupData buf len issuer => controlOut h p epId setupData buf len issuer
  | .interruptIn epId buf len => interruptIn h p epId buf len

/-- Carry out what the base class ended with. -/
def finish (h : Host) (p : Pipes) : Outcome → Except Fault (Error × Pipes × Host)
  | .error e => pure (e, p, h)
  | .transfer t => p.run h t

/-! ## transfer events -/

/-- The TRB at an address: in one of the transfer rings, or wherever else the
controller says. -/
def trbAt (env : Env) (p : Pipes) (a : BitVec 64) : Trb :=
  ((List.range 31).findSome? fun i => (p.transferRings i).bind (·.trbAt a)).getD (env.trb a)

/-- What a transfer event turns out to report. -/
inductive Completion
  | error (e : Error)
  | interrupt (epId : EndpointID) (len : Int)
  | control (epId : EndpointID) (setupData : SetupData) (buf : BitVec 64) (len : Int)

/-- `OnTransferEventReceived` up to the call of the base class. -/
def completedTransfer (env : Env) (p : Pipes) (trb : Trb) : Except Fault (Completion × Pipes) :=
  let residual : Int := (TransferEventTRB.trbTransferLength.get trb).toNat
  let code := TransferEventTRB.completionCode.get trb
  let epId : EndpointID := ⟨(TransferEventTRB.endpointId.get trb).toNat⟩
  if code ≠ 1#8 ∧ code ≠ 13#8 then pure (.error .kTransferFailed, p)
  else
    let issuer := TransferEventTRB.pointer trb
    let issuerTrb := p.trbAt env issuer
    if TRB.trbType.get issuerTrb = NormalTRB.type then
      pure (.interrupt epId ((NormalTRB.trbTransferLength.get issuerTrb).toNat - residual), p)
    else
      match p.setupStageMap.get issuer with
      | none => pure (.error .kNoCorrespondingSetupStage, p)
      | some setup =>
          if setup = 0#64 then throw .nullPointer
          else
            let p := { p with setupStageMap := p.setupStageMap.delete issuer }
            let setupData := setupDataOf (p.trbAt env setup)
            if TRB.trbType.get issuerTrb = DataStageTRB.type then
              pure (.control epId setupData (DataStageTRB.dataBufferPointer.get issuerTrb)
                ((DataStageTRB.trbTransferLength.get issuerTrb).toNat - residual), p)
            else if TRB.trbType.get issuerTrb = StatusStageTRB.type then
              pure (.control epId setupData 0#64 0, p)
            else pure (.error .kNotImplemented, p)

/-- The call of the base class a completion leads to. -/
def report (env : Env) (h : Host) (p : Pipes) : Completion → Except Fault (Error × Pipes × Host)
  | .error e => pure (e, p, h)
  | .interrupt epId len => do
      let (base, h, o) ← p.base.onInterruptCompleted env h epId len
      finish h { p with base := base } o
  | .control _ setupData buf len => do
      let (base, h, o) ← p.base.onControlCompleted env h setupData buf len
      finish h { p with base := base } o

/-- `OnTransferEventReceived`. -/
def onTransferEventReceived (env : Env) (h : Host) (p : Pipes) (trb : Trb) :
    Except Fault (Error × Pipes × Host) := do
  let h := h.act (.completionCodeName (TransferEventTRB.completionCode.get trb))
  let (c, p) ← p.completedTransfer env trb
  p.report env h c

/-! ## the rest of the interface -/

/-- `sizeof(Ring)`. -/
def sizeofRing : Nat := 32

/-- `AllocTransferRing` after the allocation of the ring object. -/
def installRing (env : Env) (p : Pipes) (i bufSize : Nat) (a : BitVec 64 × Host) :
    Option Ring × Pipes × Host :=
  if a.1 = 0#64 then (none, { p with transferRings := update p.transferRings i none }, a.2)
  else
    let (_, ring, allocPtr) := Ring.initializeRing env.pool a.2.allocPtr bufSize
    (some ring, { p with transferRings := update p.transferRings i (some ring) },
      { a.2 with allocPtr := allocPtr })

/-- `AllocTransferRing`: the ring object, if there was room for it, with or
without a buffer. -/
def allocTransferRing (env : Env) (h : Host) (p : Pipes) (dci : Int) (bufSize : Nat) :
    Except Fault (Option Ring × Pipes × Host) := do
  let i ← checked 31 (dci - 1)
  pure (p.installRing env i bufSize (h.allocArray env sizeofRing 1 64#32 4096#32))

/-- `StartInitialize`. -/
def startInitialize (h : Host) (p : Pipes) : Except Fault (Error × Pipes × Host) :=
  let r := p.base.startInitialize
  run h { p with base := r.1 } r.2

/-- The loop of `OnEndpointsConfigured`, from class driver `i` on. -/
def configureDrivers (h : Host) (p : Pipes) : Nat → Nat → Except Fault (Error × Pipes × Host)
  | 0, _ => pure (.kSuccess, p, h)
  | n + 1, i =>
      match p.base.classDrivers i with
      | none => configureDrivers h p n (i + 1)
      | some driver => do
          let c ← p.base.driverAt driver
          let (c, t) := c.onEndpointsConfigured driver
          let base := { p.base with drivers := p.base.drivers.set driver c }
          let (err, p, h) ← run h { p with base := base } t
          if err = .kSuccess then configureDrivers h p n (i + 1) else pure (err, p, h)

/-- `OnEndpointsConfigured`. -/
def onEndpointsConfigured (h : Host) (p : Pipes) : Except Fault (Error × Pipes × Host) :=
  configureDrivers h p 16 0

end Pipes

namespace Device

/-- `sizeof(xhci::Device)`. -/
def sizeofDevice : Nat := 3520

/-- `offsetof(xhci::Device, ctx_)`. -/
def offsetofCtx : Nat := 768

/-- `offsetof(xhci::Device, input_ctx_)`. -/
def offsetofInputCtx : Nat := 1792

/-- `Device(slot_id, dbreg)` in zeroed memory. -/
def new (this : BitVec 64) (slotId dbreg : BitVec 8) : Device where
  slotId := slotId
  inputCtx := ⟨0#256, 0#256, fun _ => 0#256⟩
  pipes :=
    { base := Usb.Device.new this
      dbreg := dbreg
      transferRings := fun _ => none
      setupStageMap := ArrayMap.new 16 0#64 }

/-- `DeviceContext()`. -/
def deviceContext (d : Device) : BitVec 64 := d.pipes.base.this + BitVec.ofNat 64 offsetofCtx

/-- `InputContext()`. -/
def inputContext (d : Device) : BitVec 64 := d.pipes.base.this + BitVec.ofNat 64 offsetofInputCtx

end Device

end MikanOs.Usb.Xhci
