import MikanOs.Usb.Xhci.DeviceManager
import MikanOs.Usb.Xhci.Port

/-!
# MikanOs.Usb.Xhci.Controller

The part of the driver that brings up what is plugged into a port
(`usb/xhci/xhci.cpp`).  Each port goes through the phases of `ConfigPhase`;
from `kResettingPort` to `kAddressingDevice` only one port may, and
`addressingPort` says which.

A function of the source returns an error and changes the state, also when
the error is not `kSuccess`; where the source drops an error the model does.
`commands` is not part of the program: it records which commands have been
pushed to the command ring, and for which port.
-/

namespace MikanOs.Usb.Xhci

/-- `enum class ConfigPhase`. -/
inductive ConfigPhase
  | kNotConnected
  | kWaitingAddressed
  | kResettingPort
  | kEnablingSlot
  | kAddressingDevice
  | kInitializingDevice
  | kConfiguringEndpoints
  | kConfigured
  deriving DecidableEq, Repr

/-- `class Controller` without its event ring, and the variables of
`xhci.cpp`. -/
structure Controller where
  maxPorts : BitVec 8
  devmgr : DeviceManager
  cr : Ring
  portConfigPhase : BitVec 8 → ConfigPhase
  addressingPort : BitVec 8
  host : Host
  commands : List (BitVec 8 × Trb)

/-! ## small parts -/

/-- `InitializeSlotContext`. -/
def initializeSlotContext (ctx : BitVec 256) (port : Port) : BitVec 256 :=
  let ctx := SlotContext.routeString.put ctx 0#20
  let ctx := SlotContext.rootHubPortNum.put ctx port.portNum
  let ctx := SlotContext.contextEntries.put ctx 1#5
  SlotContext.speed.put ctx (port.speed 0)

/-- `DetermineMaxPacketSizeForControlPipe`. -/
def determineMaxPacketSizeForControlPipe (slotSpeed : BitVec 4) : BitVec 16 :=
  if slotSpeed = 4#4 then 512#16 else if slotSpeed = 3#4 then 64#16 else 8#16

/-- `MostSignificantBit`. -/
def mostSignificantBit (value : BitVec 32) : Int :=
  if value = 0#32 then -1
  else (List.range 32).foldl (fun msb i => if value.getLsbD i then i else msb) 0

/-- `InitializeEP0Context`. -/
def initializeEP0Context (ctx : BitVec 256) (transferRing : Ring) (maxPacketSize : BitVec 16) :
    BitVec 256 :=
  let ctx := EndpointContext.epType.put ctx 4#3
  let ctx := EndpointContext.maxPacketSize.put ctx maxPacketSize
  let ctx := EndpointContext.maxBurstSize.put ctx 0#8
  let ctx := EndpointContext.setTransferRingBuffer ctx transferRing.buf
  let ctx := EndpointContext.dequeueCycleState.put ctx 1#1
  let ctx := EndpointContext.interval.put ctx 0#8
  let ctx := EndpointContext.maxPrimaryStreams.put ctx 0#5
  let ctx := EndpointContext.mult.put ctx 0#2
  EndpointContext.errorCount.put ctx 3#2

/-- `convert_interval`, for full and low speed ports and for the others. -/
def convertInterval (portSpeed : BitVec 4) (type : EndpointType) (interval : Int) : Int :=
  if portSpeed = 1#4 ∨ portSpeed = 2#4 then
    if type = .kIsochronous then interval + 2
    else mostSignificantBit (BitVec.ofInt 32 interval) + 3
  else interval - 1

/-- `ep_type` of an endpoint context. -/
def epTypeCode (config : EndpointConfig) : BitVec 3 :=
  match config.epType with
  | .kControl => 4#3
  | .kIsochronous => if config.epId.isIn then 5#3 else 1#3
  | .kBulk => if config.epId.isIn then 6#3 else 2#3
  | .kInterrupt => if config.epId.isIn then 7#3 else 3#3

/-- The endpoint context `ConfigureEndpoints` fills in. -/
def initializeEndpointContext (ctx : BitVec 256) (portSpeed : BitVec 4) (config : EndpointConfig)
    (transferRing : Ring) : BitVec 256 :=
  let ctx := EndpointContext.epType.put ctx (epTypeCode config)
  let ctx := EndpointContext.maxPacketSize.put ctx (BitVec.ofInt 16 config.maxPacketSize)
  let ctx := EndpointContext.interval.put ctx
    (BitVec.ofInt 8 (convertInterval portSpeed config.epType config.interval))
  let ctx := EndpointContext.averageTrbLength.put ctx 1#16
  let ctx := EndpointContext.setTransferRingBuffer ctx transferRing.buf
  let ctx := EndpointContext.dequeueCycleState.put ctx 1#1
  let ctx := EndpointContext.maxPrimaryStreams.put ctx 0#5
  let ctx := EndpointContext.mult.put ctx 0#2
  EndpointContext.errorCount.put ctx 3#2

namespace Controller

/-- No port has been touched yet: `port_config_phase{}`, `addressing_port{0}`. -/
def untouched (maxPorts : BitVec 8) (devmgr : DeviceManager) (cr : Ring) (host : Host) :
    Controller :=
  ⟨maxPorts, devmgr, cr, fun _ => .kNotConnected, 0#8, host, []⟩

/-- Set the phase of a port. -/
def setPhase (s : Controller) (port : BitVec 8) (phase : ConfigPhase) : Controller :=
  { s with portConfigPhase := update s.portConfigPhase port phase }

/-- `PortAt` looks the port up in the register sets. -/
def portAt (s : Controller) (port : BitVec 8) : Controller :=
  { s with host := s.host.act (.portAt port) }

/-- Write back what a device has done to itself and to the host. -/
def setDevice (s : Controller) (slotId : BitVec 8) (dev : Device) (h : Host) : Controller :=
  { s with devmgr := s.devmgr.set slotId dev, host := h }

/-- Push a command on behalf of a port, and ring the doorbell. -/
def pushCommand (s : Controller) (port : BitVec 8) (cmd : Trb) : Except Fault Controller := do
  let (_, cr) ← s.cr.tryPush cmd
  pure { s with
    cr := cr
    host := s.host.act (.doorbell 0#8 0#8)
    commands := s.commands ++ [(port, cmd)] }

/-- The TRB at an address: in the command ring, or wherever else the
controller says. -/
def trbAt (env : Env) (s : Controller) (a : BitVec 64) : Trb := (s.cr.trbAt a).getD (env.trb a)

/-! ## the phases of a port -/

/-- `ResetPort`. -/
def resetPort (env : Env) (s : Controller) (port : BitVec 8) :
    Except Fault (Error × Controller) :=
  let p := Port.ofEnv env port
  if ¬ p.isConnected 0 then pure (.kSuccess, s)
  else if s.addressingPort ≠ 0#8 then pure (.kSuccess, s.setPhase port .kWaitingAddressed)
  else if s.portConfigPhase port ≠ .kNotConnected ∧
      s.portConfigPhase port ≠ .kWaitingAddressed then pure (.kInvalidPhase, s)
  else do
    let s := { s with addressingPort := port }.setPhase port .kResettingPort
    let h ← p.reset env s.host 1
    pure (.kSuccess, { s with host := h })

/-- `EnableSlot`. -/
def enableSlot (env : Env) (s : Controller) (port : BitVec 8) :
    Except Fault (Error × Controller) :=
  let p := Port.ofEnv env port
  if p.isEnabled 0 ∧ p.isPortResetChanged 1 then do
    let s := { s with host := p.clearPortResetChange s.host 2 }.setPhase port .kEnablingSlot
    let s ← s.pushCommand port EnableSlotCommandTRB.new
    pure (.kSuccess, s)
  else pure (.kSuccess, s)

/-- The input context `AddressDevice` sets up, given the transfer ring of
endpoint 0. -/
def addressInput (env : Env) (port : BitVec 8) (input : InputContext) (tr : Ring) : InputContext :=
  let input := { input with inputControlContext := 0#256 }
  let input := input.enableSlotContext.enableEndpoint 1
  let slotCtx := initializeSlotContext input.slotContext (Port.ofEnv env port)
  let maxPacketSize := determineMaxPacketSizeForControlPipe (SlotContext.speed.get slotCtx)
  let ep0Ctx := initializeEP0Context (input.epContexts 0) tr maxPacketSize
  { input with slotContext := slotCtx, epContexts := update input.epContexts 0 ep0Ctx }

/-- `AddressDevice` of the device in a slot. -/
def addressSlot (env : Env) (s : Controller) (port slotId : BitVec 8) (dev : Device) :
    Except Fault (Error × Controller) := do
  let s := s.portAt port
  let (tr, pipes, h) ← dev.pipes.allocTransferRing env s.host 1 32
  match tr with
  | none => throw .nullPointer
  | some tr => do
      let dev :=
        { dev with inputCtx := addressInput env port dev.inputCtx tr, pipes := pipes }
      let s := s.setDevice slotId dev h
      let (_, devmgr) ← s.devmgr.loadDCBAA slotId
      let s := { s with devmgr := devmgr }.setPhase port .kAddressingDevice
      let s ← s.pushCommand port (AddressDeviceCommandTRB.new dev.inputContext slotId)
      pure (.kSuccess, s)

/-- `AddressDevice`. -/
def addressDevice (env : Env) (s : Controller) (port slotId : BitVec 8) :
    Except Fault (Error × Controller) := do
  let (_, devmgr, h) ← s.devmgr.allocDevice env s.host slotId slotId
  let s := { s with devmgr := devmgr, host := h }
  match s.devmgr.findBySlot slotId with
  | none => pure (.kInvalidSlotID, s)
  | some dev => s.addressSlot env port slotId dev

/-- `InitializeDevice`. -/
def initializeDevice (s : Controller) (port slotId : BitVec 8) :
    Except Fault (Error × Controller) :=
  match s.devmgr.findBySlot slotId with
  | none => pure (.kInvalidSlotID, s)
  | some dev => do
      let s := s.setPhase port .kInitializingDevice
      let (_, pipes, h) ← dev.pipes.startInitialize s.host
      pure (.kSuccess, s.setDevice slotId { dev with pipes := pipes } h)

/-- `CompleteConfiguration`. -/
def completeConfiguration (s : Controller) (port slotId : BitVec 8) :
    Except Fault (Error × Controller) :=
  match s.devmgr.findBySlot slotId with
  | none => pure (.kInvalidSlotID, s)
  | some dev => do
      let (_, pipes, h) ← dev.pipes.onEndpointsConfigured s.host
      let s := s.setDevice slotId { dev with pipes := pipes } h
      pure (.kSuccess, s.setPhase port .kConfigured)

/-- `ConfigurePort`. -/
def configurePort (env : Env) (s : Controller) (port : BitVec 8) :
    Except Fault (Error × Controller) :=
  if s.portConfigPhase port = .kNotConnected then s.resetPort env port else pure (.kSuccess, s)

/-- The loop of `ConfigureEndpoints` over the endpoint configs, from entry `i`
on. -/
def configureEach (env : Env) (portSpeed : BitVec 4) (h : Host) (dev : Device) :
    Nat → Nat → Except Fault (Device × Host)
  | 0, _ => pure (dev, h)
  | n + 1, i => do
      let k ← checked 16 i
      let config := dev.pipes.base.epConfigs k
      let d ← checked 31 (config.epId.addr - 1)
      let (tr, pipes, h) ← dev.pipes.allocTransferRing env h config.epId.addr 32
      match tr with
      | none => throw .nullPointer
      | some tr =>
          let input := dev.inputCtx.enableEndpoint (d + 1)
          let ctx := initializeEndpointContext (input.epContexts d) portSpeed config tr
          let input := { input with epContexts := update input.epContexts d ctx }
          configureEach env portSpeed h { dev with inputCtx := input, pipes := pipes } n (i + 1)

/-- `ConfigureEndpoints` of the device in a slot. -/
def configureEndpoints (env : Env) (s : Controller) (slotId : BitVec 8) (dev : Device) :
    Except Fault (Error × Controller) :=
  let input := { dev.inputCtx with
    inputControlContext := 0#256
    slotContext := env.slotContext slotId }
  let input := input.enableSlotContext
  let input :=
    { input with slotContext := SlotContext.contextEntries.put input.slotContext 31#5 }
  let dev := { dev with inputCtx := input }
  let port := SlotContext.rootHubPortNum.get (env.slotContext slotId)
  let s := s.portAt port
  let portSpeed := (Port.ofEnv env port).speed 0
  if portSpeed = 0#4 ∨ 5#4 < portSpeed then
    pure (.kUnknownXHCISpeedID, s.setDevice slotId dev s.host)
  else do
    let (dev, h) ← configureEach env portSpeed s.host dev dev.pipes.base.numEpConfigs 0
    let s := (s.setDevice slotId dev h).setPhase port .kConfiguringEndpoints
    let s ← s.pushCommand port (ConfigureEndpointCommandTRB.new dev.inputContext dev.slotId)
    pure (.kSuccess, s)

/-! ## events -/

/-- `OnEvent(PortStatusChangeEventTRB)`. -/
def onPortStatusChange (env : Env) (s : Controller) (trb : Trb) :
    Except Fault (Error × Controller) :=
  let port := PortStatusChangeEventTRB.portId.get trb
  let s := s.portAt port
  match s.portConfigPhase port with
  | .kNotConnected => s.resetPort env port
  | .kResettingPort => s.enableSlot env port
  | _ => pure (.kInvalidPhase, s)

/-- `OnEvent(TransferEventTRB)`. -/
def onTransferEvent (env : Env) (s : Controller) (trb : Trb) :
    Except Fault (Error × Controller) :=
  let slotId := TransferEventTRB.slotId.get trb
  match s.devmgr.findBySlot slotId with
  | none => pure (.kInvalidSlotID, s)
  | some dev => do
      let (err, pipes, h) ← dev.pipes.onTransferEventReceived env s.host trb
      let dev := { dev with pipes := pipes }
      let s := s.setDevice slotId dev h
      if err ≠ .kSuccess then pure (err, s)
      else
        let port := SlotContext.rootHubPortNum.get (env.slotContext slotId)
        if dev.pipes.base.isInitialized ∧ s.portConfigPhase port = .kInitializingDevice then
          s.configureEndpoints env slotId dev
        else pure (.kSuccess, s)

/-- The lowest-numbered port that waits to be addressed. -/
def firstWaiting (s : Controller) : Option (BitVec 8) :=
  ((List.range 256).map (BitVec.ofNat 8)).find? fun i =>
    s.portConfigPhase i = .kWaitingAddressed

/-- The lock is free: let the first port that waits for it start over. -/
def resumeWaiting (env : Env) (s : Controller) : Except Fault (Error × Controller) :=
  match s.firstWaiting with
  | none => pure (.kSuccess, s)
  | some i => (s.portAt i).resetPort env i

/-- `OnEvent(CommandCompletionEventTRB)`. -/
def onCommandCompletion (env : Env) (s : Controller) (trb : Trb) :
    Except Fault (Error × Controller) :=
  let issuerType := TRB.trbType.get (s.trbAt env (CommandCompletionEventTRB.pointer trb))
  let slotId := CommandCompletionEventTRB.slotId.get trb
  let port := SlotContext.rootHubPortNum.get (env.slotContext slotId)
  if issuerType = EnableSlotCommandTRB.type then
    if s.portConfigPhase s.addressingPort ≠ .kEnablingSlot then pure (.kInvalidPhase, s)
    else s.addressDevice env s.addressingPort slotId
  else if issuerType = AddressDeviceCommandTRB.type then
    match s.devmgr.findBySlot slotId with
    | none => pure (.kInvalidSlotID, s)
    | some _ =>
        if port ≠ s.addressingPort then pure (.kInvalidPhase, s)
        else if s.portConfigPhase port ≠ .kAddressingDevice then pure (.kInvalidPhase, s)
        else do
          let (err, s) ← { s with addressingPort := 0#8 }.resumeWaiting env
          if err ≠ .kSuccess then pure (err, s) else s.initializeDevice port slotId
  else if issuerType = ConfigureEndpointCommandTRB.type then
    match s.devmgr.findBySlot slotId with
    | none => pure (.kInvalidSlotID, s)
    | some _ =>
        if s.portConfigPhase port ≠ .kConfiguringEndpoints then pure (.kInvalidPhase, s)
        else s.completeConfiguration port slotId
  else pure (.kInvalidPhase, s)

/-- The dispatch of `ProcessEvent` on the type of the event. -/
def onEvent (env : Env) (s : Controller) (trb : Trb) : Except Fault (Error × Controller) :=
  let type := TRB.trbType.get trb
  if type = TransferEventTRB.type then s.onTransferEvent env trb
  else if type = PortStatusChangeEventTRB.type then s.onPortStatusChange env trb
  else if type = CommandCompletionEventTRB.type then s.onCommandCompletion env trb
  else pure (.kNotImplemented, s)

end Controller

end MikanOs.Usb.Xhci
