import MikanOs.Usb.Xhci.EventIndices
import MikanOs.Usb.Xhci.InitSteps
import MikanOs.Usb.Xhci.Isolation

/-!
# MikanOs.Usb.Xhci.Progress

A device gets configured.  Bringing up what is plugged into a port takes seven
events: the port has been reset, a slot has been enabled, an address has been
assigned, two descriptors have come in, a configuration has been set, and the
endpoints have been configured.  `Awaited` says which of them is still to come,
and `At` what the driver holds meanwhile.

`progress` says that nothing else is needed: whatever the other devices do in
between, each answer of the hardware is taken, without an error, and the last
one leaves the port configured.
-/

namespace MikanOs.Usb.Xhci

open Usb.Device Descriptor

/-! ## what is waited for -/

/-- The event that the bring-up of a device waits for. -/
inductive Awaited
  | reset
  | slot
  | address
  | deviceDescriptor
  | configuration
  | setting
  | endpoints
  | nothing
  deriving DecidableEq

namespace Awaited

/-- The phase of the port meanwhile. -/
def phase : Awaited → ConfigPhase
  | .reset => .kResettingPort
  | .slot => .kEnablingSlot
  | .address => .kAddressingDevice
  | .deviceDescriptor => .kInitializingDevice
  | .configuration => .kInitializingDevice
  | .setting => .kInitializingDevice
  | .endpoints => .kConfiguringEndpoints
  | .nothing => .kConfigured

/-- What is waited for afterwards. -/
def next : Awaited → Awaited
  | .reset => .slot
  | .slot => .address
  | .address => .deviceDescriptor
  | .deviceDescriptor => .configuration
  | .configuration => .setting
  | .setting => .endpoints
  | .endpoints => .nothing
  | .nothing => .nothing

/-- What the slot holds meanwhile. -/
inductive Holds : Awaited → Option Device → Prop
  | reset : Holds .reset none
  | slot : Holds .slot none
  | address (dev : Device) (idle : ControlRun.Consistent ⟨dev.pipes, []⟩)
      (unserved : dev.pipes.base.Unserved) (buf : dev.pipes.base.buf ≠ 0#64) :
      Holds .address (some dev)
  | deviceDescriptor (dev : Device)
      (asked : Asked 1 (getDescriptorRequest dev.pipes.base kDevice) dev.pipes)
      (unserved : dev.pipes.base.Unserved) (buf : dev.pipes.base.buf ≠ 0#64) :
      Holds .deviceDescriptor (some dev)
  | configuration (dev : Device)
      (asked : Asked 2 (getDescriptorRequest dev.pipes.base kConfiguration) dev.pipes)
      (unserved : dev.pipes.base.Unserved) (buf : dev.pipes.base.buf ≠ 0#64) :
      Holds .configuration (some dev)
  | setting (dev : Device) (value : BitVec 8)
      (asked : Asked 3 (setConfigurationRequest value) dev.pipes) (env : Env)
      (eps : List (BitVec 64)) (c : HIDDriver)
      (served : dev.pipes.base.Served (eps.map (makeEPConfig env)) c)
      (indices : ∀ q ∈ eps, endpointNumber env q ≠ 0) : Holds .setting (some dev)
  | endpoints (dev : Device) (ready : dev.pipes.base.isInitialized = true) (env : Env)
      (eps : List (BitVec 64)) (c : HIDDriver)
      (served : dev.pipes.base.Served (eps.map (makeEPConfig env)) c)
      (rings : ∀ dci ∈ 1 :: dcis dev, Buffered dev.pipes.transferRings dci) :
      Holds .endpoints (some dev)
  | nothing (dev : Device) (ready : dev.pipes.base.isInitialized = true)
      (driver : ∃ c, dev.pipes.base.drivers = [c] ∧
        (dev.pipes.base.configs ≠ [] → c.initializePhase = 1))
      (rings : ∀ dci ∈ 1 :: dcis dev, Buffered dev.pipes.transferRings dci) :
      Holds .nothing (some dev)

end Awaited

/-- The bring-up of the device at a port, with its slot, has come so far that
some event is waited for. -/
structure At (port slot : BitVec 8) (a : Awaited) (s : Controller) : Prop where
  phase : s.portConfigPhase port = a.phase
  /-- from its reset until it has an address the port holds the lock -/
  lock : a.phase.exclusive = true → s.addressingPort = port
  device : a.Holds (s.devmgr.devices slot)
  slot : slot.toNat ≤ s.devmgr.maxSlots
  ring : s.cr.buf ≠ 0#64

/-! ## the answers -/

namespace Driver

/-- `ProcessEvent` is about to handle a transfer event of a slot. -/
structure Transfers (env : Env) (d : Driver) (slot : BitVec 8) : Prop where
  found : d.er.hasFront env 1 = true
  type : TRB.trbType.get (d.event env) = TransferEventTRB.type
  slotId : TransferEventTRB.slotId.get (d.event env) = slot

/-- `ProcessEvent` is about to handle the completion of a command of some type
for a slot. -/
structure Commanded (env : Env) (d : Driver) (type : BitVec 6) (slot : BitVec 8) : Prop where
  completes : d.Completes env
  issuer : d.issuer env = type
  slotId : d.slot env = slot

end Driver

/-- A port that is being reset will not be for ever. -/
def ResetsEnd (env : Env) : Prop :=
  ∀ port, ∃ k < env.steps, Portsc.portReset.get (env.portsc port (k + 2)) ≠ 1#1

/-- The event at the front of the event ring is the one that is waited for; the
pool has room for what comes of it, the device has sent what it has been asked
for, the device context in the slot names the port, and the port's speed is
known when its endpoints are to be configured. -/
inductive Answers (port slot : BitVec 8) (env : Env) (d : Driver) : Awaited → Prop
  | reset (found : d.er.hasFront env 1 = true)
      (type : TRB.trbType.get (d.event env) = PortStatusChangeEventTRB.type)
      (named : PortStatusChangeEventTRB.portId.get (d.event env) = port)
      (enabled : (Port.ofEnv env port).isEnabled 0 = true)
      (changed : (Port.ofEnv env port).isPortResetChanged 1 = true) :
      Answers port slot env d .reset
  | slot (completes : d.Commanded env EnableSlotCommandTRB.type slot)
      (cursor : CursorOk env.pool d.xhc.host.allocPtr)
      (room : HasRoom env.pool d.xhc.host.allocPtr (deviceRequest :: ringRequests)) :
      Answers port slot env d .slot
  | address (completes : d.Commanded env AddressDeviceCommandTRB.type slot)
      (named : Controller.contextPort env slot = port) (resets : ResetsEnd env) :
      Answers port slot env d .address
  | deviceDescriptor (transfers : d.Transfers env slot) (dev : Device)
      (found : d.xhc.devmgr.devices slot = some dev) (answer : Answer dev.pipes (d.event env))
      (type : byte env dev.pipes.base.buf 1 = kDevice) : Answers port slot env d .deviceDescriptor
  | configuration (transfers : d.Transfers env slot) (dev : Device)
      (found : d.xhc.devmgr.devices slot = some dev) (answer : Answer dev.pipes (d.event env))
      (eps : List (BitVec 64))
      (offers : Offers env dev.pipes.base.buf
        ((getDescriptorRequest dev.pipes.base kConfiguration).filled (d.event env)) eps)
      (cursor : CursorOk env.pool d.xhc.host.allocPtr)
      (room : HasRoom env.pool d.xhc.host.allocPtr [driverRequest]) :
      Answers port slot env d .configuration
  | setting (transfers : d.Transfers env slot) (dev : Device)
      (found : d.xhc.devmgr.devices slot = some dev) (answer : Answer dev.pipes (d.event env))
      (named : Controller.contextPort env slot = port) (known : ¬ SpeedUnknown env slot)
      (cursor : CursorOk env.pool d.xhc.host.allocPtr)
      (room : HasRoom env.pool d.xhc.host.allocPtr
        (ringsRequests dev.pipes.base.numEpConfigs)) : Answers port slot env d .setting
  | endpoints (completes : d.Commanded env ConfigureEndpointCommandTRB.type slot)
      (named : Controller.contextPort env slot = port) : Answers port slot env d .endpoints

/-! ## what they do -/

namespace Controller

variable {env : Env} {s t : Controller} {port slotId : BitVec 8} {dev : Device} {trb : Trb}

theorem pushCommand_issued (ring : s.cr.buf ≠ 0#64) (port : BitVec 8) (cmd : Trb) :
    s.pushCommand port cmd = .ok (s.issued port cmd) := by
  unfold pushCommand Ring.tryPush
  rw [if_neg ring]
  rfl

/-- The port has been reset: a slot is asked for. -/
theorem enableSlot_answered (phase : s.portConfigPhase port = .kResettingPort)
    (ring : s.cr.buf ≠ 0#64) (named : PortStatusChangeEventTRB.portId.get trb = port)
    (enabled : (Port.ofEnv env port).isEnabled 0 = true)
    (changed : (Port.ofEnv env port).isPortResetChanged 1 = true) :
    ∃ h, s.onPortStatusChange env trb = .ok (.kSuccess,
      (({ s with host := h }.setPhase port .kEnablingSlot).issued port
        EnableSlotCommandTRB.new)) := by
  have hphase : (s.portAt port).portConfigPhase port = .kResettingPort := phase
  unfold onPortStatusChange
  simp only [named, hphase]
  let h := (Port.ofEnv env port).clearPortResetChange (s.portAt port).host 2
  have hpush := pushCommand_issued (s := { s with host := h }.setPhase port .kEnablingSlot) ring
    port EnableSlotCommandTRB.new
  refine ⟨h, ?_⟩
  unfold enableSlot
  rw [if_pos ⟨enabled, changed⟩]
  exact Returns.bind_ok hpush _

theorem allocDevice_eq {m : DeviceManager} (hslot : slotId.toNat ≤ m.maxSlots)
    (free : m.devices slotId = none) (h : Host) (dbreg : BitVec 8) {a : BitVec 64 × BitVec 64}
    (answer : deviceRequest.serve env.pool h.allocPtr = a) (nonnull : a.1 ≠ 0#64) :
    m.allocDevice env h slotId dbreg =
      .ok (.kSuccess, m.set slotId (Device.new a.1 slotId dbreg), (h.grant a).2) := by
  unfold DeviceManager.allocDevice
  rw [if_neg (Nat.not_lt_of_le hslot), free, Host.allocArray_eq, ← deviceRequest, answer]
  exact if_neg nonnull

theorem buf_ne_zero {this : BitVec 64} (h : this.toNat + 3520 < 2 ^ 64) :
    (Usb.Device.new this).buf ≠ 0#64 := by
  intro hbuf
  have hzero : (this + 136#64).toNat = 0 := congrArg BitVec.toNat hbuf
  rw [BitVec.toNat_add, BitVec.toNat_ofNat] at hzero
  omega

/-- With room for it, a new device has its buffer inside the address space. -/
theorem allocDevice_of_room {m : DeviceManager} {h : Host} (dbreg : BitVec 8)
    (hslot : slotId.toNat ≤ m.maxSlots) (free : m.devices slotId = none)
    (cursor : CursorOk env.pool h.allocPtr) {rs : List Request}
    (room : HasRoom env.pool h.allocPtr (deviceRequest :: rs)) :
    ∃ this h', m.allocDevice env h slotId dbreg =
        .ok (.kSuccess, m.set slotId (Device.new this slotId dbreg), h') ∧
      (Usb.Device.new this).buf ≠ 0#64 ∧ CursorOk env.pool h'.allocPtr ∧
      HasRoom env.pool h'.allocPtr rs := by
  obtain ⟨hnull, hrest⟩ := (hasRoom_cons deviceRequest_valid cursor rs).mp room
  obtain ⟨hok, _, hblock⟩ := serve_cursor deviceRequest_valid cursor
  obtain ⟨_, hend⟩ := hblock hnull
  generalize hanswer : deviceRequest.serve env.pool h.allocPtr = a at hnull hrest hok hend
  have hsize : deviceRequest.size.toNat = 3520 := by decide
  have htop := a.2.isLt
  refine ⟨a.1, _, allocDevice_eq hslot free h dbreg hanswer hnull, buf_ne_zero (by omega), ?_⟩
  rw [Host.grant_allocPtr]
  exact ⟨hok, hrest⟩

/-- A slot has been enabled: a device is made for it, gets its default control
pipe, and an address is asked for. -/
theorem addressDevice_answered (port : BitVec 8) (hslot : slotId.toNat ≤ s.devmgr.maxSlots)
    (free : s.devmgr.devices slotId = none) (ring : s.cr.buf ≠ 0#64)
    (cursor : CursorOk env.pool s.host.allocPtr)
    (room : HasRoom env.pool s.host.allocPtr (deviceRequest :: ringRequests)) :
    ∃ t dev, s.addressDevice env port slotId = .ok (.kSuccess, t) ∧
      t.devmgr.devices slotId = some dev ∧ ControlRun.Consistent ⟨dev.pipes, []⟩ ∧
      dev.pipes.base.Unserved ∧ dev.pipes.base.buf ≠ 0#64 := by
  obtain ⟨this, h₁, halloc, hbuf, hok, hroom⟩ :=
    allocDevice_of_room slotId hslot free cursor room
  rw [← List.append_nil ringRequests] at hroom
  have hd : checked 31 (1 - 1) = .ok 0 := rfl
  obtain ⟨tr, h₂, hring, hbuffer, _⟩ := allocTransferRing_of_room (h := h₁.act (.portAt port))
    (Device.new this slotId slotId).pipes hd hok hroom
  obtain ⟨t, dev, hret, hdev, hpipes⟩ := addressSlot_of_some
    (s := { s with devmgr := s.devmgr.set slotId (Device.new this slotId slotId), host := h₁ })
    hslot ring hring
  have hempty : (Device.new this slotId slotId).pipes.setupStageMap.live = [] :=
    ArrayMap.live_new 0#64
  have hfound := DeviceManager.findBySlot_set hslot (Device.new this slotId slotId)
  refine ⟨t, dev, ?_, hdev, ?_, ?_, ?_⟩
  · rw [addressDevice_of_alloc halloc hfound]
    exact hret
  · rw [hpipes]
    exact ControlRun.consistent_of_alloc (h := h₁.act (.portAt port)) hok hring hbuffer hempty
  · rw [hpipes]
    exact ⟨rfl, fun _ => rfl, rfl⟩
  · rw [hpipes]
    exact hbuf

/-! ### the lock is given back -/

theorem awaitReset_of_clear {p : Port} {n k j : Nat} (hj : j < n)
    (clear : Portsc.portReset.get (p.portsc (k + j)) ≠ 1#1) : p.awaitReset n k = .ok () := by
  induction n generalizing k j with
  | zero => exact absurd hj (Nat.not_lt_zero j)
  | succ n ih =>
      rw [Port.awaitReset]
      split
      · next hset =>
        cases j with
        | zero => exact absurd hset clear
        | succ j =>
            exact ih (Nat.lt_of_succ_lt_succ hj)
              (by rwa [Nat.add_assoc, Nat.add_comm 1 j])
      · rfl

theorem reset_returns (resets : ResetsEnd env) (port : BitVec 8) (h : Host) :
    ∃ h', (Port.ofEnv env port).reset env h 1 = .ok h' := by
  obtain ⟨k, hk, hclear⟩ := resets port
  have hawait : (Port.ofEnv env port).awaitReset env.steps 2 = .ok () :=
    awaitReset_of_clear hk (by rwa [Nat.add_comm 2 k])
  exact ⟨_, Returns.bind_ok hawait _⟩

/-- The first of the ports that wait takes the lock over, or none. -/
theorem resumeWaiting_returns (resets : ResetsEnd env) (free : s.addressingPort = 0#8) :
    ∃ u, s.resumeWaiting env = .ok (.kSuccess, u) := by
  unfold resumeWaiting
  cases hfirst : s.firstWaiting with
  | none => exact ⟨s, rfl⟩
  | some i =>
      have hwaits : (s.portAt i).portConfigPhase i = .kWaitingAddressed := phase_firstWaiting hfirst
      have hfree : ¬ (s.portAt i).addressingPort ≠ 0#8 := not_not_intro free
      simp only
      unfold resetPort
      by_cases hon : (Port.ofEnv env i).isConnected 0 = true
      · obtain ⟨h', hreset⟩ := reset_returns resets i (s.portAt i).host
        rw [if_neg (not_not_intro hon), if_neg hfree, if_neg (fun h => h.2 hwaits)]
        exact ⟨_, Returns.bind_ok hreset _⟩
      · rw [if_pos hon]
        exact ⟨_, rfl⟩

/-- An address has been assigned: the lock is given back, and the device
descriptor is asked for. -/
theorem addressed_answered (held : s.addressingPort = port)
    (phase : s.portConfigPhase port = .kAddressingDevice)
    (hslot : slotId.toNat ≤ s.devmgr.maxSlots) (found : s.devmgr.devices slotId = some dev)
    (idle : ControlRun.Consistent ⟨dev.pipes, []⟩) (resets : ResetsEnd env)
    (issuer : s.issuerType env trb = AddressDeviceCommandTRB.type)
    (slot : CommandCompletionEventTRB.slotId.get trb = slotId)
    (named : contextPort env slotId = port) :
    ∃ (u : Controller) (p : Pipes) (h : Host), s.onCommandCompletion env trb = .ok (.kSuccess,
        (u.setPhase port .kInitializingDevice).setDevice slotId { dev with pipes := p } h) ∧
      ResumeWaitingEnds env { s with addressingPort := 0#8 } .kSuccess u ∧
      Asked 1 (getDescriptorRequest dev.pipes.base kDevice) p ∧
      p.base = dev.pipes.base.startInitialize.1 := by
  obtain ⟨u, hresume⟩ := resumeWaiting_returns (s := { s with addressingPort := 0#8 }) resets rfl
  have hends := resumeWaiting_ends rfl hresume
  obtain ⟨p, h, hstart, hasked, hbase⟩ := startInitialize_asks idle u.host
  have hdevmgr : u.devmgr = s.devmgr := hends.eq_kSuccess.2
  have hfound : s.devmgr.findBySlot slotId = some dev :=
    (DeviceManager.findBySlot_of_le hslot).trans found
  have hinit : u.initializeDevice port slotId = .ok (.kSuccess,
      (u.setPhase port .kInitializingDevice).setDevice slotId { dev with pipes := p } h) := by
    unfold initializeDevice
    rw [hdevmgr, hfound]
    exact Returns.bind_ok hstart _
  refine ⟨u, p, h, ?_, hends, hasked, hbase⟩
  have hother : ¬ AddressDeviceCommandTRB.type = EnableSlotCommandTRB.type := by decide
  rw [issuerType] at issuer
  rw [contextPort] at named
  unfold onCommandCompletion
  simp only [issuer, slot, named, hother, if_false, if_true, hfound, held, phase, ne_eq,
    not_true]
  refine (Returns.bind_ok hresume _).trans ?_
  simp only [not_true, if_false]
  exact hinit

/-! ### transfers -/

/-- A device that takes an event and is still being initialized. -/
theorem onTransferEvent_starting {p : Pipes} {h : Host} (hslot : slotId.toNat ≤ s.devmgr.maxSlots)
    (found : s.devmgr.devices slotId = some dev) (slot : TransferEventTRB.slotId.get trb = slotId)
    (ret : dev.pipes.onTransferEventReceived env s.host trb = .ok (.kSuccess, p, h))
    (starting : p.base.isInitialized = false) : s.onTransferEvent env trb =
      .ok (.kSuccess, s.setDevice slotId { dev with pipes := p } h) := by
  have hfound : s.devmgr.findBySlot slotId = some dev :=
    (DeviceManager.findBySlot_of_le hslot).trans found
  unfold onTransferEvent
  simp only [slot, hfound]
  refine (Returns.bind_ok ret _).trans ?_
  simp only [ne_eq, not_true, if_false, starting, Bool.false_eq_true, false_and]
  rfl

/-- One that is initialized now. -/
theorem onTransferEvent_initialized {p : Pipes} {h : Host}
    (hslot : slotId.toNat ≤ s.devmgr.maxSlots) (found : s.devmgr.devices slotId = some dev)
    (slot : TransferEventTRB.slotId.get trb = slotId)
    (ret : dev.pipes.onTransferEventReceived env s.host trb = .ok (.kSuccess, p, h))
    (ready : p.base.isInitialized = true)
    (phase : s.portConfigPhase (contextPort env slotId) = .kInitializingDevice) :
    s.onTransferEvent env trb = (s.setDevice slotId { dev with pipes := p } h).configureEndpoints
      env slotId { dev with pipes := p } := by
  have hfound : s.devmgr.findBySlot slotId = some dev :=
    (DeviceManager.findBySlot_of_le hslot).trans found
  have hphase : (s.setDevice slotId { dev with pipes := p } h).portConfigPhase
      (SlotContext.rootHubPortNum.get (env.slotContext slotId)) = .kInitializingDevice := phase
  unfold onTransferEvent
  simp only [slot, hfound]
  refine (Returns.bind_ok ret _).trans ?_
  simp only [ne_eq, not_true, if_false, ready, hphase, and_self, if_true]

theorem configureEach_base {speed : BitVec 4} {n i : Nat} {h h' : Host} {dev' : Device}
    (ret : configureEach env speed h dev n i = .ok (dev', h')) :
    dev'.pipes.base = dev.pipes.base := by
  induction n generalizing h dev i with
  | zero =>
      cases Returns.pure_eq_ok.mp ret
      rfl
  | succ n ih =>
      obtain ⟨_, d, tr, h₁, _, _, hnext⟩ := configureEach_round ret
      exact (ih hnext).trans rfl

/-- The endpoints of an accepted configuration get their rings, and a
Configure Endpoint command is pushed. -/
theorem configureEndpoints_answered (dev : Device) {eps : List (BitVec 64)} {env' : Env}
    {c : HIDDriver} (served : dev.pipes.base.Served (eps.map (makeEPConfig env')) c)
    (indices : ∀ q ∈ eps, endpointNumber env' q ≠ 0)
    (pipe : Buffered dev.pipes.transferRings 1) (ring : s.cr.buf ≠ 0#64)
    (known : ¬ SpeedUnknown env slotId) (cursor : CursorOk env.pool s.host.allocPtr)
    (room : HasRoom env.pool s.host.allocPtr (ringsRequests dev.pipes.base.numEpConfigs)) :
    ∃ t dev', s.configureEndpoints env slotId dev = .ok (.kSuccess, t) ∧
      t.devmgr.devices slotId = some dev' ∧ dev'.pipes.base = dev.pipes.base ∧
      ∀ dci ∈ 1 :: dcis dev', Buffered dev'.pipes.transferRings dci := by
  have hindices : ∀ dci ∈ dcis dev, 1 ≤ dci ∧ dci ≤ 31 := by
    intro dci hdci
    obtain ⟨config, hconfig, rfl⟩ := List.mem_map.mp hdci
    rw [served.listed] at hconfig
    obtain ⟨q, hq, rfl⟩ := List.mem_map.mp hconfig
    obtain ⟨htwo, hmax⟩ := (indexOk_makeEPConfig env' q).mpr (indices q hq)
    exact ⟨by omega, hmax⟩
  rw [← dcisFrom_zero env slotId dev] at hindices
  have hone : ∀ dci ∈ [1], Buffered (startConfigure env slotId dev).pipes.transferRings dci :=
    List.forall_mem_singleton.mpr pipe
  obtain ⟨dev', h', hloop, hrings⟩ := configureEach_of_hasRoom (portSpeed env slotId) hone
    (h := (s.portAt (portOf env slotId)).host) cursor (Nat.zero_add _ ▸ served.entriesOk.few)
    hindices room
  obtain ⟨t, hret, hdev⟩ := configureEndpoints_of_ok known ring hloop
  have hbase : dev'.pipes.base = dev.pipes.base :=
    (configureEach_base hloop).trans rfl
  have hdcis : dcis dev' = dcis dev := by rw [dcis, dcis, hbase]
  rw [dcisFrom_zero] at hrings
  exact ⟨t, dev', hret, hdev, hbase, by rw [hdcis]; exact hrings⟩

/-! ### the endpoints -/

/-- The endpoints have been configured: the class driver is started. -/
theorem configured_answered {eps : List (BitVec 64)} {env' : Env} {c : HIDDriver}
    (phase : s.portConfigPhase port = .kConfiguringEndpoints)
    (hslot : slotId.toNat ≤ s.devmgr.maxSlots) (found : s.devmgr.devices slotId = some dev)
    (served : dev.pipes.base.Served (eps.map (makeEPConfig env')) c)
    (pipe : Buffered dev.pipes.transferRings 1)
    (issuer : s.issuerType env trb = ConfigureEndpointCommandTRB.type)
    (slot : CommandCompletionEventTRB.slotId.get trb = slotId)
    (named : contextPort env slotId = port) :
    ∃ p h, s.onCommandCompletion env trb = .ok (.kSuccess,
        (s.setDevice slotId { dev with pipes := p } h).setPhase port .kConfigured) ∧
      Running dev.pipes p := by
  obtain ⟨p, h, hret, hrunning⟩ := onEndpointsConfigured_served served pipe s.host
  have hfound : s.devmgr.findBySlot slotId = some dev :=
    (DeviceManager.findBySlot_of_le hslot).trans found
  have henable : ¬ ConfigureEndpointCommandTRB.type = EnableSlotCommandTRB.type := by decide
  have haddress : ¬ ConfigureEndpointCommandTRB.type = AddressDeviceCommandTRB.type := by decide
  refine ⟨p, h, ?_, hrunning⟩
  rw [issuerType] at issuer
  rw [contextPort] at named
  unfold onCommandCompletion
  simp only [issuer, slot, named, henable, haddress, if_false, if_true, hfound, phase, ne_eq,
    not_true]
  unfold completeConfiguration
  rw [hfound]
  exact Returns.bind_ok hret _

end Controller

/-! ## one event -/

section

variable {port slot : BitVec 8} {a : Awaited} {s t : Controller} {env : Env} {d : Driver}

/-- What is not about the port and the slot is not about its bring-up. -/
theorem At.kept (h : At port slot a s) (kept : Controller.Kept port slot s t) :
    At port slot a t where
  phase := kept.phase.trans h.phase
  lock := fun held => kept.lock.mpr (h.lock held)
  device := by
    rw [kept.device]
    exact h.device
  slot := by
    rw [kept.maxSlots]
    exact h.slot
  ring := by
    rw [kept.ring]
    exact h.ring

/-- The bring-up begins with the lock. -/
theorem At.begun (h : At port slot a s) : s.Begun port := by
  rw [Controller.Begun, h.phase]
  cases a <;> decide

namespace Driver

theorem Transfers.onEvent (h : d.Transfers env slot) :
    d.xhc.onEvent env (d.event env) = d.xhc.onTransferEvent env (d.event env) :=
  if_pos h.type

theorem Commanded.onEvent {type : BitVec 6} (h : d.Commanded env type slot) :
    d.xhc.onEvent env (d.event env) = d.xhc.onCommandCompletion env (d.event env) := by
  unfold Controller.onEvent
  simp only [h.completes.type]
  rfl

end Driver

/-- One answer, and the controller it leaves. -/
def Takes (port slot : BitVec 8) (env : Env) (d : Driver) (a : Awaited) : Prop :=
  ∃ t, d.xhc.onEvent env (d.event env) = .ok (.kSuccess, t) ∧ At port slot a t

theorem At.reset_takes (h : At port slot .reset d.xhc)
    (type : TRB.trbType.get (d.event env) = PortStatusChangeEventTRB.type)
    (named : PortStatusChangeEventTRB.portId.get (d.event env) = port)
    (enabled : (Port.ofEnv env port).isEnabled 0 = true)
    (changed : (Port.ofEnv env port).isPortResetChanged 1 = true) :
    Takes port slot env d .slot := by
  obtain ⟨host, hret⟩ :=
    Controller.enableSlot_answered h.phase h.ring named enabled changed
  have hdevice := h.device
  have hevent : d.xhc.onEvent env (d.event env) =
      d.xhc.onPortStatusChange env (d.event env) := by
    unfold Controller.onEvent
    simp only [type]
    rfl
  refine ⟨_, hevent.trans hret, update_self _ _ _, fun _ => h.lock rfl, ?_, h.slot, ?_⟩
  · show Awaited.slot.Holds (d.xhc.devmgr.devices slot)
    generalize d.xhc.devmgr.devices slot = dev at hdevice ⊢
    cases hdevice
    exact .slot
  · show (d.xhc.cr.push _).2.buf ≠ 0#64
    rw [Ring.push_buf]
    exact h.ring

theorem At.slot_takes (h : At port slot .slot d.xhc)
    (completes : d.Commanded env EnableSlotCommandTRB.type slot)
    (cursor : CursorOk env.pool d.xhc.host.allocPtr)
    (room : HasRoom env.pool d.xhc.host.allocPtr (deviceRequest :: ringRequests)) :
    Takes port slot env d .address := by
  have hfree : d.xhc.devmgr.devices slot = none := by
    have hdevice := h.device
    generalize d.xhc.devmgr.devices slot = dev at hdevice ⊢
    cases hdevice
    rfl
  have hlock := h.lock rfl
  obtain ⟨t, dev, hret, hdev, hidle, hunserved, hbuf⟩ :=
    Controller.addressDevice_answered port h.slot hfree h.ring cursor room
  have hcall : d.xhc.onCommandCompletion env (d.event env) = .ok (.kSuccess, t) := by
    have hissuer := completes.issuer
    have hslot := completes.slotId
    have hphase : d.xhc.portConfigPhase port = .kEnablingSlot := h.phase
    rw [Driver.issuer, Controller.issuerType] at hissuer
    rw [Driver.slot] at hslot
    unfold Controller.onCommandCompletion
    simp only [hissuer, hslot, if_true, hlock, hphase, ne_eq, not_true, if_false]
    exact hret
  have hholds : Awaited.address.Holds (t.devmgr.devices slot) := by
    rw [hdev]
    exact .address dev hidle hunserved hbuf
  refine ⟨t, completes.onEvent.trans hcall, ?_⟩
  cases Controller.addressDevice_ends hret with
  | addressing _ dev' host portNum =>
      refine ⟨update_self _ _ _, fun _ => hlock, hholds, h.slot, ?_⟩
      show (d.xhc.cr.push _).2.buf ≠ 0#64
      rw [Ring.push_buf]
      exact h.ring

theorem At.address_takes (h : At port slot .address d.xhc)
    (completes : d.Commanded env AddressDeviceCommandTRB.type slot)
    (named : Controller.contextPort env slot = port) (resets : ResetsEnd env) :
    Takes port slot env d .deviceDescriptor := by
  have hdevice := h.device
  generalize hdev : d.xhc.devmgr.devices slot = dev at hdevice
  cases hdevice with
  | address dev idle unserved buf =>
      obtain ⟨u, p, host, hret, hends, hasked, hbase⟩ := Controller.addressed_answered
        (h.lock rfl) h.phase h.slot hdev idle resets completes.issuer completes.slotId named
      have hdevmgr : u.devmgr = d.xhc.devmgr := hends.eq_kSuccess.2
      have hcr : u.cr = d.xhc.cr := by cases hends <;> rfl
      have hbuf : p.base.buf = dev.pipes.base.buf := by
        rw [hbase]
        rfl
      have hrequest : getDescriptorRequest p.base kDevice =
          getDescriptorRequest dev.pipes.base kDevice := by
        rw [getDescriptorRequest, hbuf]
        rfl
      refine ⟨_, completes.onEvent.trans hret, update_self _ _ _,
        fun held => absurd held (by decide), ?_, ?_, ?_⟩
      · show Awaited.deviceDescriptor.Holds ((u.devmgr.set slot _).devices slot)
        rw [DeviceManager.set_devices_self]
        refine .deviceDescriptor _ (hrequest ▸ hasked) ?_ (by rwa [hbuf])
        rw [hbase]
        exact ⟨unserved.drivers, unserved.classDrivers, unserved.eventWaiters⟩
      · show slot.toNat ≤ u.devmgr.maxSlots
        rw [hdevmgr]
        exact h.slot
      · show u.cr.buf ≠ 0#64
        rw [hcr]
        exact h.ring

/-- A device that has taken a descriptor. -/
theorem At.descriptor_takes {dev : Device} {p : Pipes} {host : Host} {b : Awaited}
    (h : At port slot a d.xhc) (found : d.xhc.devmgr.devices slot = some dev)
    (phase : a.phase = b.phase) (free : b.phase.exclusive = false)
    (transfers : d.Transfers env slot)
    (ret : dev.pipes.onTransferEventReceived env d.xhc.host (d.event env) =
      .ok (.kSuccess, p, host)) (starting : p.base.isInitialized = false)
    (holds : b.Holds (some { dev with pipes := p })) : Takes port slot env d b := by
  have hret := Controller.onTransferEvent_starting h.slot found transfers.slotId ret starting
  refine ⟨_, transfers.onEvent.trans hret, h.phase.trans phase, ?_, ?_, h.slot, h.ring⟩
  · rw [free]
    exact fun held => absurd held (by decide)
  · show b.Holds ((d.xhc.devmgr.set slot _).devices slot)
    rw [DeviceManager.set_devices_self]
    exact holds

theorem At.deviceDescriptor_takes (h : At port slot .deviceDescriptor d.xhc)
    (transfers : d.Transfers env slot) {dev : Device}
    (found : d.xhc.devmgr.devices slot = some dev) (answer : Answer dev.pipes (d.event env))
    (type : byte env dev.pipes.base.buf 1 = kDevice) : Takes port slot env d .configuration := by
  have hdevice := h.device
  rw [found] at hdevice
  cases hdevice with
  | deviceDescriptor _ asked unserved buf =>
      obtain ⟨p, host, hret, hasked, hbase⟩ := asked.device answer buf type d.xhc.host
      refine h.descriptor_takes found rfl rfl transfers hret hasked.starting ?_
      have hbuf : p.base.buf = dev.pipes.base.buf := by
        rw [hbase]
        rfl
      have hrequest : getDescriptorRequest p.base kConfiguration =
          getDescriptorRequest dev.pipes.base kConfiguration := by
        rw [getDescriptorRequest, hbuf]
        rfl
      refine .configuration _ (hrequest ▸ hasked) ?_ (by rwa [hbuf])
      rw [hbase]
      exact ⟨unserved.drivers, unserved.classDrivers, unserved.eventWaiters⟩

theorem At.configuration_takes (h : At port slot .configuration d.xhc)
    (transfers : d.Transfers env slot) {dev : Device}
    (found : d.xhc.devmgr.devices slot = some dev) (answer : Answer dev.pipes (d.event env))
    {eps : List (BitVec 64)} (offers : Offers env dev.pipes.base.buf
      ((getDescriptorRequest dev.pipes.base kConfiguration).filled (d.event env)) eps)
    (cursor : CursorOk env.pool d.xhc.host.allocPtr)
    (room : HasRoom env.pool d.xhc.host.allocPtr [driverRequest]) :
    Takes port slot env d .setting := by
  have hdevice := h.device
  rw [found] at hdevice
  cases hdevice with
  | configuration _ asked unserved buf =>
      obtain ⟨p, host, c, hret, hasked, hfresh, hbase⟩ :=
        asked.configuration answer buf offers cursor room
      refine h.descriptor_takes found rfl rfl transfers hret hasked.starting ?_
      refine .setting _ _ hasked env eps c ?_ offers.indices
      rw [hbase]
      exact unserved.adopt hfresh offers.few 3

theorem At.setting_takes (h : At port slot .setting d.xhc) (transfers : d.Transfers env slot)
    {dev : Device} (found : d.xhc.devmgr.devices slot = some dev)
    (answer : Answer dev.pipes (d.event env)) (named : Controller.contextPort env slot = port)
    (known : ¬ SpeedUnknown env slot) (cursor : CursorOk env.pool d.xhc.host.allocPtr)
    (room : HasRoom env.pool d.xhc.host.allocPtr
      (ringsRequests dev.pipes.base.numEpConfigs)) : Takes port slot env d .endpoints := by
  have hdevice := h.device
  rw [found] at hdevice
  cases hdevice with
  | setting _ value asked env' eps c served indices =>
      obtain ⟨p, host, hret, hidle, hready, hhost, hserved⟩ :=
        asked.setting answer served env d.xhc.host
      have hphase : d.xhc.portConfigPhase (Controller.contextPort env slot) =
          .kInitializingDevice := named ▸ h.phase
      have hconfigure := Controller.onTransferEvent_initialized h.slot found transfers.slotId hret
        hready hphase
      have hnum : p.base.numEpConfigs = dev.pipes.base.numEpConfigs :=
        hserved.numEpConfigs.trans served.numEpConfigs.symm
      obtain ⟨t, dev', hret', hdev, hbase, hrings⟩ := Controller.configureEndpoints_answered
        (s := d.xhc.setDevice slot { dev with pipes := p } host)
        { dev with pipes := p } hserved indices hidle.buffered h.ring known
        (hhost.symm ▸ cursor) (by rw [hnum]; exact hhost.symm ▸ room)
      have hholds : Awaited.endpoints.Holds (t.devmgr.devices slot) := by
        rw [hdev]
        exact .endpoints dev' (hbase ▸ hready) env' eps _ (hbase ▸ hserved) hrings
      refine ⟨t, transfers.onEvent.trans (hconfigure.trans hret'), ?_⟩
      have hends := Controller.configureEndpoints_ends hret'
      rw [← Controller.contextPort, named] at hends
      cases hends with
      | configuring dev₂ host₂ input slotId =>
          refine ⟨update_self _ _ _, fun held => absurd held (by decide), hholds, h.slot, ?_⟩
          show (d.xhc.cr.push _).2.buf ≠ 0#64
          rw [Ring.push_buf]
          exact h.ring

theorem At.endpoints_takes (h : At port slot .endpoints d.xhc)
    (completes : d.Commanded env ConfigureEndpointCommandTRB.type slot)
    (named : Controller.contextPort env slot = port) : Takes port slot env d .nothing := by
  have hdevice := h.device
  generalize hdev : d.xhc.devmgr.devices slot = dev at hdevice
  cases hdevice with
  | endpoints dev ready env' eps c served rings =>
      obtain ⟨p, host, hret, hrunning⟩ := Controller.configured_answered h.phase h.slot hdev served
        (rings 1 List.mem_cons_self) completes.issuer completes.slotId named
      have hdcis : dcis { dev with pipes := p } = dcis dev :=
        congrArg (List.map fun config : EndpointConfig => config.epId.addr) hrunning.configs
      refine ⟨_, completes.onEvent.trans hret, update_self _ _ _,
        fun held => absurd held (by decide), ?_, h.slot, h.ring⟩
      show Awaited.nothing.Holds ((d.xhc.devmgr.set slot _).devices slot)
      rw [DeviceManager.set_devices_self]
      refine .nothing _ (hrunning.ready.trans ready) hrunning.driver fun dci hdci => ?_
      rw [hdcis] at hdci
      exact hrunning.rings dci (rings dci hdci)

/-- **An answer** is taken. -/
theorem At.takes (h : At port slot a d.xhc) (answers : Answers port slot env d a) :
    d.er.hasFront env 1 = true ∧ Takes port slot env d a.next := by
  cases answers with
  | reset found type named enabled changed =>
      exact ⟨found, h.reset_takes type named enabled changed⟩
  | slot completes cursor room =>
      exact ⟨completes.completes.found, h.slot_takes completes cursor room⟩
  | address completes named resets =>
      exact ⟨completes.completes.found, h.address_takes completes named resets⟩
  | deviceDescriptor transfers dev found answer type =>
      exact ⟨transfers.found, h.deviceDescriptor_takes transfers found answer type⟩
  | configuration transfers dev found answer eps offers cursor room =>
      exact ⟨transfers.found, h.configuration_takes transfers found answer offers cursor room⟩
  | setting transfers dev found answer named known cursor room =>
      exact ⟨transfers.found, h.setting_takes transfers found answer named known cursor room⟩
  | endpoints completes named =>
      exact ⟨completes.completes.found, h.endpoints_takes completes named⟩

theorem At.processEvent (h : At port slot a d.xhc) (answers : Answers port slot env d a) :
    ∃ d', d.processEvent env = .ok (.kSuccess, d') ∧ At port slot a.next d'.xhc := by
  obtain ⟨hfound, t, hret, ht⟩ := h.takes answers
  exact ⟨_, Driver.processEvent_of hfound hret, ht⟩

end

/-! ## the run -/

/-- `ConfigurePort` begins the bring-up of a device that has just been plugged
in, when no other port holds the lock. -/
theorem Driver.configurePort_begins {d : Driver} {env : Env} (port slot : BitVec 8)
    (phase : d.xhc.portConfigPhase port = .kNotConnected) (free : d.xhc.addressingPort = 0#8)
    (connected : (Port.ofEnv env port).isConnected 0 = true) (resets : ResetsEnd env)
    (unused : d.xhc.devmgr.devices slot = none) (hslot : slot.toNat ≤ d.xhc.devmgr.maxSlots)
    (ring : d.xhc.cr.buf ≠ 0#64) :
    ∃ d', d.configurePort env port = .ok (.kSuccess, d') ∧ At port slot .reset d'.xhc := by
  obtain ⟨h', hreset⟩ := Controller.reset_returns resets port d.xhc.host
  have hret : d.xhc.resetPort env port = .ok (.kSuccess, d.xhc.locked port h') := by
    unfold Controller.resetPort
    rw [if_neg (not_not_intro connected), if_neg (not_not_intro free),
      if_neg (fun h => h.1 phase)]
    exact Returns.bind_ok hreset _
  have hconfigure : d.xhc.configurePort env port = .ok (.kSuccess, d.xhc.locked port h') :=
    (if_pos phase).trans hret
  refine ⟨_, Returns.bind_ok hconfigure _, update_self _ _ _, fun _ => rfl, ?_, hslot, ring⟩
  show Awaited.reset.Holds (d.xhc.devmgr.devices slot)
  rw [unused]
  exact .reset

/-- What a driver gets to while a port is brought up: it handles the events that
the port waits for, and in between whatever is not about the port and its slot. -/
inductive AnsweredRun (port slot : BitVec 8) (d₀ : Driver) : Awaited → Driver → Prop
  | start : AnsweredRun port slot d₀ .reset d₀
  | bystander (run : AnsweredRun port slot d₀ a d) (call : d.Bystander port slot d') :
      AnsweredRun port slot d₀ a d'
  | answer (run : AnsweredRun port slot d₀ a d) (env : Env) (answers : Answers port slot env d a)
      (ret : d.processEvent env = .ok (err, d')) : AnsweredRun port slot d₀ a.next d'

/-- Once the port is being reset, the driver always knows what to wait for. -/
theorem AnsweredRun.at {port slot : BitVec 8} {a : Awaited} {d₀ d : Driver} (named : port ≠ 0#8)
    (start : At port slot .reset d₀.xhc) (run : AnsweredRun port slot d₀ a d) :
    At port slot a d.xhc := by
  induction run with
  | start => exact start
  | bystander _ call waits => exact waits.kept (call.kept named waits.begun)
  | answer _ env answers ret waits =>
      obtain ⟨d', hret, ht⟩ := waits.processEvent answers
      obtain ⟨_, rfl⟩ := Prod.mk.inj (Except.ok.inj (hret.symm.trans ret))
      exact ht

/-- **Progress**: whatever else goes on, what the port waits for is taken when it
comes (`Answers`), without an error, and brings it one step further. -/
theorem progress {port slot : BitVec 8} {a : Awaited} {d₀ d : Driver} (named : port ≠ 0#8)
    (start : At port slot .reset d₀.xhc) (run : AnsweredRun port slot d₀ a d) :
    At port slot a d.xhc ∧
      ∀ env, Answers port slot env d a →
        ∃ d', d.processEvent env = .ok (.kSuccess, d') ∧ At port slot a.next d'.xhc :=
  ⟨run.at named start, fun _ answers => (run.at named start).processEvent answers⟩

/-! ## a sample -/

namespace Driver

/-- The end of a transfer of the device in slot 1, with so much of its buffer
not filled. -/
def transferred (pointer : BitVec 64) (code : BitVec 8) (length : BitVec 24) : Trb :=
  TransferEventTRB.trbPointer.put (TransferEventTRB.trbTransferLength.put
    (transferEvent code 1#8) length) pointer

/-- It has sent something. -/
def sent (pointer : BitVec 64) (code : BitVec 8) (bytes : List (BitVec 8)) : Env :=
  let event := transferred pointer code (BitVec.ofNat 24 (256 - bytes.length))
  { seeing event (fun _ => true) 1#8 with
    mem := fun a => bytes.getD (a - 0x104088#64).toNat 0#8 }

/-- What is heard of a keyboard that is plugged into port 1.  In between port 2
has been reset. -/
def keyboardEvent : Nat → Env
  | 0 => seeing (portStatusChange 1#8) (fun _ => true) 0#8
  | 1 => seeing (completion 0 1#8 1#8) (fun _ => true) 0#8
  | 2 => seeing (completion 1 1#8 1#8) (fun _ => true) 1#8
  | 3 => seeing (portStatusChange 2#8) (fun _ => true) 1#8
  | 4 => sent 0x104e10#64 13#8 [18, 1]
  | 5 => sent 0x104e40#64 13#8 (InitRun.keyboardConfiguration [0x81])
  | 6 => sent 0x104e70#64 1#8 []
  | _ => seeing (completion 3 1#8 1#8) (fun _ => true) 1#8

/-- Port 2 waits until the keyboard has its address; so many events have been
handled since. -/
def keyboardAfter : Nat → Driver
  | 0 => (fresh.plugged 1#8).plugged 2#8
  | n + 1 => (keyboardAfter n).next (keyboardEvent n)

theorem resetsEnd_seeing (event : Trb) (port : BitVec 8) :
    ResetsEnd (seeing event (fun _ => true) port) :=
  fun _ => ⟨0, Nat.zero_lt_succ 7, show Portsc.portReset.get 0x200c03#32 ≠ 1#1 by decide⟩

theorem at_plugged : At 1#8 1#8 .reset (fresh.plugged 1#8).xhc := by
  obtain ⟨d', hret, hat⟩ := configurePort_begins (d := fresh) 1#8 1#8 rfl rfl
    (by decide) (resetsEnd_seeing 0#128 0#8) rfl (by decide) (by decide)
  have hplugged : fresh.plugged 1#8 = d' := by
    unfold plugged
    rw [hret]
  rw [hplugged]
  exact hat

/-- The device in slot 1 waits for the TRB that the event is about. -/
theorem exists_answered (d : Driver) (env : Env) (num : Nat)
    (code : Succeeded (TransferEventTRB.completionCode.get (d.event env)))
    (waits : (d.xhc.devmgr.devices 1#8).any (fun dev =>
      (dev.pipes.setupStageMap.get (TransferEventTRB.pointer (d.event env))).isSome &&
        (dev.pipes.base.buf, dev.pipes.base.numEpConfigs) == (0x104088#64, num)) = true) :
    ∃ dev, d.xhc.devmgr.devices 1#8 = some dev ∧ Answer dev.pipes (d.event env) ∧
      dev.pipes.base.buf = 0x104088#64 ∧ dev.pipes.base.numEpConfigs = num := by
  obtain ⟨dev, hdev, hwaits⟩ := (Option.any_eq_true _ _).mp waits
  obtain ⟨hpending, hbase⟩ := (Bool.and_eq_true _ _).mp hwaits
  obtain ⟨hbuf, hnum⟩ := Prod.mk.inj (eq_of_beq hbase)
  exact ⟨dev, hdev, ⟨code, Option.isSome_iff_ne_none.mp hpending⟩, hbuf, hnum⟩

/-- The configuration of the keyboard. -/
theorem offers_keyboard : Offers (keyboardEvent 5) 0x104088#64 25 [0x10409a#64] where
  type := by decide
  accepts := ⟨[], 0x104091#64, [0x10409a#64], _, .cons rfl (.cons rfl (.nil _)),
    List.forall_mem_nil _, ⟨by decide, by decide, by decide, .inl (by decide)⟩, rfl,
    by decide, by decide⟩
  few := by decide
  indices := List.forall_mem_singleton.mpr (by decide)

end Driver

theorem AnsweredRun.next {port slot : BitVec 8} {a : Awaited} {d₀ d : Driver} {env : Env}
    (named : port ≠ 0#8) (start : At port slot .reset d₀.xhc) (run : AnsweredRun port slot d₀ a d)
    (answers : Answers port slot env d a) : AnsweredRun port slot d₀ a.next (d.next env) := by
  obtain ⟨d', hret, _⟩ := (run.at named start).processEvent answers
  have hnext : d.next env = d' := by
    unfold Driver.next
    rw [hret]
  rw [hnext]
  exact .answer run env answers hret

section

open Driver

/-- What event `n` answers when its port is 1; the reset of event 3 is port 2's. -/
def keyboardAwaited : Nat → Awaited
  | 0 | 3 => .reset
  | 1 => .slot
  | 2 => .address
  | 4 => .deviceDescriptor
  | 5 => .configuration
  | 6 => .setting
  | _ => .endpoints

theorem answers_keyboard : ∀ n, n < 8 → n ≠ 3 →
    Answers 1#8 1#8 (keyboardEvent n) (keyboardAfter n) (keyboardAwaited n)
  | 0, _, _ =>
      .reset (by decide +kernel) (by decide +kernel) (by decide +kernel) (by decide) (by decide)
  | 1, _, _ =>
      .slot ⟨⟨by decide +kernel, by decide +kernel⟩, by decide +kernel, by decide +kernel⟩
        ⟨by decide +kernel, by decide +kernel⟩ (by decide +kernel)
  | 2, _, _ =>
      .address ⟨⟨by decide +kernel, by decide +kernel⟩, by decide +kernel, by decide +kernel⟩
        (by decide) (resetsEnd_seeing _ _)
  | 3, _, hport => absurd rfl hport
  | 4, _, _ => by
      obtain ⟨dev, hdev, hanswer, hbuf, _⟩ := exists_answered (keyboardAfter 4)
        (keyboardEvent 4) 0 (.inr (by decide +kernel)) (by decide +kernel)
      exact .deviceDescriptor ⟨by decide +kernel, by decide +kernel, by decide +kernel⟩ dev hdev
        hanswer (by rw [hbuf]; decide)
  | 5, _, _ => by
      obtain ⟨dev, hdev, hanswer, hbuf, _⟩ := exists_answered (keyboardAfter 5)
        (keyboardEvent 5) 0 (.inr (by decide +kernel)) (by decide +kernel)
      refine .configuration ⟨by decide +kernel, by decide +kernel, by decide +kernel⟩ dev hdev
        hanswer [0x10409a#64] ?_ ⟨by decide +kernel, by decide +kernel⟩ (by decide +kernel)
      have hfilled : (getDescriptorRequest dev.pipes.base kConfiguration).filled
          ((keyboardAfter 5).event (keyboardEvent 5)) = 25 := by
        unfold ControlRequest.filled getDescriptorRequest
        rw [hbuf]
        decide +kernel
      rw [hfilled, hbuf]
      exact offers_keyboard
  | 6, _, _ => by
      obtain ⟨dev, hdev, hanswer, _, hnum⟩ := exists_answered (keyboardAfter 6)
        (keyboardEvent 6) 1 (.inl (by decide +kernel)) (by decide +kernel)
      exact .setting ⟨by decide +kernel, by decide +kernel, by decide +kernel⟩ dev hdev hanswer
        (by decide) (by decide) ⟨by decide +kernel, by decide +kernel⟩
        (by rw [hnum]; decide +kernel)
  | 7, _, _ =>
      .endpoints ⟨⟨by decide +kernel, by decide +kernel⟩, by decide +kernel, by decide +kernel⟩
        (by decide)
  | n + 8, hn, _ => absurd hn (Nat.not_lt_of_le (Nat.le_add_left 8 n))

theorem processEvent_reset_second : (keyboardAfter 3).processEvent (keyboardEvent 3) =
    .ok (.kSuccess, keyboardAfter 4) := processEvent_next (by decide +kernel)

/-- The keyboard gets its address, and port 2 is reset. -/
theorem run_addressed :
    AnsweredRun 1#8 1#8 (fresh.plugged 1#8) .deviceDescriptor (keyboardAfter 4) := by
  have hwaiting : AnsweredRun 1#8 1#8 (fresh.plugged 1#8) .reset (keyboardAfter 0) :=
    .bystander .start (.configurePort _ 2#8
      (configurePort_plugged .kSuccess (by decide +kernel)))
  have haddressed := ((hwaiting.next (by decide) at_plugged
    (answers_keyboard 0 (by decide) (by decide))).next (by decide) at_plugged
    (answers_keyboard 1 (by decide) (by decide))).next (by decide) at_plugged
    (answers_keyboard 2 (by decide) (by decide))
  refine .bystander haddressed (.processEvent (keyboardEvent 3)
    (fun _ => ⟨fun _ port => ?_, fun type => ?_, fun type => ?_⟩) processEvent_reset_second)
  · exact absurd port (by decide +kernel)
  · exact absurd type (by decide +kernel)
  · exact absurd type (by decide +kernel)

/-- Its configuration is set while port 2 waits for a slot. -/
theorem progress_keyboard : ∃ d, AnsweredRun 1#8 1#8 (fresh.plugged 1#8) .nothing d ∧
    At 1#8 1#8 .nothing d.xhc := by
  have hconfigured := (((run_addressed.next (by decide) at_plugged
    (answers_keyboard 4 (by decide) (by decide))).next (by decide) at_plugged
    (answers_keyboard 5 (by decide) (by decide))).next (by decide) at_plugged
    (answers_keyboard 6 (by decide) (by decide))).next (by decide) at_plugged
    (answers_keyboard 7 (by decide) (by decide))
  exact ⟨_, hconfigured, (progress (by decide) at_plugged hconfigured).1⟩

end

end MikanOs.Usb.Xhci
