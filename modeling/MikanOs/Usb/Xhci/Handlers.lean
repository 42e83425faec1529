import MikanOs.Usb.Xhci.Controller

/-!
# MikanOs.Usb.Xhci.Handlers

What the functions of `MikanOs.Usb.Xhci.Controller` can do, said once for
each.  `…Ends` has one constructor for each way a function can return, with
the guards that lead there and the state it leaves; `…_ends` says that there
is no other way.  All that follows about the driver is derived from these,
never from the code again.
-/

namespace MikanOs.Usb.Xhci.Controller

/-! ## the states left -/

/-- The state after a command has been pushed. -/
def issued (s : Controller) (port : BitVec 8) (cmd : Trb) : Controller :=
  { s with
    cr := (s.cr.push cmd).2
    host := s.host.act (.doorbell 0#8 0#8)
    commands := s.commands ++ [(port, cmd)] }

/-- The state after a device has been given a slot and its context an entry
in the array. -/
def loaded (s : Controller) (slotId : BitVec 8) (dev : Device) (h : Host) : Controller :=
  { s with devmgr := s.devmgr.load slotId dev, host := h }

/-- The state after a port has taken the lock. -/
def locked (s : Controller) (port : BitVec 8) (h : Host) : Controller :=
  { s with addressingPort := port, host := h }.setPhase port .kResettingPort

theorem pushCommand_ok {s t : Controller} (ret : s.pushCommand port cmd = .ok t) :
    t = s.issued port cmd := by
  obtain ⟨⟨p, cr⟩, hpush, hret⟩ := Returns.bind_eq_ok.mp ret
  unfold Ring.tryPush at hpush
  split at hpush
  · exact absurd hpush Returns.throw_ne_ok
  · rw [Returns.pure_eq_ok] at hpush hret
    rw [← hret, issued, hpush]

/-! ## the phases of a port -/

/-- `ResetPort`. -/
inductive ResetPortEnds (env : Env) (s : Controller) (port : BitVec 8) : Error → Controller → Prop
  | absent (off : (Port.ofEnv env port).isConnected 0 = false) :
      ResetPortEnds env s port .kSuccess s
  | waiting (on : (Port.ofEnv env port).isConnected 0 = true) (held : s.addressingPort ≠ 0#8) :
      ResetPortEnds env s port .kSuccess (s.setPhase port .kWaitingAddressed)
  | refused (on : (Port.ofEnv env port).isConnected 0 = true) (free : s.addressingPort = 0#8)
      (late : s.portConfigPhase port ≠ .kNotConnected ∧
        s.portConfigPhase port ≠ .kWaitingAddressed) :
      ResetPortEnds env s port .kInvalidPhase s
  | resetting (on : (Port.ofEnv env port).isConnected 0 = true) (free : s.addressingPort = 0#8)
      (early : s.portConfigPhase port = .kNotConnected ∨
        s.portConfigPhase port = .kWaitingAddressed) (h : Host) :
      ResetPortEnds env s port .kSuccess (s.locked port h)

theorem resetPort_ends {s t : Controller} (ret : s.resetPort env port = .ok (err, t)) :
    ResetPortEnds env s port err t := by
  unfold resetPort at ret
  by_cases hon : (Port.ofEnv env port).isConnected 0 = true
  · rw [if_neg (not_not_intro hon)] at ret
    by_cases hheld : s.addressingPort = 0#8
    · rw [if_neg (not_not_intro hheld)] at ret
      split at ret
      · next hlate =>
        obtain ⟨rfl, rfl⟩ := Returns.pure_mk_eq_ok.mp ret
        exact .refused hon hheld hlate
      · next hlate =>
        simp only [ne_eq, Decidable.not_and_iff_not_or_not, Decidable.not_not] at hlate
        obtain ⟨h, _, hret⟩ := Returns.bind_eq_ok.mp ret
        obtain ⟨rfl, rfl⟩ := Returns.pure_mk_eq_ok.mp hret
        exact .resetting hon hheld hlate h
    · rw [if_pos hheld] at ret
      obtain ⟨rfl, rfl⟩ := Returns.pure_mk_eq_ok.mp ret
      exact .waiting hon hheld
  · rw [if_pos hon] at ret
    obtain ⟨rfl, rfl⟩ := Returns.pure_mk_eq_ok.mp ret
    exact .absent ((Bool.not_eq_true _).mp hon)

/-- `ResetPort` does not touch the table of devices. -/
theorem ResetPortEnds.devmgr {s t : Controller} (h : ResetPortEnds env s port err t) :
    t.devmgr = s.devmgr := by
  cases h <;> rfl

/-- `EnableSlot`. -/
inductive EnableSlotEnds (s : Controller) (port : BitVec 8) : Error → Controller → Prop
  | early : EnableSlotEnds s port .kSuccess s
  | enabling (h : Host) :
      EnableSlotEnds s port .kSuccess
        (({ s with host := h }.setPhase port .kEnablingSlot).issued port EnableSlotCommandTRB.new)

theorem enableSlot_ends {s t : Controller} (ret : s.enableSlot env port = .ok (err, t)) :
    EnableSlotEnds s port err t := by
  unfold enableSlot at ret
  simp only at ret
  split at ret
  · obtain ⟨u, hpush, hret⟩ := Returns.bind_eq_ok.mp ret
    obtain ⟨rfl, rfl⟩ := Returns.pure_mk_eq_ok.mp hret
    rw [pushCommand_ok hpush]
    exact .enabling _
  · obtain ⟨rfl, rfl⟩ := Returns.pure_mk_eq_ok.mp ret
    exact .early

/-- `AddressDevice`. -/
inductive AddressDeviceEnds (s : Controller) (port slotId : BitVec 8) : Error → Controller → Prop
  | noSlot (beyond : s.devmgr.maxSlots < slotId.toNat) :
      AddressDeviceEnds s port slotId .kInvalidSlotID s
  | addressing (slot : slotId.toNat ≤ s.devmgr.maxSlots) (dev : Device) (h : Host)
      (portNum : SlotContext.rootHubPortNum.get dev.inputCtx.slotContext = port) :
      AddressDeviceEnds s port slotId .kSuccess
        (((s.loaded slotId dev h).setPhase port .kAddressingDevice).issued port
          (AddressDeviceCommandTRB.new dev.inputContext slotId))

theorem rootHubPortNum_initializeSlotContext (ctx : BitVec 256) (port : Port) :
    SlotContext.rootHubPortNum.get (initializeSlotContext ctx port) = port.portNum := by
  unfold initializeSlotContext
  rw [BitField.get_put_of_disjoint (by decide), BitField.get_put_of_disjoint (by decide),
    BitField.get_put]

theorem addressSlot_ends {s t : Controller} (hslot : slotId.toNat ≤ s.devmgr.maxSlots)
    (ret : s.addressSlot env port slotId dev = .ok (err, t)) :
    AddressDeviceEnds s port slotId err t := by
  obtain ⟨⟨tr, pipes, h⟩, _, hrest⟩ := Returns.bind_eq_ok.mp ret
  cases tr with
  | none => exact absurd hrest Returns.throw_ne_ok
  | some tr =>
      obtain ⟨⟨_, m⟩, hload, hrest⟩ := Returns.bind_eq_ok.mp hrest
      obtain ⟨u, hpush, hret⟩ := Returns.bind_eq_ok.mp hrest
      obtain ⟨rfl, rfl⟩ := Returns.pure_mk_eq_ok.mp hret
      obtain ⟨_, rfl⟩ := Prod.mk.inj
        (Except.ok.inj (hload.symm.trans (DeviceManager.loadDCBAA_set hslot _)))
      rw [pushCommand_ok hpush]
      exact .addressing hslot ⟨_, addressInput env port dev.inputCtx tr, pipes⟩ h
        (rootHubPortNum_initializeSlotContext _ _)

theorem addressDevice_ends {s t : Controller}
    (ret : s.addressDevice env port slotId = .ok (err, t)) :
    AddressDeviceEnds s port slotId err t := by
  obtain ⟨⟨_, m, h⟩, halloc, hrest⟩ := Returns.bind_eq_ok.mp ret
  simp only at hrest
  rcases DeviceManager.allocDevice_ok halloc with ⟨hbeyond, rfl, rfl⟩ | ⟨hslot, dev, rfl⟩
  · have hnone : s.devmgr.findBySlot slotId = none := if_pos hbeyond
    rw [hnone] at hrest
    obtain ⟨rfl, rfl⟩ := Returns.pure_mk_eq_ok.mp hrest
    exact .noSlot hbeyond
  · rw [DeviceManager.findBySlot_set hslot] at hrest
    cases addressSlot_ends (s := { s with devmgr := s.devmgr.set slotId dev, host := h })
      hslot hrest with
    | noSlot beyond => exact absurd hslot (Nat.not_le_of_lt beyond)
    | addressing _ dev' h' portNum =>
        rw [loaded, DeviceManager.load_set]
        exact .addressing hslot dev' h' portNum

/-- `InitializeDevice`. -/
inductive InitializeDeviceEnds (s : Controller) (port slotId : BitVec 8) :
    Error → Controller → Prop
  | noDevice (none : s.devmgr.findBySlot slotId = none) :
      InitializeDeviceEnds s port slotId .kInvalidSlotID s
  | initializing (dev : Device) (found : s.devmgr.findBySlot slotId = some dev) (pipes : Pipes)
      (h : Host) :
      InitializeDeviceEnds s port slotId .kSuccess
        ((s.setPhase port .kInitializingDevice).setDevice slotId { dev with pipes := pipes } h)

theorem initializeDevice_ends {s t : Controller}
    (ret : s.initializeDevice port slotId = .ok (err, t)) :
    InitializeDeviceEnds s port slotId err t := by
  unfold initializeDevice at ret
  cases hfound : s.devmgr.findBySlot slotId with
  | none =>
      rw [hfound] at ret
      obtain ⟨rfl, rfl⟩ := Returns.pure_mk_eq_ok.mp ret
      exact .noDevice hfound
  | some dev =>
      rw [hfound] at ret
      obtain ⟨⟨_, pipes, h⟩, _, hret⟩ := Returns.bind_eq_ok.mp ret
      obtain ⟨rfl, rfl⟩ := Returns.pure_mk_eq_ok.mp hret
      exact .initializing dev hfound pipes h

/-- `CompleteConfiguration`. -/
inductive CompleteConfigurationEnds (s : Controller) (port slotId : BitVec 8) :
    Error → Controller → Prop
  | noDevice (none : s.devmgr.findBySlot slotId = none) :
      CompleteConfigurationEnds s port slotId .kInvalidSlotID s
  | configured (dev : Device) (found : s.devmgr.findBySlot slotId = some dev) (pipes : Pipes)
      (h : Host) :
      CompleteConfigurationEnds s port slotId .kSuccess
        ((s.setDevice slotId { dev with pipes := pipes } h).setPhase port .kConfigured)

theorem completeConfiguration_ends {s t : Controller}
    (ret : s.completeConfiguration port slotId = .ok (err, t)) :
    CompleteConfigurationEnds s port slotId err t := by
  unfold completeConfiguration at ret
  cases hfound : s.devmgr.findBySlot slotId with
  | none =>
      rw [hfound] at ret
      obtain ⟨rfl, rfl⟩ := Returns.pure_mk_eq_ok.mp ret
      exact .noDevice hfound
  | some dev =>
      rw [hfound] at ret
      obtain ⟨⟨_, pipes, h⟩, _, hret⟩ := Returns.bind_eq_ok.mp ret
      obtain ⟨rfl, rfl⟩ := Returns.pure_mk_eq_ok.mp hret
      exact .configured dev hfound pipes h

/-- `ConfigureEndpoints`, for a port read from the device context. -/
inductive ConfigureEndpointsEnds (s : Controller) (port slotId : BitVec 8) :
    Error → Controller → Prop
  | unknownSpeed (dev : Device) (h : Host) :
      ConfigureEndpointsEnds s port slotId .kUnknownXHCISpeedID (s.setDevice slotId dev h)
  | configuring (dev : Device) (h : Host) (input : BitVec 64) (slot : BitVec 8) :
      ConfigureEndpointsEnds s port slotId .kSuccess
        (((s.setDevice slotId dev h).setPhase port .kConfiguringEndpoints).issued port
          (ConfigureEndpointCommandTRB.new input slot))

theorem configureEndpoints_ends {s t : Controller}
    (ret : s.configureEndpoints env slotId dev = .ok (err, t)) :
    ConfigureEndpointsEnds s (SlotContext.rootHubPortNum.get (env.slotContext slotId)) slotId
      err t := by
  unfold configureEndpoints at ret
  simp only at ret
  split at ret
  · obtain ⟨rfl, rfl⟩ := Returns.pure_mk_eq_ok.mp ret
    exact .unknownSpeed _ _
  · obtain ⟨⟨dev', h⟩, _, hrest⟩ := Returns.bind_eq_ok.mp ret
    obtain ⟨u, hpush, hret⟩ := Returns.bind_eq_ok.mp hrest
    obtain ⟨rfl, rfl⟩ := Returns.pure_mk_eq_ok.mp hret
    rw [pushCommand_ok hpush]
    exact .configuring dev' h _ _

/-! ## events -/

/-- `OnEvent(PortStatusChangeEventTRB)`. -/
inductive PortStatusChangeEnds (env : Env) (s : Controller) (port : BitVec 8) :
    Error → Controller → Prop
  | reset (phase : s.portConfigPhase port = .kNotConnected)
      (ends : ResetPortEnds env (s.portAt port) port err t) :
      PortStatusChangeEnds env s port err t
  | enable (phase : s.portConfigPhase port = .kResettingPort)
      (ends : EnableSlotEnds (s.portAt port) port err t) :
      PortStatusChangeEnds env s port err t
  | refused (late : s.portConfigPhase port ≠ .kNotConnected)
      (other : s.portConfigPhase port ≠ .kResettingPort) :
      PortStatusChangeEnds env s port .kInvalidPhase (s.portAt port)

theorem onPortStatusChange_ends {s t : Controller}
    (ret : s.onPortStatusChange env trb = .ok (err, t)) :
    PortStatusChangeEnds env s (PortStatusChangeEventTRB.portId.get trb) err t := by
  unfold onPortStatusChange at ret
  simp only at ret
  generalize PortStatusChangeEventTRB.portId.get trb = port at ret ⊢
  split at ret
  · next hphase => exact .reset hphase (resetPort_ends ret)
  · next hphase => exact .enable hphase (enableSlot_ends ret)
  · next hlate hother =>
    obtain ⟨rfl, rfl⟩ := Returns.pure_mk_eq_ok.mp ret
    exact .refused hlate hother

/-- `OnEvent(TransferEventTRB)` for a slot whose device context names a
port. -/
inductive TransferEnds (s : Controller) (port slotId : BitVec 8) : Error → Controller → Prop
  | noDevice (none : s.devmgr.findBySlot slotId = none) :
      TransferEnds s port slotId .kInvalidSlotID s
  | reported (dev : Device) (found : s.devmgr.findBySlot slotId = some dev) (err : Error)
      (pipes : Pipes) (h : Host) :
      TransferEnds s port slotId err (s.setDevice slotId { dev with pipes := pipes } h)
  | configure (dev : Device) (found : s.devmgr.findBySlot slotId = some dev) (pipes : Pipes)
      (h : Host) (phase : s.portConfigPhase port = .kInitializingDevice)
      (ends : ConfigureEndpointsEnds (s.setDevice slotId { dev with pipes := pipes } h) port slotId
        err t) :
      TransferEnds s port slotId err t

theorem onTransferEvent_ends {s t : Controller} (ret : s.onTransferEvent env trb = .ok (err, t)) :
    TransferEnds s
      (SlotContext.rootHubPortNum.get (env.slotContext (TransferEventTRB.slotId.get trb)))
      (TransferEventTRB.slotId.get trb) err t := by
  unfold onTransferEvent at ret
  simp only at ret
  generalize TransferEventTRB.slotId.get trb = slotId at ret ⊢
  cases hfound : s.devmgr.findBySlot slotId with
  | none =>
      rw [hfound] at ret
      obtain ⟨rfl, rfl⟩ := Returns.pure_mk_eq_ok.mp ret
      exact .noDevice hfound
  | some dev =>
      rw [hfound] at ret
      obtain ⟨⟨e, pipes, h⟩, _, hrest⟩ := Returns.bind_eq_ok.mp ret
      simp only at hrest
      split at hrest
      · obtain ⟨rfl, rfl⟩ := Returns.pure_mk_eq_ok.mp hrest
        exact .reported dev hfound _ pipes h
      · split at hrest
        · next hphase =>
          exact .configure dev hfound pipes h hphase.2 (configureEndpoints_ends hrest)
        · obtain ⟨rfl, rfl⟩ := Returns.pure_mk_eq_ok.mp hrest
          exact .reported dev hfound _ pipes h

/-- The port found waiting does wait. -/
theorem phase_firstWaiting {s : Controller} (h : s.firstWaiting = some i) :
    s.portConfigPhase i = .kWaitingAddressed := by
  simpa using List.find?_some h

/-- None found means none waits. -/
theorem firstWaiting_eq_none {s : Controller} (h : s.firstWaiting = none) (i : BitVec 8) :
    s.portConfigPhase i ≠ .kWaitingAddressed := by
  have hmem : i ∈ (List.range 256).map (BitVec.ofNat 8) :=
    List.mem_map.mpr ⟨i.toNat, List.mem_range.mpr i.isLt, by
      rw [BitVec.ofNat_toNat, BitVec.setWidth_eq]⟩
  simpa using List.find?_eq_none.mp h i hmem

/-- What comes of the ports that wait when the lock has been given back:
only the first of them is looked at, and it cannot be refused. -/
inductive ResumeWaitingEnds (env : Env) (s : Controller) : Error → Controller → Prop
  | nobody (none : s.firstWaiting = none) : ResumeWaitingEnds env s .kSuccess s
  | absent (i : BitVec 8) (first : s.firstWaiting = some i)
      (off : (Port.ofEnv env i).isConnected 0 = false) :
      ResumeWaitingEnds env s .kSuccess (s.portAt i)
  | resuming (i : BitVec 8) (first : s.firstWaiting = some i)
      (on : (Port.ofEnv env i).isConnected 0 = true) (h : Host) :
      ResumeWaitingEnds env s .kSuccess (s.locked i h)

theorem ResumeWaitingEnds.eq_kSuccess {s t : Controller} (h : ResumeWaitingEnds env s err t) :
    err = .kSuccess ∧ t.devmgr = s.devmgr := by
  cases h <;> exact ⟨rfl, rfl⟩

theorem resumeWaiting_ends {s t : Controller} (free : s.addressingPort = 0#8)
    (ret : s.resumeWaiting env = .ok (err, t)) : ResumeWaitingEnds env s err t := by
  unfold resumeWaiting at ret
  cases hfirst : s.firstWaiting with
  | none =>
      rw [hfirst] at ret
      obtain ⟨rfl, rfl⟩ := Returns.pure_mk_eq_ok.mp ret
      exact .nobody hfirst
  | some i =>
      rw [hfirst] at ret
      cases resetPort_ends ret with
      | absent off => exact .absent i hfirst off
      | waiting _ held => exact absurd free held
      | refused _ _ late => exact absurd (phase_firstWaiting hfirst) late.2
      | resetting on _ _ h => exact .resuming i hfirst on h

/-- `OnEvent(CommandCompletionEventTRB)`, with the type of the issuer, the
slot, and the port the device context of the slot names. -/
inductive CommandCompletionEnds (env : Env) (s : Controller) (issuerType : BitVec 6)
    (port slotId : BitVec 8) : Error → Controller → Prop
  | notEnabling (issuer : issuerType = EnableSlotCommandTRB.type)
      (phase : s.portConfigPhase s.addressingPort ≠ .kEnablingSlot) :
      CommandCompletionEnds env s issuerType port slotId .kInvalidPhase s
  | enabled (issuer : issuerType = EnableSlotCommandTRB.type)
      (phase : s.portConfigPhase s.addressingPort = .kEnablingSlot)
      (ends : AddressDeviceEnds s s.addressingPort slotId err t) :
      CommandCompletionEnds env s issuerType port slotId err t
  | noDevice (issuer : issuerType = AddressDeviceCommandTRB.type ∨
        issuerType = ConfigureEndpointCommandTRB.type)
      (none : s.devmgr.findBySlot slotId = none) :
      CommandCompletionEnds env s issuerType port slotId .kInvalidSlotID s
  | notAddressing (issuer : issuerType = AddressDeviceCommandTRB.type)
      (other : port ≠ s.addressingPort ∨ s.portConfigPhase port ≠ .kAddressingDevice) :
      CommandCompletionEnds env s issuerType port slotId .kInvalidPhase s
  | addressed (issuer : issuerType = AddressDeviceCommandTRB.type)
      (held : port = s.addressingPort) (phase : s.portConfigPhase port = .kAddressingDevice)
      (resumed : ResumeWaitingEnds env { s with addressingPort := 0#8 } .kSuccess u)
      (dev : Device) (found : s.devmgr.findBySlot slotId = some dev) (pipes : Pipes) (h : Host) :
      CommandCompletionEnds env s issuerType port slotId .kSuccess
        ((u.setPhase port .kInitializingDevice).setDevice slotId { dev with pipes := pipes } h)
  | notConfiguring (issuer : issuerType = ConfigureEndpointCommandTRB.type)
      (phase : s.portConfigPhase port ≠ .kConfiguringEndpoints) :
      CommandCompletionEnds env s issuerType port slotId .kInvalidPhase s
  | configured (issuer : issuerType = ConfigureEndpointCommandTRB.type)
      (phase : s.portConfigPhase port = .kConfiguringEndpoints)
      (dev : Device) (found : s.devmgr.findBySlot slotId = some dev) (pipes : Pipes) (h : Host) :
      CommandCompletionEnds env s issuerType port slotId .kSuccess
        ((s.setDevice slotId { dev with pipes := pipes } h).setPhase port .kConfigured)
  | unknown (enable : issuerType ≠ EnableSlotCommandTRB.type)
      (address : issuerType ≠ AddressDeviceCommandTRB.type)
      (configure : issuerType ≠ ConfigureEndpointCommandTRB.type) :
      CommandCompletionEnds env s issuerType port slotId .kInvalidPhase s

/-- The branch for an Address Device command. -/
theorem CommandCompletionEnds.of_addressDevice {s t : Controller} {issuer : BitVec 6}
    {port slotId : BitVec 8} (haddress : issuer = AddressDeviceCommandTRB.type) {dev : Device}
    (hfound : s.devmgr.findBySlot slotId = some dev)
    (ret : (if port ≠ s.addressingPort then pure (.kInvalidPhase, s)
      else if s.portConfigPhase port ≠ .kAddressingDevice then pure (.kInvalidPhase, s)
      else do
        let (err, s) ← { s with addressingPort := 0#8 }.resumeWaiting env
        if err ≠ .kSuccess then pure (err, s) else s.initializeDevice port slotId :
          Except Fault (Error × Controller)) = .ok (err, t)) :
    CommandCompletionEnds env s issuer port slotId err t := by
  by_cases hheld : port = s.addressingPort
  · rw [if_neg (not_not_intro hheld)] at ret
    by_cases hphase : s.portConfigPhase port = .kAddressingDevice
    · rw [if_neg (not_not_intro hphase)] at ret
      obtain ⟨⟨e, u⟩, hresume, hrest⟩ := Returns.bind_eq_ok.mp ret
      have hresumed := resumeWaiting_ends rfl hresume
      obtain ⟨rfl, hdevmgr⟩ := hresumed.eq_kSuccess
      cases initializeDevice_ends hrest with
      | noDevice none =>
          rw [hdevmgr, hfound] at none
          contradiction
      | initializing dev' found pipes h =>
          rw [hdevmgr] at found
          exact .addressed haddress hheld hphase hresumed dev' found pipes h
    · rw [if_pos hphase] at ret
      obtain ⟨rfl, rfl⟩ := Returns.pure_mk_eq_ok.mp ret
      exact .notAddressing haddress (.inr hphase)
  · rw [if_pos hheld] at ret
    obtain ⟨rfl, rfl⟩ := Returns.pure_mk_eq_ok.mp ret
    exact .notAddressing haddress (.inl hheld)

/-- The branch for a Configure Endpoint command. -/
theorem CommandCompletionEnds.of_configureEndpoint {s t : Controller} {issuer : BitVec 6}
    {port slotId : BitVec 8} (hconfigure : issuer = ConfigureEndpointCommandTRB.type) {dev : Device}
    (hfound : s.devmgr.findBySlot slotId = some dev)
    (ret : (if s.portConfigPhase port ≠ .kConfiguringEndpoints then pure (.kInvalidPhase, s)
      else s.completeConfiguration port slotId : Except Fault (Error × Controller)) =
        .ok (err, t)) :
    CommandCompletionEnds env s issuer port slotId err t := by
  by_cases hphase : s.portConfigPhase port = .kConfiguringEndpoints
  · rw [if_neg (not_not_intro hphase)] at ret
    cases completeConfiguration_ends ret with
    | noDevice none =>
        rw [hfound] at none
        contradiction
    | configured dev' found pipes h => exact .configured hconfigure hphase dev' found pipes h
  · rw [if_pos hphase] at ret
    obtain ⟨rfl, rfl⟩ := Returns.pure_mk_eq_ok.mp ret
    exact .notConfiguring hconfigure hphase

theorem onCommandCompletion_ends {s t : Controller}
    (ret : s.onCommandCompletion env trb = .ok (err, t)) :
    CommandCompletionEnds env s
      (TRB.trbType.get (s.trbAt env (CommandCompletionEventTRB.pointer trb)))
      (SlotContext.rootHubPortNum.get
        (env.slotContext (CommandCompletionEventTRB.slotId.get trb)))
      (CommandCompletionEventTRB.slotId.get trb) err t := by
  unfold onCommandCompletion at ret
  simp only at ret
  generalize TRB.trbType.get (s.trbAt env (CommandCompletionEventTRB.pointer trb)) = issuer at ret ⊢
  generalize CommandCompletionEventTRB.slotId.get trb = slotId at ret ⊢
  generalize SlotContext.rootHubPortNum.get (env.slotContext slotId) = port at ret ⊢
  by_cases henable : issuer = EnableSlotCommandTRB.type
  · rw [if_pos henable] at ret
    split at ret
    · next hphase =>
      obtain ⟨rfl, rfl⟩ := Returns.pure_mk_eq_ok.mp ret
      exact .notEnabling henable hphase
    · next hphase =>
      exact .enabled henable (Decidable.not_not.mp hphase) (addressDevice_ends ret)
  rw [if_neg henable] at ret
  by_cases haddress : issuer = AddressDeviceCommandTRB.type
  · rw [if_pos haddress] at ret
    cases hfound : s.devmgr.findBySlot slotId with
    | none =>
        rw [hfound] at ret
        obtain ⟨rfl, rfl⟩ := Returns.pure_mk_eq_ok.mp ret
        exact .noDevice (.inl haddress) hfound
    | some dev =>
        rw [hfound] at ret
        exact .of_addressDevice haddress hfound ret
  rw [if_neg haddress] at ret
  by_cases hconfigure : issuer = ConfigureEndpointCommandTRB.type
  · rw [if_pos hconfigure] at ret
    cases hfound : s.devmgr.findBySlot slotId with
    | none =>
        rw [hfound] at ret
        obtain ⟨rfl, rfl⟩ := Returns.pure_mk_eq_ok.mp ret
        exact .noDevice (.inr hconfigure) hfound
    | some dev =>
        rw [hfound] at ret
        exact .of_configureEndpoint hconfigure hfound ret
  · rw [if_neg hconfigure] at ret
    obtain ⟨rfl, rfl⟩ := Returns.pure_mk_eq_ok.mp ret
    exact .unknown henable haddress hconfigure

/-- The port the device context of a slot names. -/
def contextPort (env : Env) (slotId : BitVec 8) : BitVec 8 :=
  SlotContext.rootHubPortNum.get (env.slotContext slotId)

/-- The type of the command a completion event points at. -/
def issuerType (env : Env) (s : Controller) (trb : Trb) : BitVec 6 :=
  TRB.trbType.get (s.trbAt env (CommandCompletionEventTRB.pointer trb))

/-- An event, by its type. -/
inductive EventEnds (env : Env) (s : Controller) (trb : Trb) : Error → Controller → Prop
  | transfer (type : TRB.trbType.get trb = TransferEventTRB.type)
      (ends : TransferEnds s (contextPort env (TransferEventTRB.slotId.get trb))
        (TransferEventTRB.slotId.get trb) err t) : EventEnds env s trb err t
  | portStatusChange (type : TRB.trbType.get trb = PortStatusChangeEventTRB.type)
      (ends : PortStatusChangeEnds env s (PortStatusChangeEventTRB.portId.get trb) err t) :
      EventEnds env s trb err t
  | commandCompletion (type : TRB.trbType.get trb = CommandCompletionEventTRB.type)
      (ends : CommandCompletionEnds env s (s.issuerType env trb)
        (contextPort env (CommandCompletionEventTRB.slotId.get trb))
        (CommandCompletionEventTRB.slotId.get trb) err t) : EventEnds env s trb err t
  | unknown : EventEnds env s trb .kNotImplemented s

theorem onEvent_ends {s t : Controller} (ret : s.onEvent env trb = .ok (err, t)) :
    EventEnds env s trb err t := by
  unfold onEvent at ret
  simp only at ret
  split at ret
  · next htype => exact .transfer htype (onTransferEvent_ends ret)
  split at ret
  · next htype => exact .portStatusChange htype (onPortStatusChange_ends ret)
  split at ret
  · next htype => exact .commandCompletion htype (onCommandCompletion_ends ret)
  · obtain ⟨rfl, rfl⟩ := Returns.pure_mk_eq_ok.mp ret
    exact .unknown

theorem configurePort_ends {s t : Controller} (ret : s.configurePort env port = .ok (err, t)) :
    (err = .kSuccess ∧ t = s) ∨
      (s.portConfigPhase port = .kNotConnected ∧ ResetPortEnds env s port err t) := by
  unfold configurePort at ret
  split at ret
  · next hphase => exact .inr ⟨hphase, resetPort_ends ret⟩
  · obtain ⟨rfl, rfl⟩ := Returns.pure_mk_eq_ok.mp ret
    exact .inl ⟨rfl, rfl⟩

end MikanOs.Usb.Xhci.Controller
