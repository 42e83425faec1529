import MikanOs.Usb.Xhci.PortPhases

/-!
# MikanOs.Usb.Xhci.Isolation

Devices do not get in each other's way.  `Kept` is what a call leaves alone of
a port and of the device in a slot; `Apart` says of an event that it is not
about them.  From the moment a port has got the lock, no call that is not about
it touches its phase, its device, or its hold on the lock, whatever else goes on
at the other ports (`isolation`).
-/

namespace MikanOs.Usb.Xhci

open Relation

namespace Controller

/-! ## what is left alone -/

/-- A port and a slot are as they were. -/
structure Kept (port slot : BitVec 8) (s t : Controller) : Prop where
  phase : t.portConfigPhase port = s.portConfigPhase port
  lock : t.addressingPort = port ↔ s.addressingPort = port
  device : t.devmgr.devices slot = s.devmgr.devices slot
  context : t.devmgr.deviceContextPointers slot = s.devmgr.deviceContextPointers slot
  maxSlots : t.devmgr.maxSlots = s.devmgr.maxSlots
  /-- the command ring stays where it is -/
  ring : t.cr.buf = s.cr.buf

/-- The port has had the lock, or has it. -/
def Begun (s : Controller) (port : BitVec 8) : Prop :=
  s.portConfigPhase port ≠ .kNotConnected ∧ s.portConfigPhase port ≠ .kWaitingAddressed

/-- An event is not about a port, nor about a slot.  A port status change
event of the port itself counts as one if it does not report the reset that is
waited for. -/
structure Apart (port slot : BitVec 8) (env : Env) (s : Controller) (trb : Trb) : Prop where
  status : TRB.trbType.get trb = PortStatusChangeEventTRB.type →
    PortStatusChangeEventTRB.portId.get trb = port → s.portConfigPhase port = .kResettingPort →
      ¬ ((Port.ofEnv env port).isEnabled 0 = true ∧ (Port.ofEnv env port).isPortResetChanged 1)
  transfer : TRB.trbType.get trb = TransferEventTRB.type →
    TransferEventTRB.slotId.get trb ≠ slot ∧
      contextPort env (TransferEventTRB.slotId.get trb) ≠ port
  command : TRB.trbType.get trb = CommandCompletionEventTRB.type →
    CommandCompletionEventTRB.slotId.get trb ≠ slot ∧
      if s.issuerType env trb = EnableSlotCommandTRB.type then
        s.portConfigPhase port ≠ .kEnablingSlot
      else contextPort env (CommandCompletionEventTRB.slotId.get trb) ≠ port

/-- An event passes by a port and a slot: it is not about them, and does not
hand the lock over to the port. -/
structure PassesBy (port slot : BitVec 8) (env : Env) (s : Controller) (trb : Trb) : Prop where
  status : TRB.trbType.get trb = PortStatusChangeEventTRB.type →
    PortStatusChangeEventTRB.portId.get trb = port → s.portConfigPhase port ≠ .kNotConnected ∧
      (s.portConfigPhase port = .kResettingPort →
        ¬ ((Port.ofEnv env port).isEnabled 0 = true ∧ (Port.ofEnv env port).isPortResetChanged 1))
  transfer : TRB.trbType.get trb = TransferEventTRB.type →
    TransferEventTRB.slotId.get trb ≠ slot ∧
      contextPort env (TransferEventTRB.slotId.get trb) ≠ port
  command : TRB.trbType.get trb = CommandCompletionEventTRB.type →
    CommandCompletionEventTRB.slotId.get trb ≠ slot ∧
      if s.issuerType env trb = EnableSlotCommandTRB.type then
        s.portConfigPhase port ≠ .kEnablingSlot
      else contextPort env (CommandCompletionEventTRB.slotId.get trb) ≠ port
  resumed : TRB.trbType.get trb = CommandCompletionEventTRB.type →
    s.issuerType env trb = AddressDeviceCommandTRB.type → s.firstWaiting ≠ some port

/-- A port that has had the lock is not handed it over again. -/
theorem Begun.ne_firstWaiting {s : Controller} {port : BitVec 8} (h : s.Begun port) :
    s.firstWaiting ≠ some port := fun first => h.2 (phase_firstWaiting first)

theorem Apart.passesBy {env : Env} {s : Controller} {port slot : BitVec 8} {trb : Trb}
    (h : Apart port slot env s trb) (begun : s.Begun port) : PassesBy port slot env s trb where
  status := fun type portId => ⟨begun.1, h.status type portId⟩
  transfer := h.transfer
  command := h.command
  resumed := fun _ _ => begun.ne_firstWaiting

namespace Kept

variable {env : Env} {port slot other slotId : BitVec 8} {s t u : Controller} {err : Error}

theorem refl (s : Controller) : Kept port slot s s := ⟨rfl, .rfl, rfl, rfl, rfl, rfl⟩

theorem trans (h : Kept port slot s t) (h' : Kept port slot t u) : Kept port slot s u where
  phase := h'.phase.trans h.phase
  lock := h'.lock.trans h.lock
  device := h'.device.trans h.device
  context := h'.context.trans h.context
  maxSlots := h'.maxSlots.trans h.maxSlots
  ring := h'.ring.trans h.ring

theorem begun (h : Kept port slot s t) (hs : s.Begun port) : t.Begun port := by
  rw [Begun, h.phase]
  exact hs

/-! ## the states left -/

theorem portAt (other : BitVec 8) : Kept port slot s (s.portAt other) :=
  ⟨rfl, .rfl, rfl, rfl, rfl, rfl⟩

theorem withHost (host : Host) : Kept port slot s { s with host := host } :=
  ⟨rfl, .rfl, rfl, rfl, rfl, rfl⟩

theorem setPhase (h : other ≠ port) (phase : ConfigPhase) :
    Kept port slot s (s.setPhase other phase) :=
  ⟨update_ne h.symm _ _, .rfl, rfl, rfl, rfl, rfl⟩

theorem setDevice (h : slotId ≠ slot) (dev : Device) (host : Host) :
    Kept port slot s (s.setDevice slotId dev host) :=
  ⟨rfl, .rfl, update_ne h.symm _ _, rfl, rfl, rfl⟩

theorem loaded (h : slotId ≠ slot) (dev : Device) (host : Host) :
    Kept port slot s (s.loaded slotId dev host) :=
  ⟨rfl, .rfl, update_ne h.symm _ _, update_ne h.symm _ _, rfl, rfl⟩

theorem issued (other : BitVec 8) (cmd : Trb) : Kept port slot s (s.issued other cmd) :=
  ⟨rfl, .rfl, rfl, rfl, rfl, Ring.push_buf _ _⟩

theorem locked (h : other ≠ port) (free : s.addressingPort ≠ port) (host : Host) :
    Kept port slot s (s.locked other host) :=
  ⟨update_ne h.symm _ _, iff_of_false h free, rfl, rfl, rfl, rfl⟩

/-- Another port gives the lock back. -/
theorem released (named : port ≠ 0#8) (free : s.addressingPort ≠ port) :
    Kept port slot s { s with addressingPort := 0#8 } :=
  ⟨rfl, iff_of_false named.symm free, rfl, rfl, rfl, rfl⟩

/-! ## the handlers -/

theorem of_resetPort (named : port ≠ 0#8) (h : other ≠ port)
    (ends : ResetPortEnds env s other err t) : Kept port slot s t := by
  cases ends with
  | absent => exact refl s
  | waiting => exact setPhase h _
  | refused => exact refl s
  | resetting _ free _ host => exact locked h (free ▸ named.symm) host

theorem of_addressDevice (h : other ≠ port) (hslot : slotId ≠ slot)
    (ends : AddressDeviceEnds s other slotId err t) : Kept port slot s t := by
  cases ends with
  | noSlot => exact refl s
  | addressing _ dev host => exact ((loaded hslot dev host).trans (setPhase h _)).trans (issued _ _)

theorem of_transfer (h : other ≠ port) (hslot : slotId ≠ slot)
    (ends : TransferEnds s other slotId err t) : Kept port slot s t := by
  cases ends with
  | noDevice => exact refl s
  | reported dev _ _ pipes host => exact setDevice hslot _ host
  | configure dev _ pipes host _ ends =>
      refine (setDevice hslot { dev with pipes := pipes } host).trans ?_
      cases ends with
      | unknownSpeed dev' host' => exact setDevice hslot dev' host'
      | configuring dev' host' =>
          exact ((setDevice hslot dev' host').trans (setPhase h _)).trans (issued _ _)

/-- Only the first port that waits is taken up. -/
theorem of_resumeWaiting (next : s.firstWaiting ≠ some port) (free : s.addressingPort ≠ port)
    (ends : ResumeWaitingEnds env s err t) : Kept port slot s t := by
  cases ends with
  | nobody => exact refl s
  | absent i => exact portAt i
  | resuming i first _ host =>
      refine locked ?_ free host
      rintro rfl
      exact next first

/-- Only a port status change event that reports the reset moves the port that
waits for it. -/
theorem of_portStatusChange (named : port ≠ 0#8)
    (passes : PortStatusChangeEventTRB.portId.get trb = port →
      s.portConfigPhase port ≠ .kNotConnected ∧ (s.portConfigPhase port = .kResettingPort →
        ¬ ((Port.ofEnv env port).isEnabled 0 = true ∧ (Port.ofEnv env port).isPortResetChanged 1)))
    (ret : s.onPortStatusChange env trb = .ok (err, t)) : Kept port slot s t := by
  by_cases h : PortStatusChangeEventTRB.portId.get trb = port
  · obtain ⟨hearlier, hreset⟩ := passes h
    unfold onPortStatusChange at ret
    simp only [h] at ret
    split at ret
    · next hphase => exact absurd hphase hearlier
    · next hphase =>
      have hearly : (s.portAt port).enableSlot env port = .ok (.kSuccess, s.portAt port) :=
        if_neg (hreset hphase)
      obtain ⟨_, rfl⟩ := Prod.mk.inj (Except.ok.inj (hearly.symm.trans ret))
      exact portAt port
    · obtain ⟨_, rfl⟩ := Returns.pure_mk_eq_ok.mp ret
      exact portAt port
  · refine (portAt (PortStatusChangeEventTRB.portId.get trb)).trans ?_
    cases onPortStatusChange_ends ret with
    | reset _ ends => exact of_resetPort named h ends
    | enable _ ends =>
        cases ends with
        | early => exact refl _
        | enabling host => exact ((withHost host).trans (setPhase h _)).trans (issued _ _)
    | refused => exact refl _

/-- The completion of an Address Device command of another port. -/
theorem of_addressed (named : port ≠ 0#8) (next : s.firstWaiting ≠ some port)
    (h : s.addressingPort ≠ port) (hslot : slotId ≠ slot) (dev : Device) (host : Host)
    (resumed : ResumeWaitingEnds env { s with addressingPort := 0#8 } .kSuccess u) :
    Kept port slot s
      ((u.setPhase s.addressingPort .kInitializingDevice).setDevice slotId dev host) := by
  have hreleased : Kept port slot s { s with addressingPort := 0#8 } := released named h
  have hresumed : Kept port slot { s with addressingPort := 0#8 } u :=
    of_resumeWaiting next named.symm resumed
  exact ((hreleased.trans hresumed).trans (setPhase h _)).trans (setDevice hslot dev host)

theorem of_commandCompletion {type : BitVec 6} (named : port ≠ 0#8)
    (next : type = AddressDeviceCommandTRB.type → s.firstWaiting ≠ some port)
    (hslot : slotId ≠ slot)
    (apart : if type = EnableSlotCommandTRB.type then s.portConfigPhase port ≠ .kEnablingSlot
      else other ≠ port)
    (ends : CommandCompletionEnds env s type other slotId err t) : Kept port slot s t := by
  cases ends with
  | notEnabling => exact refl s
  | enabled issuer phase ends =>
      rw [if_pos issuer] at apart
      refine of_addressDevice (fun h => ?_) hslot ends
      rw [h] at phase
      exact apart phase
  | noDevice => exact refl s
  | notAddressing => exact refl s
  | addressed issuer held phase resumed dev found pipes host =>
      rw [if_neg (by rw [issuer]; decide)] at apart
      subst held
      exact of_addressed named (next issuer) apart hslot _ host resumed
  | notConfiguring => exact refl s
  | configured issuer phase dev found pipes host =>
      rw [if_neg (by rw [issuer]; decide)] at apart
      exact (setDevice hslot _ host).trans (setPhase apart _)
  | unknown => exact refl s

/-- **An event** leaves alone what it passes by. -/
theorem of_event (named : port ≠ 0#8) (passes : PassesBy port slot env s trb)
    (ret : s.onEvent env trb = .ok (err, t)) : Kept port slot s t := by
  unfold onEvent at ret
  simp only at ret
  split at ret
  · next htype =>
    obtain ⟨hslot, hport⟩ := passes.transfer htype
    exact of_transfer hport hslot (onTransferEvent_ends ret)
  split at ret
  · next htype => exact of_portStatusChange named (passes.status htype) ret
  split at ret
  · next htype =>
    obtain ⟨hslot, hport⟩ := passes.command htype
    exact of_commandCompletion named (passes.resumed htype) hslot hport
      (onCommandCompletion_ends ret)
  · obtain ⟨_, rfl⟩ := Returns.pure_mk_eq_ok.mp ret
    exact refl s

/-- `ConfigurePort` of any port leaves one alone that has had the lock. -/
theorem of_configurePort (named : port ≠ 0#8) (begun : s.Begun port)
    (ret : s.configurePort env other = .ok (err, t)) : Kept port slot s t := by
  rcases configurePort_ends ret with ⟨_, rfl⟩ | ⟨hphase, ends⟩
  · exact refl t
  · refine of_resetPort named ?_ ends
    rintro rfl
    exact begun.1 hphase

end Kept

end Controller

/-! ## runs -/

namespace Driver

/-- A call that returns, and is not about a port and a slot. -/
inductive Bystander (port slot : BitVec 8) (d : Driver) : Driver → Prop
  | configurePort (env : Env) (other : BitVec 8)
      (ret : d.configurePort env other = .ok (err, d')) : Bystander port slot d d'
  | processEvent (env : Env)
      (apart : d.er.hasFront env 1 = true → Controller.Apart port slot env d.xhc (d.event env))
      (ret : d.processEvent env = .ok (err, d')) : Bystander port slot d d'

variable {port slot : BitVec 8} {d d' : Driver}

theorem Bystander.kept (named : port ≠ 0#8) (begun : d.xhc.Begun port)
    (h : Bystander port slot d d') : Controller.Kept port slot d.xhc d'.xhc := by
  cases h with
  | configurePort env other ret => exact .of_configurePort named begun (configurePort_ok ret)
  | processEvent env apart ret =>
      rcases processEvent_ends ret with ⟨_, _, rfl⟩ | ⟨hfront, hevent, _⟩
      · exact .refl _
      · exact .of_event named ((apart hfront).passesBy begun) hevent

/-- **Isolation**: calls that are not about a port and a slot leave both alone,
however many there are, once the port has got the lock. -/
theorem isolation (named : port ≠ 0#8) (begun : d.xhc.Begun port)
    (run : ReflTransGen (Bystander port slot) d d') :
    Controller.Kept port slot d.xhc d'.xhc := by
  induction run with
  | refl => exact .refl _
  | tail _ call kept => exact kept.trans (call.kept named (kept.begun begun))

/-! ## a sample -/

/-- Something is plugged into a port. -/
def plugged (port : BitVec 8) (d : Driver) : Driver :=
  match d.configurePort (seeing 0#128 (fun _ => true) 0#8) port with
  | .ok (_, d') => d'
  | .error _ => d

theorem configurePort_plugged {d : Driver} {port : BitVec 8} (err : Error)
    (h : (d.configurePort (seeing 0#128 (fun _ => true) 0#8) port).toOption.map Prod.fst =
      some err) :
    d.configurePort (seeing 0#128 (fun _ => true) 0#8) port = .ok (err, d.plugged port) := by
  unfold plugged
  cases hret : d.configurePort (seeing 0#128 (fun _ => true) 0#8) port with
  | error _ => rw [hret] at h; contradiction
  | ok r =>
      rw [hret] at h
      rw [← Option.some.inj h]

/-- Port 3 reports that something has been plugged in. -/
def pluggedThree : Env := seeing (portStatusChange 3#8) (fun _ => true) 0#8

/-- Port 1 is left alone while something is plugged into port 2 and, by an
event, into port 3. -/
theorem isolation_plugged : Controller.Kept 1#8 1#8 (fresh.plugged 1#8).xhc
    (((fresh.plugged 1#8).plugged 2#8).next pluggedThree).xhc := by
  have hsecond : Bystander 1#8 1#8 (fresh.plugged 1#8) ((fresh.plugged 1#8).plugged 2#8) :=
    .configurePort _ 2#8 (configurePort_plugged .kSuccess (by decide +kernel))
  have hthird : Bystander 1#8 1#8 ((fresh.plugged 1#8).plugged 2#8)
      (((fresh.plugged 1#8).plugged 2#8).next pluggedThree) := by
    refine .processEvent pluggedThree (fun _ => ⟨fun _ port => ?_, fun type => ?_, fun type => ?_⟩)
      (processEvent_next (show _ = some Error.kSuccess by decide +kernel))
    · exact absurd port (by decide +kernel)
    · exact absurd type (by decide +kernel)
    · exact absurd type (by decide +kernel)
  exact isolation (by decide) ⟨by decide +kernel, by decide +kernel⟩
    ((ReflTransGen.single hsecond).tail hthird)

/-- The event has been taken in: port 3 waits. -/
example : (((fresh.plugged 1#8).plugged 2#8).next pluggedThree).xhc.portConfigPhase 3#8 =
    .kWaitingAddressed := by decide +kernel

end Driver

end MikanOs.Usb.Xhci
