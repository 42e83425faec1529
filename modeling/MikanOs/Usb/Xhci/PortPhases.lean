import Mathlib.Data.Set.Insert
import MikanOs.Usb.Xhci.Addressing
import MikanOs.Usb.Xhci.EventRing
import MikanOs.Usb.Xhci.Handlers

/-!
# MikanOs.Usb.Xhci.PortPhases

The driver brings up ports as `MikanOs.Usb.Xhci.Addressing` says: every call
of `ConfigurePort` and of `ProcessEvent`, whatever it reads, is one move of
that machine or none.  Port 0 is no port: its entry in the table of phases
stays `kNotConnected`, which is what turns away events about it.
-/

namespace MikanOs.Usb.Xhci

open Relation

/-! ## types of commands -/

@[simp] theorem EnableSlotCommandTRB.trbType_new :
    TRB.trbType.get EnableSlotCommandTRB.new = EnableSlotCommandTRB.type := by decide

@[simp] theorem AddressDeviceCommandTRB.trbType_new (input : BitVec 64) (slot : BitVec 8) :
    TRB.trbType.get (AddressDeviceCommandTRB.new input slot) = AddressDeviceCommandTRB.type := by
  unfold AddressDeviceCommandTRB.new TRB.ofType
  rw [BitField.get_put_of_disjoint (by decide), BitField.get_put_of_disjoint (by decide),
    BitField.get_put]

@[simp] theorem AddressDeviceCommandTRB.slotId_new (input : BitVec 64) (slot : BitVec 8) :
    AddressDeviceCommandTRB.slotId.get (AddressDeviceCommandTRB.new input slot) = slot := by
  unfold AddressDeviceCommandTRB.new
  rw [BitField.get_put_of_disjoint (by decide), BitField.get_put]

@[simp] theorem ConfigureEndpointCommandTRB.trbType_new (input : BitVec 64) (slot : BitVec 8) :
    TRB.trbType.get (ConfigureEndpointCommandTRB.new input slot) =
      ConfigureEndpointCommandTRB.type := by
  unfold ConfigureEndpointCommandTRB.new TRB.ofType
  rw [BitField.get_put_of_disjoint (by decide), BitField.get_put_of_disjoint (by decide),
    BitField.get_put]

namespace Controller

/-! ## the driver as a machine -/

/-- The variables of the driver as the abstract machine has them. -/
def ports (s : Controller) : Ports (BitVec 8) where
  phase := s.portConfigPhase
  lock := if s.addressingPort = 0#8 then none else some s.addressingPort
  issued := s.commands.map fun c => (c.1, TRB.trbType.get c.2)

theorem ports_setPhase (s : Controller) (port : BitVec 8) (phase : ConfigPhase) :
    (s.setPhase port phase).ports = s.ports.move port phase := rfl

theorem ports_issued (s : Controller) (port : BitVec 8) (cmd : Trb) :
    (s.issued port cmd).ports = s.ports.issue port (TRB.trbType.get cmd) := by
  unfold issued ports Ports.issue
  simp only [List.map_append, List.map_cons, List.map_nil]

theorem lock_eq_none {s : Controller} : s.ports.lock = none ↔ s.addressingPort = 0#8 := by
  simp [ports]

theorem lock_eq_some {s : Controller} (h : port ≠ 0#8) :
    s.ports.lock = some port ↔ s.addressingPort = port := by
  simp only [ports]
  split
  · next h0 => exact ⟨fun hn => by simp at hn, fun he => absurd (he.symm.trans h0) h⟩
  · exact ⟨Option.some.inj, fun he => congrArg some he⟩

theorem ports_locked (h : port ≠ 0#8) (s : Controller) (host : Host) :
    (s.locked port host).ports =
      { s.ports with lock := some port }.move port .kResettingPort := by
  unfold locked
  rw [ports_setPhase]
  simp only [ports, if_neg h]

/-- What one call may do: nothing to the ports or one move, which only a
call that succeeds makes; and push commands, each of them on record. -/
structure Moves (s : Controller) (err : Error) (t : Controller) : Prop where
  ports : t.ports = s.ports ∨ (err = .kSuccess ∧ Ports.Step s.ports t.ports)
  zero : t.portConfigPhase 0#8 = .kNotConnected
  pushed : ∃ cmds, t.commands = s.commands ++ cmds ∧ t.cr = (s.cr.pushAll (cmds.map Prod.snd)).2

namespace Moves

variable {s t : Controller} (h0 : s.portConfigPhase 0#8 = .kNotConnected)

include h0

/-- Nothing happens to the ports. -/
theorem stay (hports : t.ports = s.ports) (hcommands : t.commands = s.commands)
    (hcr : t.cr = s.cr) : Moves s err t where
  ports := .inl hports
  zero := (congrFun (congrArg Ports.phase hports) 0#8).trans h0
  pushed := ⟨[], by rw [hcommands, List.append_nil], hcr⟩

/-- A port with a phase other than the first is not port 0. -/
theorem ne_zero (hphase : s.portConfigPhase port ≠ .kNotConnected) : port ≠ 0#8 := by
  rintro rfl
  exact hphase h0

/-- `ResetPort` of a port that is not connected. -/
theorem of_resetPort (hport : port ≠ 0#8) (hphase : s.portConfigPhase port = .kNotConnected)
    (h : ResetPortEnds env s port err t) : Moves s err t := by
  have hzero : ∀ phase, update s.portConfigPhase port phase 0#8 = .kNotConnected := fun phase =>
    (update_ne hport.symm _ _).trans h0
  cases h with
  | absent _ => exact stay h0 rfl rfl rfl
  | waiting _ held =>
      have hheld : s.ports.lock ≠ none := mt lock_eq_none.mp held
      exact ⟨.inr ⟨rfl, .wait port hphase hheld⟩, hzero _, [], (List.append_nil _).symm, rfl⟩
  | refused _ _ late => exact absurd hphase late.1
  | resetting _ free early host =>
      refine ⟨.inr ⟨rfl, ?_⟩, hzero _, [], (List.append_nil _).symm, rfl⟩
      rw [ports_locked hport]
      exact .reset port early (lock_eq_none.mpr free)

/-- A command moves a port on. -/
theorem of_issued (hport : port ≠ 0#8) {u : Controller} (hports : u.ports = s.ports)
    (hcommands : u.commands = s.commands) (hcr : u.cr = s.cr)
    (hstep : Ports.Step s.ports ((s.ports.move port phase).issue port (TRB.trbType.get cmd))) :
    Moves s .kSuccess ((u.setPhase port phase).issued port cmd) where
  ports := by
    rw [ports_issued, ports_setPhase, hports]
    exact .inr ⟨rfl, hstep⟩
  zero := by
    have hzero : u.portConfigPhase 0#8 = .kNotConnected :=
      (congrFun (congrArg Ports.phase hports) 0#8).trans h0
    exact (update_ne hport.symm _ _).trans hzero
  pushed := by
    refine ⟨[(port, cmd)], ?_, ?_⟩
    · exact congrArg (· ++ [(port, cmd)]) hcommands
    · exact congrArg (fun r : Ring => (r.push cmd).2) hcr

/-- `EnableSlot` of a port being reset. -/
theorem of_enableSlot (hphase : s.portConfigPhase port = .kResettingPort)
    (h : EnableSlotEnds s port err t) : Moves s err t := by
  have hport : port ≠ 0#8 := ne_zero h0 (by rw [hphase]; decide)
  cases h with
  | early => exact stay h0 rfl rfl rfl
  | enabling host => exact of_issued h0 hport rfl rfl rfl (by simpa using .enable port hphase)

/-- `AddressDevice` of a port that waits for its slot. -/
theorem of_addressDevice (hphase : s.portConfigPhase port = .kEnablingSlot)
    (h : AddressDeviceEnds s port slotId err t) : Moves s err t := by
  have hport : port ≠ 0#8 := ne_zero h0 (by rw [hphase]; decide)
  cases h with
  | noSlot _ => exact stay h0 rfl rfl rfl
  | addressing _ dev host _ =>
      exact of_issued h0 hport rfl rfl rfl (by simpa using .address port hphase)

/-- A transfer event. -/
theorem of_transfer (h : TransferEnds s port slotId err t) : Moves s err t := by
  cases h with
  | noDevice _ => exact stay h0 rfl rfl rfl
  | reported => exact stay h0 rfl rfl rfl
  | configure dev _ pipes host hphase ends =>
      have hport : port ≠ 0#8 := ne_zero h0 (by rw [hphase]; decide)
      cases ends with
      | unknownSpeed => exact stay h0 rfl rfl rfl
      | configuring =>
          exact of_issued h0 hport rfl rfl rfl (by simpa using .configure port hphase)

/-- A port status change event about a port there is. -/
theorem of_portStatusChange (hport : port ≠ 0#8) (h : PortStatusChangeEnds env s port err t) :
    Moves s err t := by
  cases h with
  | reset hphase ends =>
      obtain ⟨ports, zero, pushed⟩ := of_resetPort (s := s.portAt port) h0 hport hphase ends
      exact ⟨ports, zero, pushed⟩
  | enable hphase ends =>
      obtain ⟨ports, zero, pushed⟩ := of_enableSlot (s := s.portAt port) h0 hphase ends
      exact ⟨ports, zero, pushed⟩
  | refused _ _ => exact stay h0 rfl rfl rfl

/-- The lock changes hands, or is given back. -/
theorem of_addressed (held : port = s.addressingPort)
    (hphase : s.portConfigPhase port = .kAddressingDevice)
    (resumed : ResumeWaitingEnds env { s with addressingPort := 0#8 } e u) (h : Host) :
    Moves s .kSuccess ((u.setPhase port .kInitializingDevice).setDevice slotId dev h) := by
  have hport : port ≠ 0#8 := ne_zero h0 (by rw [hphase]; decide)
  have hlock : s.ports.lock = some port := (lock_eq_some hport).mpr held.symm
  have hzero : ∀ {v : Controller}, v.portConfigPhase 0#8 = .kNotConnected →
      (v.setPhase port .kInitializingDevice).portConfigPhase 0#8 = .kNotConnected := fun hv =>
    (update_ne hport.symm _ _).trans hv
  cases resumed with
  | nobody _ =>
      exact ⟨.inr ⟨rfl, .release port hphase hlock⟩, hzero h0, [], (List.append_nil _).symm, rfl⟩
  | absent i _ _ =>
      exact ⟨.inr ⟨rfl, .release port hphase hlock⟩, hzero h0, [], (List.append_nil _).symm, rfl⟩
  | resuming i first _ host' =>
      have hwaiting : s.portConfigPhase i = .kWaitingAddressed := phase_firstWaiting first
      have hi : i ≠ 0#8 := ne_zero h0 (by rw [hwaiting]; decide)
      refine ⟨.inr ⟨rfl, ?_⟩, hzero ((update_ne hi.symm _ _).trans h0), [],
        (List.append_nil _).symm, rfl⟩
      have hstep := Ports.Step.handOver port i hphase hlock hwaiting
      have hlocked := ports_locked hi { s with addressingPort := 0#8 } host'
      show Ports.Step s.ports
        ((locked { s with addressingPort := 0#8 } i host').ports.move port .kInitializingDevice)
      rw [hlocked]
      exact hstep

/-- A command completion event. -/
theorem of_commandCompletion (h : CommandCompletionEnds env s type port slotId err t) :
    Moves s err t := by
  cases h with
  | notEnabling => exact stay h0 rfl rfl rfl
  | enabled _ hphase ends => exact of_addressDevice h0 hphase ends
  | noDevice => exact stay h0 rfl rfl rfl
  | notAddressing => exact stay h0 rfl rfl rfl
  | addressed _ held hphase resumed => exact of_addressed h0 held hphase resumed _
  | notConfiguring => exact stay h0 rfl rfl rfl
  | configured _ hphase =>
      have hport : port ≠ 0#8 := ne_zero h0 (by rw [hphase]; decide)
      exact ⟨.inr ⟨rfl, .complete port hphase⟩, (update_ne hport.symm _ _).trans h0, [],
        (List.append_nil _).symm, rfl⟩
  | unknown => exact stay h0 rfl rfl rfl

/-- **Any event** is one move or none. -/
theorem of_event (hport : TRB.trbType.get trb = PortStatusChangeEventTRB.type →
      PortStatusChangeEventTRB.portId.get trb ≠ 0#8)
    (h : EventEnds env s trb err t) : Moves s err t := by
  cases h with
  | transfer _ ends => exact of_transfer h0 ends
  | portStatusChange type ends => exact of_portStatusChange h0 (hport type) ends
  | commandCompletion _ ends => exact of_commandCompletion h0 ends
  | unknown => exact stay h0 rfl rfl rfl

/-- **`ConfigurePort`** is one move or none. -/
theorem of_configurePort (hport : port ≠ 0#8) (ret : s.configurePort env port = .ok (err, t)) :
    Moves s err t := by
  rcases configurePort_ends ret with ⟨_, rfl⟩ | ⟨hphase, ends⟩
  · exact stay h0 rfl rfl rfl
  · exact of_resetPort h0 hport hphase ends

end Moves

/-! ## calls into the driver -/

/-- No port has been touched, and no command pushed. -/
structure Untouched (s : Controller) : Prop where
  phase : ∀ p, s.portConfigPhase p = .kNotConnected
  addressingPort : s.addressingPort = 0#8
  commands : s.commands = []

/-- What holds of the controller whenever no call is in progress, if its
command ring was `r` at first. -/
structure Orderly (r : Ring) (s : Controller) : Prop where
  inv : s.ports.Inv
  zero : s.portConfigPhase 0#8 = .kNotConnected
  pushed : s.cr = (r.pushAll (s.commands.map Prod.snd)).2

namespace Orderly

/-- The port in an exclusive phase is the one that holds the lock. -/
theorem lock_eq {s : Controller} (h : Orderly r s)
    (hphase : (s.portConfigPhase port).exclusive = true) : s.addressingPort = port := by
  refine (lock_eq_some ?_).mp ((h.inv.exclusive port).mp hphase)
  rintro rfl
  rw [h.zero] at hphase
  contradiction

/-- The port that holds the lock is in an exclusive phase. -/
theorem exclusive_lock {s : Controller} (h : Orderly r s) (held : s.addressingPort ≠ 0#8) :
    (s.portConfigPhase s.addressingPort).exclusive = true :=
  (h.inv.exclusive _).mpr ((lock_eq_some held).mpr rfl)

/-- A port that has left the exclusive phases does not hold the lock. -/
theorem ne_lock {s : Controller} (h : Orderly r s)
    (hphase : (s.portConfigPhase port).exclusive = false)
    (hnot : s.portConfigPhase port ≠ .kNotConnected) : s.addressingPort ≠ port := by
  rintro rfl
  refine hnot ?_
  by_cases held : s.addressingPort = 0#8
  · rw [held, h.zero]
  · rw [h.exclusive_lock held] at hphase
    contradiction

end Orderly

theorem Untouched.orderly {s : Controller} (h : s.Untouched) : Orderly s.cr s where
  inv := by
    have hports : s.ports = Ports.start (BitVec 8) := by
      simp only [ports, Ports.start, h.addressingPort, h.commands, funext h.phase, if_true,
        List.map_nil]
    rw [hports]
    exact Ports.start_inv
  zero := h.phase 0#8
  pushed := by rw [h.commands]; rfl

/-- One move or none keeps what holds. -/
theorem Orderly.moves {s t : Controller} (h : Orderly r s) (hmoves : Moves s err t) :
    Orderly r t where
  inv := by
    rcases hmoves.ports with hsame | ⟨_, hstep⟩
    · rw [hsame]
      exact h.inv
    · exact Ports.step_inv _ _ h.inv hstep
  zero := hmoves.zero
  pushed := by
    obtain ⟨cmds, hcommands, hcr⟩ := hmoves.pushed
    rw [hcr, h.pushed, hcommands, List.map_append, Ring.pushAll_append]

end Controller

namespace Driver

/-- A port there is: ports are numbered from 1. -/
def PortOk (d : Driver) (port : BitVec 8) : Prop :=
  1 ≤ port.toNat ∧ port.toNat ≤ d.xhc.maxPorts.toNat

theorem PortOk.ne_zero {d : Driver} (h : d.PortOk port) : port ≠ 0#8 := by
  rintro rfl
  exact absurd h.1 (by decide)

/-- The event at the front of the event ring, as `ProcessEvent` reads it. -/
def event (env : Env) (d : Driver) : Trb := env.trb (d.er.readDequeuePointer env 2)

/-- A port status change event, if one is found, is about a port there is. -/
def EventOk (env : Env) (d : Driver) : Prop :=
  d.er.hasFront env 1 = true →
    TRB.trbType.get (d.event env) = PortStatusChangeEventTRB.type →
      d.PortOk (PortStatusChangeEventTRB.portId.get (d.event env))

/-- One call that returns, whatever it reads. -/
inductive Call (d : Driver) : Error → Driver → Prop
  | configurePort (env : Env) (port : BitVec 8) (range : d.PortOk port)
      (ret : d.configurePort env port = .ok (err, d')) : Call d err d'
  | processEvent (env : Env) (range : d.EventOk env)
      (ret : d.processEvent env = .ok (err, d')) : Call d err d'

/-- A call, whatever it returns. -/
def Step (d d' : Driver) : Prop := ∃ err, Call d err d'

/-- `ProcessEvent` handles the event at the front, or does nothing. -/
theorem processEvent_ends {d d' : Driver} (ret : d.processEvent env = .ok (err, d')) :
    (d.er.hasFront env 1 = false ∧ err = .kSuccess ∧ d' = d) ∨
      (d.er.hasFront env 1 = true ∧ d.xhc.onEvent env (d.event env) = .ok (err, d'.xhc) ∧
        d'.er = d.er.pop env 3) := by
  unfold processEvent at ret
  split at ret
  · next hfront =>
    obtain ⟨rfl, rfl⟩ := Returns.pure_mk_eq_ok.mp ret
    exact .inl ⟨(Bool.not_eq_true _).mp hfront, rfl, rfl⟩
  · next hfront =>
    obtain ⟨⟨e, xhc⟩, hevent, hret⟩ := Returns.bind_eq_ok.mp ret
    obtain ⟨rfl, rfl⟩ := Returns.pure_mk_eq_ok.mp hret
    exact .inr ⟨Decidable.not_not.mp hfront, hevent, rfl⟩

theorem processEvent_of {d : Driver} {xhc : Controller} {err : Error}
    (found : d.er.hasFront env 1 = true)
    (ret : d.xhc.onEvent env (d.event env) = .ok (err, xhc)) :
    d.processEvent env = .ok (err, ⟨xhc, d.er.pop env 3⟩) := by
  unfold processEvent
  rw [if_neg (not_not_intro found)]
  exact Returns.bind_ok ret _

theorem configurePort_ok {d d' : Driver} (ret : d.configurePort env port = .ok (err, d')) :
    d.xhc.configurePort env port = .ok (err, d'.xhc) := by
  obtain ⟨⟨e, xhc⟩, hcall, hret⟩ := Returns.bind_eq_ok.mp ret
  obtain ⟨rfl, rfl⟩ := Returns.pure_mk_eq_ok.mp hret
  exact hcall

/-- **A call is one move of the machine or none.** -/
theorem Call.moves {d d' : Driver} (h0 : d.xhc.portConfigPhase 0#8 = .kNotConnected)
    (h : Call d err d') : Controller.Moves d.xhc err d'.xhc := by
  cases h with
  | configurePort env port range ret =>
      exact .of_configurePort h0 range.ne_zero (configurePort_ok ret)
  | processEvent env range ret =>
      rcases processEvent_ends ret with ⟨_, rfl, rfl⟩ | ⟨hfront, hevent, _⟩
      · exact .stay h0 rfl rfl rfl
      · exact .of_event h0 (fun type => (range hfront type).ne_zero)
          (Controller.onEvent_ends hevent)

/-- What holds whenever no call is in progress. -/
theorem orderly {d₀ d : Driver} (h : d₀.xhc.Untouched) (hrun : ReflTransGen Step d₀ d) :
    Controller.Orderly d₀.xhc.cr d.xhc := by
  have hstep : ∀ s t : Driver, Controller.Orderly d₀.xhc.cr s.xhc → Step s t →
      Controller.Orderly d₀.xhc.cr t.xhc := by
    rintro s t hs ⟨err, hcall⟩
    exact hs.moves (hcall.moves hs.zero)
  exact Run.invariant hstep h.orderly hrun

/-! ## running calls -/

instance (d : Driver) (port : BitVec 8) : Decidable (d.PortOk port) :=
  inferInstanceAs (Decidable (_ ∧ _))

instance (env : Env) (d : Driver) : Decidable (d.EventOk env) :=
  inferInstanceAs (Decidable (_ → _ → _))

/-- Make calls one after another: `ConfigurePort` of a port, or
`ProcessEvent`. -/
def follow (d : Driver) : List (Env × Option (BitVec 8)) → Option Driver
  | [] => some d
  | (env, some port) :: cs =>
      if d.PortOk port then
        match d.configurePort env port with
        | .ok (_, d') => d'.follow cs
        | .error _ => none
      else none
  | (env, none) :: cs =>
      if d.EventOk env then
        match d.processEvent env with
        | .ok (_, d') => d'.follow cs
        | .error _ => none
      else none

/-- Calls made one after another are a run. -/
theorem run_of_follow {d d' : Driver} {cs : List (Env × Option (BitVec 8))}
    (h : d.follow cs = some d') : ReflTransGen Step d d' := by
  induction cs generalizing d with
  | nil =>
      obtain rfl := Option.some.inj h
      exact .refl
  | cons c cs ih =>
      obtain ⟨env, _ | port⟩ := c
      · rw [follow] at h
        split at h
        · next hok =>
          split at h
          · next hret => exact .head ⟨_, .processEvent env hok hret⟩ (ih h)
          · contradiction
        · contradiction
      · rw [follow] at h
        split at h
        · next hok =>
          split at h
          · next hret => exact .head ⟨_, .configurePort env port hok hret⟩ (ih h)
          · contradiction
        · contradiction

/-- Where the calls lead, if all of them return. -/
theorem follow_getD {d : Driver} {cs : List (Env × Option (BitVec 8))}
    (h : (d.follow cs).isSome = true) : d.follow cs = some ((d.follow cs).getD d) := by
  obtain ⟨d', hd'⟩ := Option.isSome_iff_exists.mp h
  rw [hd']
  rfl

/-- The state after a `ProcessEvent` that returns. -/
def next (env : Env) (d : Driver) : Driver :=
  match d.processEvent env with
  | .ok (_, d') => d'
  | .error _ => d

theorem processEvent_next {d : Driver} (h : (d.processEvent env).toOption.map Prod.fst = some err) :
    d.processEvent env = .ok (err, d.next env) := by
  unfold next
  cases hret : d.processEvent env with
  | error _ => rw [hret] at h; contradiction
  | ok r =>
      rw [hret] at h
      obtain rfl := Option.some.inj h
      rfl

/-! ## a sample -/

/-- A driver that has just been initialized, with scratchpad buffers for the
controller. -/
def fresh : Driver where
  xhc := .untouched 4#8
    { DeviceManager.empty 8 with
      deviceContextPointers := update (fun _ => 0#64) 0#8 0x100100#64 }
    ⟨0x103000#64, 32, fun _ => 0#128, true, 0⟩ ⟨0x103410#64, []⟩
  er :=
    { buf := 0x103200#64
      bufSize := 32
      cycleBit := true
      erst := ⟨0x103200#64, 32#16⟩
      erdp := 0x103200#64
      erdpWrites := [(0#64, 0x103200#64)] }

theorem fresh_untouched : fresh.xhc.Untouched := ⟨fun _ => rfl, rfl, rfl⟩

/-- A port status change event. -/
def portStatusChange (port : BitVec 8) : Trb :=
  PortStatusChangeEventTRB.portId.put (TRB.ofType PortStatusChangeEventTRB.type) port

/-- The completion of the command in entry `k` of the command ring of
`fresh`. -/
def completion (k : Nat) (code slotId : BitVec 8) : Trb :=
  let event := CommandCompletionEventTRB.commandTrbPointer.put
    (TRB.ofType CommandCompletionEventTRB.type) ((entryAt 0x103000#64 k >>> 4).setWidth 60)
  CommandCompletionEventTRB.slotId.put
    (CommandCompletionEventTRB.completionCode.put event code) slotId

/-- An event waits; some ports are connected, enabled and reset, and every
device context names one port. -/
def seeing (event : Trb) (connected : BitVec 8 → Bool) (port : BitVec 8) : Env :=
  { Env.zero poolAtMiB with
    trb := fun _ => TRB.withCycle event true
    portsc := fun p _ => if connected p then 0x200c03#32 else 0#32
    slotContext := fun _ => SlotContext.rootHubPortNum.put 0#256 port }

/-- Ports 1 to 3 are configured; port 1 is reset, and given slot 1. -/
def configureThree : List (Env × Option (BitVec 8)) :=
  [(seeing 0#128 (fun _ => true) 0#8, some 1#8),
    (seeing 0#128 (fun _ => true) 0#8, some 2#8),
    (seeing 0#128 (fun _ => true) 0#8, some 3#8),
    (seeing (portStatusChange 1#8) (fun _ => true) 0#8, none),
    (seeing (completion 0 1#8 1#8) (fun _ => true) 0#8, none)]

/-- Port 1 is being addressed, and ports 2 and 3 wait. -/
def threePorts : Driver := (fresh.follow configureThree).getD fresh

theorem run_threePorts : ReflTransGen Step fresh threePorts :=
  run_of_follow (follow_getD (by decide +kernel))

/-! ## what follows for every run -/

/-- **Port addressing is mutually exclusive.** -/
theorem mutual_exclusion {d₀ d : Driver} (h : d₀.xhc.Untouched) (hrun : ReflTransGen Step d₀ d) :
    {p | (d.xhc.portConfigPhase p).exclusive = true} =
      if d.xhc.addressingPort = 0#8 then ∅ else {d.xhc.addressingPort} := by
  have hinv := (orderly h hrun).inv.exclusive
  ext p
  rw [Set.mem_ofPred_eq]
  refine (hinv p).trans ?_
  show (if d.xhc.addressingPort = 0#8 then none else some d.xhc.addressingPort) = some p ↔ _
  split
  · simp
  · rw [Option.some.injEq, Set.mem_singleton_iff, eq_comm]

/-- While port 1 is being addressed, it is the only one. -/
theorem mutual_exclusion_threePorts :
    {p | (threePorts.xhc.portConfigPhase p).exclusive = true} = {1#8} := by
  have hlock : threePorts.xhc.addressingPort = 1#8 := by decide +kernel
  have hset := mutual_exclusion fresh_untouched run_threePorts
  rwa [hlock] at hset

theorem addressingPort_eq {s t : Controller} (h : t.ports = s.ports) :
    t.addressingPort = s.addressingPort := by
  have hlock : t.ports.lock = s.ports.lock := congrArg Ports.lock h
  by_cases h0 : s.addressingPort = 0#8
  · rw [h0]
    exact Controller.lock_eq_none.mp (hlock.trans (Controller.lock_eq_none.mpr h0))
  · exact (Controller.lock_eq_some h0).mp (hlock.trans ((Controller.lock_eq_some h0).mpr rfl))

/-- The commands pushed on behalf of a port, by type. -/
def commandsFor (d : Driver) (port : BitVec 8) : List (BitVec 6) :=
  (d.xhc.commands.filter fun c => c.1 = port).map fun c => TRB.trbType.get c.2

theorem commandsFor_eq (d : Driver) (port : BitVec 8) :
    d.commandsFor port = d.xhc.ports.issuedFor port := by
  simp only [commandsFor, Ports.issuedFor, Controller.ports, List.filter_map, List.map_map]
  rfl

/-- What every run keeps to: a call moves each port by one edge at most, and
none when it returns `kInvalidPhase`; the commands pushed for a port are the
first of Enable Slot, Address Device and Configure Endpoint; and `commands`
is all that has been pushed to the command ring. -/
structure Forward (d₀ d : Driver) : Prop where
  phases : ∀ err d', Call d err d' → ∀ p, d'.xhc.portConfigPhase p = d.xhc.portConfigPhase p ∨
    (d.xhc.portConfigPhase p).Next (d'.xhc.portConfigPhase p)
  refused : ∀ d', Call d .kInvalidPhase d' → d'.xhc.portConfigPhase = d.xhc.portConfigPhase ∧
    d'.xhc.addressingPort = d.xhc.addressingPort
  commands : ∀ port, d.commandsFor port <+: bringUp
  pushed : d.xhc.cr = (d₀.xhc.cr.pushAll (d.xhc.commands.map Prod.snd)).2

/-- **Port phases only move forward, and each command is issued at most
once** for a port. -/
theorem forward {d₀ d : Driver} (h : d₀.xhc.Untouched) (hrun : ReflTransGen Step d₀ d) :
    Forward d₀ d := by
  have hd := orderly h hrun
  refine ⟨fun err d' hcall p => ?_, fun d' hcall => ?_, fun port => ?_, hd.pushed⟩
  · rcases (hcall.moves hd.zero).ports with hsame | ⟨_, hstep⟩
    · exact .inl (congrFun (congrArg Ports.phase hsame) p)
    · exact hstep.next p
  · rcases (hcall.moves hd.zero).ports with hsame | ⟨herr, _⟩
    · exact ⟨congrArg Ports.phase hsame, addressingPort_eq hsame⟩
    · exact absurd herr (by decide)
  · rw [commandsFor_eq, hd.inv.issued port]
    exact List.take_prefix _ _

/-- Port 1 has had two commands. -/
theorem forward_threePorts : Forward fresh threePorts ∧ threePorts.commandsFor 1#8 =
    [EnableSlotCommandTRB.type, AddressDeviceCommandTRB.type] :=
  ⟨forward fresh_untouched run_threePorts, by decide +kernel⟩

end Driver

end MikanOs.Usb.Xhci
