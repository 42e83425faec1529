import MikanOs.Usb.Xhci.PortPhases

/-!
# MikanOs.Usb.Xhci.CommandCompletion

What becomes of the completion of a command: who takes over the lock when an
address has been assigned, what the completion of a failed command does, and
which completion can reach entry 0 of the device context array.

None of the handlers looks at the completion code, the lock goes to no one
if the first of the waiting ports has been unplugged, and slot 0 counts as a
slot.  The theorems say exactly when this shows.
-/

namespace MikanOs.Usb.Xhci

open Relation

namespace Controller

/-! ## the first port that waits -/

/-- Ports with a lower number than the one found do not wait. -/
theorem firstWaiting_lowest {s : Controller} (h : s.firstWaiting = some i) {p : BitVec 8}
    (hp : p < i) : s.portConfigPhase p ≠ .kWaitingAddressed := by
  unfold firstWaiting at h
  rw [List.find?_map, Option.map_eq_some_iff] at h
  obtain ⟨k, hk, rfl⟩ := h
  obtain ⟨_, _, hbelow⟩ := List.find?_range_eq_some.mp hk
  have hlt : p.toNat < k := Nat.lt_of_lt_of_le hp (by
    rw [BitVec.toNat_ofNat]
    exact Nat.mod_le _ _)
  have hnot := hbelow p.toNat hlt
  simpa [BitVec.ofNat_toNat] using hnot

/-- A port that waits below which none waits is the one found. -/
theorem eq_of_lowest {s : Controller} (h : s.firstWaiting = some i) {q : BitVec 8}
    (hq : s.portConfigPhase q = .kWaitingAddressed)
    (hlowest : ∀ p, p < q → s.portConfigPhase p ≠ .kWaitingAddressed) : q = i := by
  have hge : ¬ q < i := fun hlt => firstWaiting_lowest h hlt hq
  have hle : ¬ i < q := fun hlt => hlowest i hlt (phase_firstWaiting h)
  exact BitVec.le_antisymm (BitVec.not_lt.mp hle) (BitVec.not_lt.mp hge)

end Controller

namespace Driver

/-- `ProcessEvent` is about to handle a command completion event. -/
structure Completes (env : Env) (d : Driver) : Prop where
  found : d.er.hasFront env 1 = true
  type : TRB.trbType.get (d.event env) = CommandCompletionEventTRB.type

/-- The type of the command it completes. -/
def issuer (env : Env) (d : Driver) : BitVec 6 := d.xhc.issuerType env (d.event env)

/-- The slot it reports. -/
def slot (env : Env) (d : Driver) : BitVec 8 := CommandCompletionEventTRB.slotId.get (d.event env)

/-- Its completion code. -/
def code (env : Env) (d : Driver) : BitVec 8 :=
  CommandCompletionEventTRB.completionCode.get (d.event env)

/-- `Success`. -/
def success : BitVec 8 := 1#8

/-- Handling it is handling a command completion. -/
theorem Completes.onCommandCompletion {d : Driver} (h : d.Completes env) :
    d.processEvent env = (do
      let (err, xhc) ← d.xhc.onCommandCompletion env (d.event env)
      pure (err, ⟨xhc, d.er.pop env 3⟩)) := by
  have hevent : d.xhc.onEvent env (d.event env) =
      d.xhc.onCommandCompletion env (d.event env) := by
    unfold Controller.onEvent
    simp only [h.type]
    rfl
  rw [processEvent, if_neg (not_not_intro h.found), ← hevent]
  rfl

theorem Completes.ends {d d' : Driver} (h : d.Completes env)
    (ret : d.processEvent env = .ok (err, d')) :
    Controller.CommandCompletionEnds env d.xhc (d.issuer env)
      (Controller.contextPort env (d.slot env)) (d.slot env) err d'.xhc := by
  rw [h.onCommandCompletion] at ret
  obtain ⟨⟨e, xhc⟩, hcall, hret⟩ := Returns.bind_eq_ok.mp ret
  obtain ⟨rfl, rfl⟩ := Returns.pure_mk_eq_ok.mp hret
  exact Controller.onCommandCompletion_ends hcall

/-! ## who takes over the lock -/

/-- A port waits to be addressed, and what was plugged into it is still
there. -/
structure Waits (env : Env) (d : Driver) (port : BitVec 8) : Prop where
  phase : d.xhc.portConfigPhase port = .kWaitingAddressed
  connected : (Port.ofEnv env port).isConnected 0 = true

/-- A port has taken the lock and is being reset. -/
structure TakenUp (d : Driver) (port : BitVec 8) : Prop where
  phase : d.xhc.portConfigPhase port = .kResettingPort
  lock : d.xhc.ports.lock = some port

theorem not_takenUp {d : Driver} (h : d.xhc.addressingPort = 0#8) (port : BitVec 8) :
    ¬ d.TakenUp port := by
  rintro ⟨_, hlock⟩
  rw [Controller.lock_eq_none.mpr h] at hlock
  contradiction

/-- **The lock goes to a port that waits** exactly when, if a connected one
waits, the lowest-numbered one that waits is connected. -/
theorem takenUp_iff {d₀ d d' : Driver} (h : d₀.xhc.Untouched) (hrun : ReflTransGen Step d₀ d)
    (hevent : d.Completes env) (hissuer : d.issuer env = AddressDeviceCommandTRB.type)
    (ret : d.processEvent env = .ok (.kSuccess, d')) :
    ((∃ q, d.Waits env q) → ∃ q, d.Waits env q ∧ d'.TakenUp q) ↔
      ((∃ q, d.Waits env q) → ∃ q, d.Waits env q ∧
        ∀ p, p < q → d.xhc.portConfigPhase p ≠ .kWaitingAddressed) := by
  have hzero := (orderly h hrun).zero
  obtain ⟨t, er⟩ := d'
  have hends := hevent.ends ret
  generalize Controller.contextPort env (d.slot env) = port at hends
  rw [hissuer] at hends
  -- a handler that succeeds has passed the lock on or given it back
  cases hends with
  | enabled issuer => exact absurd issuer (by decide)
  | configured issuer => exact absurd issuer (by decide)
  | addressed _ held phase resumed dev found pipes host =>
      cases resumed with
      | nobody none =>
          have hnobody : ¬ ∃ q, d.Waits env q := fun ⟨q, hq⟩ =>
            Controller.firstWaiting_eq_none none q hq.phase
          exact ⟨fun _ hq => absurd hq hnobody, fun _ hq => absurd hq hnobody⟩
      | absent i first off =>
          constructor
          · rintro htaken hq
            obtain ⟨q, _, hq⟩ := htaken hq
            exact absurd hq (not_takenUp rfl q)
          · rintro hlowest hq
            obtain ⟨q, hq, hbelow⟩ := hlowest hq
            obtain rfl := Controller.eq_of_lowest first hq.phase hbelow
            rw [hq.connected] at off
            contradiction
      | resuming i first on host' =>
          have hwaits : d.Waits env i := ⟨Controller.phase_firstWaiting first, on⟩
          have hne : i ≠ port := by
            rintro rfl
            rw [hwaits.phase] at phase
            contradiction
          have hi : i ≠ 0#8 := Controller.Moves.ne_zero hzero (by rw [hwaits.phase]; decide)
          refine ⟨fun _ _ => ⟨i, hwaits, fun p hp => Controller.firstWaiting_lowest first hp⟩,
            fun _ _ => ⟨i, hwaits, ?_, ?_⟩⟩
          · exact (update_ne hne _ _).trans (update_self _ _ _)
          · exact (Controller.lock_eq_some hi).mpr rfl

/-- Port 1 has been addressed; some ports are still connected. -/
def addressed (connected : BitVec 8 → Bool) : Env := seeing (completion 1 1#8 1#8) connected 1#8

/-- With all three ports connected, port 2 is next. -/
theorem takenUp_iff_connected :
    ∃ q, threePorts.Waits (addressed fun _ => true) q ∧
      (threePorts.next (addressed fun _ => true)).TakenUp q := by
  have hwaits : threePorts.Waits (addressed fun _ => true) 2#8 :=
    ⟨by decide +kernel, by decide +kernel⟩
  have hlowest : ∀ p, p < 2#8 → threePorts.xhc.portConfigPhase p ≠ .kWaitingAddressed := by
    decide +kernel
  exact (takenUp_iff fresh_untouched run_threePorts ⟨by decide +kernel, by decide +kernel⟩
    (by decide +kernel) (processEvent_next (by decide +kernel))).mpr
    (fun _ => ⟨2#8, hwaits, hlowest⟩) ⟨2#8, hwaits⟩

/-- **The lock may go to nobody**: with port 2 unplugged, port 3 waits in
vain. -/
theorem not_takenUp_unplugged : fresh.xhc.Untouched ∧ ReflTransGen Step fresh threePorts ∧
    ∃ env, threePorts.Completes env ∧ threePorts.issuer env = AddressDeviceCommandTRB.type ∧
      threePorts.processEvent env = .ok (.kSuccess, threePorts.next env) ∧
      threePorts.Waits env 3#8 ∧ ∀ q, ¬ (threePorts.next env).TakenUp q := by
  refine ⟨fresh_untouched, run_threePorts, addressed fun p => p != 2#8,
    ⟨by decide +kernel, by decide +kernel⟩, by decide +kernel,
    processEvent_next (by decide +kernel), ⟨by decide +kernel, by decide +kernel⟩, ?_⟩
  exact not_takenUp (by decide +kernel)

/-! ## completions of failed commands -/

end Driver

/-- The steps of configuration that a completed command makes. -/
inductive ConfigPhase.Advances : ConfigPhase → ConfigPhase → Prop
  | address : Advances kEnablingSlot kAddressingDevice
  | release : Advances kAddressingDevice kInitializingDevice
  | configure : Advances kInitializingDevice kConfiguringEndpoints
  | complete : Advances kConfiguringEndpoints kConfigured

namespace Controller

/-- Nothing has come of an event: no port has advanced, no device has been
allocated, and neither a command nor a transfer has been issued. -/
structure Quiet (s t : Controller) : Prop where
  phases : ∀ p, ¬ (s.portConfigPhase p).Advances (t.portConfigPhase p)
  devices : t.devmgr.devices = s.devmgr.devices
  commands : t.commands = s.commands
  io : t.host.io = s.host.io

/-- What the handler turns away whatever its completion code: a completion
that no port is waiting for, about a slot it has no device for, or of some
other command. -/
inductive TurnedAway (s : Controller) (issuer : BitVec 6) (port slotId : BitVec 8) : Prop
  | notEnabling (type : issuer = EnableSlotCommandTRB.type)
      (phase : ∀ p, s.portConfigPhase p ≠ .kEnablingSlot)
  | noSlot (type : issuer = EnableSlotCommandTRB.type)
      (beyond : s.devmgr.maxSlots < slotId.toNat)
  | noDevice (type : issuer = AddressDeviceCommandTRB.type ∨
        issuer = ConfigureEndpointCommandTRB.type)
      (none : s.devmgr.findBySlot slotId = none)
  | notAddressing (type : issuer = AddressDeviceCommandTRB.type)
      (phase : s.portConfigPhase port ≠ .kAddressingDevice)
  | notConfiguring (type : issuer = ConfigureEndpointCommandTRB.type)
      (phase : s.portConfigPhase port ≠ .kConfiguringEndpoints)
  | unknown (enable : issuer ≠ EnableSlotCommandTRB.type)
      (address : issuer ≠ AddressDeviceCommandTRB.type)
      (configure : issuer ≠ ConfigureEndpointCommandTRB.type)

/-- There is nothing to address in a slot there is not. -/
theorem addressDevice_beyond {s : Controller} (h : s.devmgr.maxSlots < slotId.toNat) :
    s.addressDevice env port slotId = .ok (.kInvalidSlotID, s) := by
  have halloc := DeviceManager.allocDevice_of_lt h env s.host slotId
  have hnone : s.devmgr.findBySlot slotId = none := if_pos h
  simp only [addressDevice, halloc, bind, Except.bind, hnone]
  rfl

/-- What is turned away changes nothing. -/
theorem TurnedAway.onCommandCompletion {s : Controller} (hevent : s.TurnedAway
      (s.issuerType env trb) (contextPort env (CommandCompletionEventTRB.slotId.get trb))
      (CommandCompletionEventTRB.slotId.get trb)) :
    ∃ err, s.onCommandCompletion env trb = .ok (err, s) := by
  unfold Controller.onCommandCompletion
  unfold issuerType contextPort at hevent
  simp only
  generalize TRB.trbType.get (s.trbAt env (CommandCompletionEventTRB.pointer trb)) = issuer
    at hevent ⊢
  generalize CommandCompletionEventTRB.slotId.get trb = slotId at hevent ⊢
  generalize SlotContext.rootHubPortNum.get (env.slotContext slotId) = port at hevent ⊢
  cases hevent with
  | notEnabling type phase =>
      rw [if_pos type]
      exact ⟨_, if_pos (phase _)⟩
  | noSlot type beyond =>
      rw [if_pos type]
      split
      · exact ⟨_, rfl⟩
      · exact ⟨_, addressDevice_beyond beyond⟩
  | noDevice type none =>
      rw [none]
      rcases type with rfl | rfl
      · exact ⟨_, rfl⟩
      · exact ⟨_, rfl⟩
  | notAddressing type phase =>
      subst type
      rw [if_neg (by decide), if_pos rfl, if_pos phase]
      cases s.devmgr.findBySlot slotId with
      | none => exact ⟨_, rfl⟩
      | some dev => exact ⟨_, ite_self _⟩
  | notConfiguring type phase =>
      subst type
      rw [if_neg (by decide), if_neg (by decide), if_pos rfl]
      split
      · exact ⟨_, rfl⟩
      · exact ⟨_, if_pos phase⟩
  | unknown enable address configure =>
      rw [if_neg enable, if_neg address, if_neg configure]
      exact ⟨_, rfl⟩

/-- A port is moved from one phase to the next. -/
theorem not_quiet {s t : Controller} (port : BitVec 8) {phase next : ConfigPhase}
    (hphase : s.portConfigPhase port = phase) (hnext : t.portConfigPhase port = next)
    (h : phase.Advances next) : ¬ Quiet s t := by
  intro hquiet
  have hstays := hquiet.phases port
  rw [hphase, hnext] at hstays
  exact hstays h

/-- A handler that leaves everything as it is has turned the event away. -/
theorem turnedAway_of_quiet {s t : Controller} (hd : Orderly r s)
    (h : CommandCompletionEnds env s issuer port slotId err t) (hquiet : Quiet s t) :
    s.TurnedAway issuer port slotId := by
  cases h with
  | notEnabling hissuer hphase =>
      refine .notEnabling hissuer fun p hp => ?_
      rw [hd.lock_eq (by rw [hp]; rfl)] at hphase
      exact hphase hp
  | enabled hissuer hphase ends =>
      cases ends with
      | noSlot beyond => exact .noSlot hissuer beyond
      | addressing =>
          exact absurd hquiet (not_quiet s.addressingPort hphase (update_self _ _ _) .address)
  | noDevice hissuer none => exact .noDevice hissuer none
  | notAddressing hissuer other =>
      refine .notAddressing hissuer fun hp => ?_
      rcases other with hport | hphase
      · exact hport (hd.lock_eq (by rw [hp]; rfl)).symm
      · exact hphase hp
  | addressed hissuer held hphase =>
      exact absurd hquiet (not_quiet port hphase (update_self _ _ _) .release)
  | notConfiguring hissuer hphase => exact .notConfiguring hissuer hphase
  | configured hissuer hphase =>
      exact absurd hquiet (not_quiet port hphase (update_self _ _ _) .complete)
  | unknown enable address configure => exact .unknown enable address configure

end Controller

namespace Driver

/-- **A completion has no consequences**, whatever its code, exactly when it
is one that is turned away.  So the completion of a failed command has those
of a successful one. -/
theorem quiet_iff {d₀ d : Driver} (h : d₀.xhc.Untouched) (hrun : ReflTransGen Step d₀ d)
    (hevent : d.Completes env) :
    (∃ err d', d.processEvent env = .ok (err, d') ∧ Controller.Quiet d.xhc d'.xhc) ↔
      d.xhc.TurnedAway (d.issuer env) (Controller.contextPort env (d.slot env)) (d.slot env) := by
  have hd := orderly h hrun
  constructor
  · rintro ⟨err, d', hret, hquiet⟩
    exact Controller.turnedAway_of_quiet hd (hevent.ends hret) hquiet
  · intro haway
    obtain ⟨err, hret⟩ := haway.onCommandCompletion
    refine ⟨err, ⟨d.xhc, d.er.pop env 3⟩, ?_, fun p hp => ?_, rfl, rfl, rfl⟩
    · rw [hevent.onCommandCompletion, hret]
      rfl
    · generalize d.xhc.portConfigPhase p = phase at hp
      cases hp

/-- The address of port 1 could not be assigned (`USB Transaction Error`), and
the device context names no port. -/
theorem quiet_iff_notAddressed : ∃ err d',
    threePorts.processEvent (seeing (completion 1 4#8 1#8) (fun _ => true) 0#8) = .ok (err, d') ∧
      Controller.Quiet threePorts.xhc d'.xhc :=
  (quiet_iff fresh_untouched run_threePorts ⟨by decide +kernel, by decide +kernel⟩).mpr
    (.notAddressing (by decide +kernel) (by decide +kernel))

/-- Port 1 waits for a slot. -/
def enabling : Driver := (fresh.follow (configureThree.take 4)).getD fresh

theorem follow_enabling : fresh.follow (configureThree.take 4) = some enabling :=
  follow_getD (by decide +kernel)

theorem run_enabling : ReflTransGen Step fresh enabling := run_of_follow follow_enabling

/-- There is no slot left (`No Slots Available Error`). -/
def noSlots : Env := seeing (completion 0 9#8 0#8) (fun _ => true) 0#8

/-- **A failed Enable Slot advances its port**: it gets a device in slot 0 and
an Address Device command. -/
theorem not_quiet_noSlots : fresh.xhc.Untouched ∧ ReflTransGen Step fresh enabling ∧
    enabling.Completes noSlots ∧ enabling.code noSlots ≠ success ∧
    enabling.processEvent noSlots = .ok (.kSuccess, enabling.next noSlots) ∧
    (enabling.next noSlots).xhc.portConfigPhase 1#8 = .kAddressingDevice ∧
    (enabling.xhc.devmgr.devices 0#8).isSome = false ∧
    ((enabling.next noSlots).xhc.devmgr.devices 0#8).isSome = true ∧
    (enabling.next noSlots).commandsFor 1#8 =
      [EnableSlotCommandTRB.type, AddressDeviceCommandTRB.type] ∧
    ¬ Controller.Quiet enabling.xhc (enabling.next noSlots).xhc := by
  have hphase : enabling.xhc.portConfigPhase 1#8 = .kEnablingSlot := by decide +kernel
  have hnext : (enabling.next noSlots).xhc.portConfigPhase 1#8 = .kAddressingDevice := by
    decide +kernel
  exact ⟨fresh_untouched, run_enabling, ⟨by decide +kernel, by decide +kernel⟩, by decide +kernel,
    processEvent_next (by decide +kernel), hnext, by decide +kernel, by decide +kernel,
    by decide +kernel, Controller.not_quiet 1#8 hphase hnext .address⟩

/-! ## entry 0 of the device context array -/

/-- The event at the front grants slot 0 to the port that waits for a slot. -/
structure GrantsSlotZero (env : Env) (d : Driver) : Prop where
  completes : d.Completes env
  issuer : d.issuer env = EnableSlotCommandTRB.type
  slot : d.slot env = 0#8
  phase : d.xhc.portConfigPhase d.xhc.addressingPort = .kEnablingSlot

/-- A call that does not grant slot 0, whatever else it handles. -/
inductive SlotStep (d : Driver) : Driver → Prop
  | configurePort (env : Env) (port : BitVec 8)
      (ret : d.configurePort env port = .ok (err, d')) : SlotStep d d'
  | processEvent (env : Env) (slot : ¬ d.GrantsSlotZero env)
      (ret : d.processEvent env = .ok (err, d')) : SlotStep d d'

/-- Entry 0 of the array the controller reads. -/
def entryZero (d : Driver) : BitVec 64 := d.xhc.devmgr.deviceContextPointers 0#8

end Driver

namespace Controller

/-- `AddressDevice` leaves a device in its slot. -/
theorem AddressDeviceEnds.devmgr {s t : Controller} (h : AddressDeviceEnds s port slotId err t)
    (hslot : slotId.toNat ≤ s.devmgr.maxSlots) : ∃ dev, t.devmgr = s.devmgr.load slotId dev := by
  cases h with
  | noSlot beyond => exact absurd hslot (Nat.not_le_of_lt beyond)
  | addressing _ dev host _ => exact ⟨dev, rfl⟩

/-- It changes no entry but that of the slot. -/
theorem AddressDeviceEnds.pointers {s t : Controller} (h : AddressDeviceEnds s port slotId err t)
    (hi : i ≠ slotId) : t.devmgr.deviceContextPointers i = s.devmgr.deviceContextPointers i := by
  cases h with
  | noSlot _ => rfl
  | addressing _ dev host _ => exact update_ne hi _ _

/-- A command completion changes an entry only by addressing a device. -/
theorem CommandCompletionEnds.pointers {s t : Controller}
    (h : CommandCompletionEnds env s issuer port slotId err t)
    (hi : issuer = EnableSlotCommandTRB.type →
      s.portConfigPhase s.addressingPort = .kEnablingSlot → i ≠ slotId) :
    t.devmgr.deviceContextPointers i = s.devmgr.deviceContextPointers i := by
  cases h with
  | enabled hissuer hphase ends => exact ends.pointers (hi hissuer hphase)
  | addressed _ _ _ resumed =>
      exact congrFun (congrArg DeviceManager.deviceContextPointers resumed.eq_kSuccess.2) i
  | notEnabling => rfl
  | noDevice => rfl
  | notAddressing => rfl
  | notConfiguring => rfl
  | configured => rfl
  | unknown => rfl

theorem EventEnds.pointers {s t : Controller} (h : EventEnds env s trb err t)
    (hi : TRB.trbType.get trb = CommandCompletionEventTRB.type →
      s.issuerType env trb = EnableSlotCommandTRB.type →
      s.portConfigPhase s.addressingPort = .kEnablingSlot →
      i ≠ CommandCompletionEventTRB.slotId.get trb) :
    t.devmgr.deviceContextPointers i = s.devmgr.deviceContextPointers i := by
  cases h with
  | transfer _ ends =>
      cases ends with
      | noDevice => rfl
      | reported => rfl
      | configure dev _ pipes host _ ends => cases ends <;> rfl
  | portStatusChange _ ends =>
      cases ends with
      | reset _ ends =>
          exact congrFun (congrArg DeviceManager.deviceContextPointers ends.devmgr) i
      | enable _ ends => cases ends <;> rfl
      | refused => rfl
  | commandCompletion type ends => exact ends.pointers (hi type)
  | unknown => rfl

end Controller

namespace Driver

theorem SlotStep.entryZero {d d' : Driver} (h : SlotStep d d') : d'.entryZero = d.entryZero := by
  cases h with
  | configurePort env port ret =>
      rcases Controller.configurePort_ends (configurePort_ok ret) with ⟨_, hsame⟩ | ⟨_, ends⟩
      · rw [Driver.entryZero, hsame, Driver.entryZero]
      · exact congrFun (congrArg DeviceManager.deviceContextPointers ends.devmgr) _
  | processEvent env slot ret =>
      rcases processEvent_ends ret with ⟨_, _, rfl⟩ | ⟨hfront, hevent, _⟩
      · rfl
      · refine (Controller.onEvent_ends hevent).pointers fun type issuer phase hslot => slot ?_
        exact ⟨⟨hfront, type⟩, issuer, hslot.symm, phase⟩

/-- Granting slot 0 does overwrite it, with the context of the device that
gets the slot. -/
theorem GrantsSlotZero.entryZero {d d' : Driver} (h : d.GrantsSlotZero env)
    (ret : d.processEvent env = .ok (err, d')) :
    ∃ dev, d'.xhc.devmgr.devices 0#8 = some dev ∧ d'.entryZero = dev.deviceContext := by
  obtain ⟨t, er⟩ := d'
  have hends := h.completes.ends ret
  rw [h.issuer, h.slot] at hends
  cases hends with
  | notEnabling _ hphase => exact absurd h.phase hphase
  | enabled _ _ ends =>
      obtain ⟨dev, hdev⟩ := ends.devmgr (Nat.zero_le _)
      rw [Driver.entryZero, hdev]
      exact ⟨dev, DeviceManager.load_devices_self _ _ _, DeviceManager.load_pointers_self _ _ _⟩
  | noDevice hissuer => exact absurd hissuer (by decide)
  | notAddressing hissuer => exact absurd hissuer (by decide)
  | addressed hissuer => exact absurd hissuer (by decide)
  | notConfiguring hissuer => exact absurd hissuer (by decide)
  | configured hissuer => exact absurd hissuer (by decide)
  | unknown henable => exact absurd rfl henable

/-- **Entry 0 of the device context array is never overwritten** in a run in
which no port is granted slot 0. -/
theorem entryZero_kept {d₀ d : Driver} (hrun : ReflTransGen SlotStep d₀ d) :
    d.entryZero = d₀.entryZero := by
  have hstep : ∀ s t : Driver, s.entryZero = d₀.entryZero → SlotStep s t →
      t.entryZero = d₀.entryZero := fun _ _ hs hst => hst.entryZero.trans hs
  exact Run.invariant hstep rfl hrun

/-- Port 1 is granted slot 1. -/
theorem entryZero_kept_slotOne :
    (enabling.next (seeing (completion 0 1#8 1#8) (fun _ => true) 0#8)).entryZero =
      enabling.entryZero := by
  have hslot : enabling.slot (seeing (completion 0 1#8 1#8) (fun _ => true) 0#8) = 1#8 := by
    decide +kernel
  have hreturns : (enabling.processEvent (seeing (completion 0 1#8 1#8) (fun _ => true)
      0#8)).toOption.map Prod.fst = some .kSuccess := by
    decide +kernel
  refine entryZero_kept (.single (.processEvent _ (fun h => ?_) (processEvent_next hreturns)))
  rw [h.slot] at hslot
  contradiction

/-- **A failed Enable Slot overwrites entry 0**: the controller then finds the
context of a device where it looks for its scratchpad buffers. -/
theorem entryZero_noSlots : ReflTransGen Step fresh enabling ∧ fresh.entryZero = 0x100100#64 ∧
    enabling.entryZero = fresh.entryZero ∧ enabling.GrantsSlotZero noSlots ∧
    enabling.processEvent noSlots = .ok (.kSuccess, enabling.next noSlots) ∧
    (enabling.next noSlots).entryZero ≠ fresh.entryZero :=
  ⟨run_enabling, rfl, by decide +kernel,
    ⟨⟨by decide +kernel, by decide +kernel⟩, by decide +kernel, by decide +kernel,
      by decide +kernel⟩,
    processEvent_next (by decide +kernel), by decide +kernel⟩

end Driver

end MikanOs.Usb.Xhci
