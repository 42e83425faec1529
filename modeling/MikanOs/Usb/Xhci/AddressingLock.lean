import MikanOs.Usb.Xhci.PortPhases

/-!
# MikanOs.Usb.Xhci.AddressingLock

What a call can do to the lock: `LockStep` is all that happens to the port
that holds it, to the commands, and to the devices, as long as the call does
not handle the completion of an Enable Slot or an Address Device command.
-/

namespace MikanOs.Usb.Xhci

/-! ## input contexts -/

namespace DeviceManager

/-- The device in a slot, if there is one, keeps its input context. -/
def KeepsInput (m m' : DeviceManager) (i : BitVec 8) : Prop :=
  ∀ dev, m.devices i = some dev → ∃ dev', m'.devices i = some dev' ∧ dev'.inputCtx = dev.inputCtx

theorem KeepsInput.refl (m : DeviceManager) (i : BitVec 8) : m.KeepsInput m i :=
  fun dev hdev => ⟨dev, hdev, rfl⟩

/-- Another slot is written. -/
theorem keepsInput_set_ne {m m' : DeviceManager} (h : m.KeepsInput m' i) (hi : i ≠ slotId)
    (dev : Device) : m.KeepsInput (m'.set slotId dev) i := by
  intro dev' hdev
  obtain ⟨dev'', hfound, hinput⟩ := h dev' hdev
  exact ⟨dev'', (update_ne hi _ _).trans hfound, hinput⟩

/-- What the device does with its pipes does not matter. -/
theorem keepsInput_set_pipes {m : DeviceManager} (found : m.findBySlot slotId = some dev)
    (pipes : Pipes) (i : BitVec 8) : m.KeepsInput (m.set slotId { dev with pipes := pipes }) i := by
  by_cases hi : i = slotId
  · subst hi
    intro dev' hdev
    obtain rfl := Option.some.inj ((le_of_findBySlot found).2.symm.trans hdev)
    exact ⟨_, set_devices_self m i _, rfl⟩
  · exact keepsInput_set_ne (.refl m i) hi _

end DeviceManager

namespace Controller

/-! ## the commands pushed -/

namespace Orderly

/-- A command is one of those its port calls for. -/
theorem type_mem_take {s : Controller} (h : Orderly r s) (hc : c ∈ s.commands) :
    TRB.trbType.get c.2 ∈ bringUp.take (s.portConfigPhase c.1).commands := by
  have hmem : TRB.trbType.get c.2 ∈ s.ports.issuedFor c.1 :=
    List.mem_map.mpr ⟨(c.1, TRB.trbType.get c.2),
      List.mem_filter.mpr ⟨List.mem_map.mpr ⟨c, hc, rfl⟩, by simp⟩, rfl⟩
  rwa [h.inv.issued] at hmem

/-- No command is pushed for port 0. -/
theorem commands_ne_zero {s : Controller} (h : Orderly r s) (hc : c ∈ s.commands) : c.1 ≠ 0#8 := by
  intro hzero
  have hmem := h.type_mem_take hc
  rw [hzero, h.zero] at hmem
  exact List.not_mem_nil hmem

/-- There are three types of commands. -/
theorem type_cases {s : Controller} (h : Orderly r s) (hc : c ∈ s.commands) :
    TRB.trbType.get c.2 = EnableSlotCommandTRB.type ∨
      TRB.trbType.get c.2 = AddressDeviceCommandTRB.type ∨
      TRB.trbType.get c.2 = ConfigureEndpointCommandTRB.type := by
  simpa [bringUp] using List.mem_of_mem_take (h.type_mem_take hc)

/-- No more than three commands are pushed for each port. -/
theorem length_commands_le {s : Controller} (h : Orderly r s) {ports : List (BitVec 8)}
    (hports : ∀ c ∈ s.commands, c.1 ∈ ports) : s.commands.length ≤ 3 * ports.length := by
  have hissued : s.ports.issued.length ≤ bringUp.length * ports.length := by
    refine h.inv.length_issued_le fun c hc => ?_
    obtain ⟨c', hc', rfl⟩ := List.mem_map.mp hc
    exact hports c' hc'
  rwa [Controller.ports, List.length_map] at hissued

/-- While they are no more than the command ring holds, the completion of a
command is traced back to the command. -/
theorem issuerType_eq {s : Controller} (h : Orderly r s) (hr : r.Fresh) (hsize : 2 ≤ r.bufSize)
    (hroom : s.commands.length ≤ r.bufSize - 1) (issued : s.commands[k]? = some (port, cmd))
    (pointer : CommandCompletionEventTRB.pointer trb = s.cr.entry (k % (s.cr.bufSize - 1))) :
    s.issuerType env trb = TRB.trbType.get cmd := by
  have hholds : (r.pushAll (s.commands.map Prod.snd)).2.Holds 0 (s.commands.map Prod.snd) := by
    refine (Ring.pushAll_holds (hr.holds hsize) hsize _ ?_).1
    simpa using hroom
  have hitem : (s.commands.map Prod.snd)[k]? = some cmd := by
    rw [List.getElem?_map, issued]
    rfl
  rw [h.pushed] at pointer
  obtain ⟨t, hfound, hbody⟩ := hholds.trbAt (Ring.placed_pushAll hr.placed _)
    (by rw [Ring.pushAll_bufSize]; exact hsize) hitem (Nat.zero_le k)
  rw [issuerType, trbAt, h.pushed, pointer, hfound]
  exact TRB.get_eq_of_body_eq (by decide) hbody

end Orderly

/-! ## what happens to the lock -/

/-- What may happen to the lock.  Commands issued for other ports are
Configure Endpoint commands, for a port that the context of some device
names. -/
inductive LockStep (env : Env) (s : Controller) : Controller → Prop
  | kept (lock : t.addressingPort = s.addressingPort)
      (phase : t.portConfigPhase t.addressingPort = s.portConfigPhase s.addressingPort)
      (cmds : List (BitVec 8 × Trb)) (commands : t.commands = s.commands ++ cmds)
      (configure : ∀ c ∈ cmds, TRB.trbType.get c.2 = ConfigureEndpointCommandTRB.type ∧
        ∃ i, i.toNat ≤ s.devmgr.maxSlots ∧ contextPort env i = c.1) : LockStep env s t
  | taken (free : s.addressingPort = 0#8)
      (phase : t.portConfigPhase t.addressingPort = .kResettingPort)
      (commands : t.commands = s.commands) : LockStep env s t
  | enabling (before : s.portConfigPhase s.addressingPort = .kResettingPort)
      (lock : t.addressingPort = s.addressingPort)
      (phase : t.portConfigPhase t.addressingPort = .kEnablingSlot)
      (commands : t.commands = s.commands ++ [(s.addressingPort, EnableSlotCommandTRB.new)]) :
      LockStep env s t

/-- A call of which the port that holds the lock need not fear anything. -/
structure SparesLock (env : Env) (s t : Controller) : Prop where
  lock : LockStep env s t
  maxSlots : t.devmgr.maxSlots = s.devmgr.maxSlots
  input : ∀ i, s.portConfigPhase (contextPort env i) ≠ .kInitializingDevice →
    s.devmgr.KeepsInput t.devmgr i

/-- The lock, its holder and the commands are as they were. -/
theorem LockStep.same {s t : Controller} (lock : t.addressingPort = s.addressingPort)
    (phase : t.portConfigPhase t.addressingPort = s.portConfigPhase s.addressingPort)
    (commands : t.commands = s.commands) : LockStep env s t :=
  .kept lock phase [] (by rw [commands, List.append_nil]) fun _ hc => absurd hc List.not_mem_nil

theorem SparesLock.refl (env : Env) (s : Controller) : SparesLock env s s :=
  ⟨.same rfl rfl rfl, rfl, fun i _ => .refl _ i⟩

/-- `ResetPort` of a port not yet connected. -/
theorem ResetPortEnds.sparesLock {s t : Controller} (hd : Orderly r s)
    (hphase : s.portConfigPhase port = .kNotConnected) (h : ResetPortEnds env s port err t) :
    SparesLock env' s t := by
  refine ⟨?_, congrArg _ h.devmgr, fun i _ => h.devmgr ▸ .refl _ i⟩
  cases h with
  | absent => exact .same rfl rfl rfl
  | waiting _ held =>
      have hne : s.addressingPort ≠ port := by
        rintro rfl
        have hexclusive := hd.exclusive_lock held
        rw [hphase] at hexclusive
        contradiction
      exact .same rfl (update_ne hne _ _) rfl
  | refused => exact .same rfl rfl rfl
  | resetting _ free _ _ => exact .taken free (update_self _ _ _) rfl

/-- `EnableSlot` of a port being reset. -/
theorem EnableSlotEnds.sparesLock {s t : Controller} (hd : Orderly r s)
    (hphase : s.portConfigPhase port = .kResettingPort) (h : EnableSlotEnds s port err t) :
    SparesLock env s t := by
  have hexclusive : (s.portConfigPhase port).exclusive = true := by
    rw [hphase]
    rfl
  obtain rfl := hd.lock_eq hexclusive
  cases h with
  | early => exact .refl env s
  | enabling => exact ⟨.enabling hphase rfl (update_self _ _ _) rfl, rfl, fun i _ => .refl _ i⟩

/-- Looking a port up changes nothing that matters. -/
theorem SparesLock.of_portAt {s t : Controller} (h : SparesLock env (s.portAt port) t) :
    SparesLock env s t := by
  obtain ⟨lock, maxSlots, input⟩ := h
  refine ⟨?_, maxSlots, input⟩
  cases lock with
  | kept lock phase cmds commands configure => exact .kept lock phase cmds commands configure
  | taken free phase commands => exact .taken free phase commands
  | enabling before lock phase commands => exact .enabling before lock phase commands

/-- A port status change event. -/
theorem PortStatusChangeEnds.sparesLock {s t : Controller} (hd : Orderly r s)
    (h : PortStatusChangeEnds env s port err t) : SparesLock env' s t := by
  have hd' : Orderly r (s.portAt port) := ⟨hd.inv, hd.zero, hd.pushed⟩
  cases h with
  | reset hphase ends => exact (ends.sparesLock hd' hphase).of_portAt
  | enable hphase ends => exact (ends.sparesLock hd' hphase).of_portAt
  | refused => exact ⟨.same rfl rfl rfl, rfl, fun i _ => .refl _ i⟩

/-- A transfer event: it may have endpoints configured. -/
theorem TransferEnds.sparesLock {s t : Controller} (hd : Orderly r s)
    (h : TransferEnds s (contextPort env slotId) slotId err t) : SparesLock env s t := by
  cases h with
  | noDevice => exact .refl env s
  | reported dev found _ pipes host =>
      exact ⟨.same rfl rfl rfl, rfl, fun i _ => DeviceManager.keepsInput_set_pipes found pipes i⟩
  | configure dev found pipes host hphase ends =>
      let m := s.devmgr.set slotId { dev with pipes := pipes }
      have hinput : ∀ dev' i, s.portConfigPhase (contextPort env i) ≠ .kInitializingDevice →
          s.devmgr.KeepsInput (m.set slotId dev') i := by
        intro dev' i hi
        have hne : i ≠ slotId := by
          rintro rfl
          exact hi hphase
        exact DeviceManager.keepsInput_set_ne
          (DeviceManager.keepsInput_set_pipes found pipes i) hne dev'
      cases ends with
      | unknownSpeed dev' _ => exact ⟨.same rfl rfl rfl, rfl, hinput dev'⟩
      | configuring dev' _ input slot =>
          have hne : s.addressingPort ≠ contextPort env slotId :=
            hd.ne_lock (by rw [hphase]; rfl) (by rw [hphase]; decide)
          refine ⟨.kept rfl (update_ne hne _ _) [_] rfl fun c hc => ?_, rfl, hinput dev'⟩
          obtain rfl := List.mem_singleton.mp hc
          exact ⟨ConfigureEndpointCommandTRB.trbType_new _ _, slotId,
            (DeviceManager.le_of_findBySlot found).1, rfl⟩

/-- The completion of a Configure Endpoint command. -/
theorem CommandCompletionEnds.sparesLock {s t : Controller} (hd : Orderly r s)
    (h : CommandCompletionEnds env s ConfigureEndpointCommandTRB.type port slotId err t) :
    SparesLock env s t := by
  cases h with
  | notEnabling => exact .refl env s
  | enabled issuer => exact absurd issuer (by decide)
  | noDevice => exact .refl env s
  | notAddressing => exact .refl env s
  | addressed issuer => exact absurd issuer (by decide)
  | notConfiguring => exact .refl env s
  | configured _ hphase dev found pipes host =>
      have hne : s.addressingPort ≠ port :=
        hd.ne_lock (by rw [hphase]; rfl) (by rw [hphase]; decide)
      exact ⟨.same rfl (update_ne hne _ _) rfl, rfl,
        fun i _ => DeviceManager.keepsInput_set_pipes found pipes i⟩
  | unknown => exact .refl env s

/-- Once a port has its address, nobody holds the lock or the next port is
being reset. -/
theorem ResumeWaitingEnds.idle {s t : Controller}
    (h : ResumeWaitingEnds env { s with addressingPort := 0#8 } err t)
    (hphase : s.portConfigPhase port = .kAddressingDevice) :
    t.commands = s.commands ∧ (t.addressingPort = 0#8 ∨
      (t.setPhase port .kInitializingDevice).portConfigPhase t.addressingPort =
        .kResettingPort) := by
  cases h with
  | nobody => exact ⟨rfl, .inl rfl⟩
  | absent => exact ⟨rfl, .inl rfl⟩
  | resuming i first _ host =>
      have hne : i ≠ port := by
        rintro rfl
        have hwaits := phase_firstWaiting first
        rw [hphase] at hwaits
        contradiction
      exact ⟨rfl, .inr ((update_ne hne _ _).trans (update_self _ _ _))⟩

/-- **Events other than command completions** spare the lock. -/
theorem EventEnds.sparesLock {s t : Controller} (hd : Orderly r s) (h : EventEnds env s trb err t)
    (hother : TRB.trbType.get trb ≠ CommandCompletionEventTRB.type) : SparesLock env s t := by
  cases h with
  | transfer _ ends => exact ends.sparesLock hd
  | portStatusChange _ ends => exact ends.sparesLock hd
  | commandCompletion type _ => exact absurd type hother
  | unknown => exact .refl env s

/-- **`ConfigurePort`** spares the lock. -/
theorem configurePort_sparesLock {s t : Controller} (hd : Orderly r s)
    (ret : s.configurePort env port = .ok (err, t)) : SparesLock env' s t := by
  rcases configurePort_ends ret with ⟨_, rfl⟩ | ⟨hphase, ends⟩
  · exact .refl env' t
  · exact ends.sparesLock hd hphase

end Controller

end MikanOs.Usb.Xhci
