import MikanOs.Usb.Xhci.AddressingLock
import MikanOs.Usb.Xhci.CommandCompletion
import MikanOs.Usb.Xhci.Initialize

/-!
# MikanOs.Usb.Xhci.LockRun

The driver together with a controller that answers every command once, with
any completion code.  A port gives the lock back only when its Address Device
command is completed, so whoever holds it had better have a command under
way.  That is so until an Address Device command fails: its completion is
turned away because the device context names no port, and the lock stays
with the port for good.
-/

namespace MikanOs.Usb.Xhci

open Relation

/-! ## driver and controller -/

/-- How far a command has got. -/
inductive CommandStatus
  | inFlight
  | answered (code slotId : BitVec 8)
  | handled
  deriving DecidableEq, Repr

/-- Driver and controller: how far each command has got, by its place in the
record of the driver; the root hub port each device context names; the slots
handed out; and the completion codes of the Address Device commands whose
completions have been handled. -/
structure LockRun where
  driver : Driver
  status : Nat → CommandStatus
  contextPort : BitVec 8 → BitVec 8
  granted : List (BitVec 8)
  addressed : List (BitVec 8)

namespace LockRun

/-- Nothing has been pushed, and no device context filled in. -/
def start (d : Driver) : LockRun := ⟨d, fun _ => .inFlight, fun _ => 0#8, [], []⟩

/-- The port that holds the lock. -/
abbrev lock (s : LockRun) : BitVec 8 := s.driver.xhc.addressingPort

/-- Its phase. -/
abbrev phase (s : LockRun) : ConfigPhase := s.driver.xhc.portConfigPhase s.lock

/-- The commands pushed, each with the port it was pushed for. -/
abbrev commands (s : LockRun) : List (BitVec 8 × Trb) := s.driver.xhc.commands

/-- An environment in which the device contexts read as the controller has
filled them in. -/
def Seen (s : LockRun) (env : Env) : Prop :=
  ∀ slotId, Controller.contextPort env slotId = s.contextPort slotId

/-- What the controller may answer to a command: completion code and slot,
and what it has done by then.  A slot is handed out once, and there is none
for an Enable Slot command that fails; an Address Device command that
succeeds, for a slot handed out, copies the slot context of the device's
input context to its device context, and one that fails leaves that alone. -/
inductive Answer (s : LockRun) (cmd : Trb) : BitVec 8 → BitVec 8 → LockRun → Prop
  | granted (slotId : BitVec 8) (type : TRB.trbType.get cmd = EnableSlotCommandTRB.type)
      (range : 1 ≤ slotId.toNat ∧ slotId.toNat ≤ kDeviceSize) (free : slotId ∉ s.granted) :
      Answer s cmd Driver.success slotId { s with granted := slotId :: s.granted }
  | noSlot (code : BitVec 8) (type : TRB.trbType.get cmd = EnableSlotCommandTRB.type)
      (failed : code ≠ Driver.success) : Answer s cmd code 0#8 s
  | addressed (slotId : BitVec 8) (type : TRB.trbType.get cmd = AddressDeviceCommandTRB.type)
      (slot : AddressDeviceCommandTRB.slotId.get cmd = slotId) (granted : slotId ∈ s.granted)
      (found : s.driver.xhc.devmgr.devices slotId = some dev) :
      Answer s cmd Driver.success slotId { s with
        contextPort := update s.contextPort slotId
          (SlotContext.rootHubPortNum.get dev.inputCtx.slotContext) }
  | notAddressed (code : BitVec 8) (type : TRB.trbType.get cmd = AddressDeviceCommandTRB.type)
      (failed : code ≠ Driver.success) :
      Answer s cmd code (AddressDeviceCommandTRB.slotId.get cmd) s
  | configured (code : BitVec 8)
      (type : TRB.trbType.get cmd = ConfigureEndpointCommandTRB.type) :
      Answer s cmd code (ConfigureEndpointCommandTRB.slotId.get cmd) s

/-- The codes on record once the completion of a command has been handled. -/
def record (s : LockRun) (cmd : Trb) (code : BitVec 8) : List (BitVec 8) :=
  if TRB.trbType.get cmd = AddressDeviceCommandTRB.type then s.addressed ++ [code] else s.addressed

/-- One step: a call that does not handle the completion of a command, the
controller answering a command in flight, or the driver handling the
completion of a command that has been answered. -/
inductive Step (s : LockRun) : LockRun → Prop
  | configurePort (env : Env) (seen : s.Seen env) (port : BitVec 8) (range : s.driver.PortOk port)
      (ret : s.driver.configurePort env port = .ok (err, d')) : Step s { s with driver := d' }
  | processEvent (env : Env) (seen : s.Seen env) (range : s.driver.EventOk env)
      (other : ¬ s.driver.Completes env) (ret : s.driver.processEvent env = .ok (err, d')) :
      Step s { s with driver := d' }
  | answer (k : Nat) (issued : s.commands[k]? = some (port, cmd)) (status : s.status k = .inFlight)
      (answer : s.Answer cmd code slotId t) :
      Step s { t with status := update s.status k (.answered code slotId) }
  | complete (env : Env) (seen : s.Seen env) (k : Nat)
      (issued : s.commands[k]? = some (port, cmd)) (status : s.status k = .answered code slotId)
      (event : s.driver.Completes env)
      (pointer : CommandCompletionEventTRB.pointer (s.driver.event env) =
        s.driver.xhc.cr.entry (k % (s.driver.xhc.cr.bufSize - 1)))
      (hcode : s.driver.code env = code) (hslot : s.driver.slot env = slotId)
      (ret : s.driver.processEvent env = .ok (err, d')) :
      Step s { s with
        driver := d'
        status := update s.status k .handled
        addressed := s.record cmd code }

/-- A command of some type that was pushed for a port has not been completed:
it is in flight, or the event has not been handled. -/
def Outstanding (s : LockRun) (port : BitVec 8) (type : BitVec 6) : Prop :=
  ∃ k cmd, s.commands[k]? = some (port, cmd) ∧ TRB.trbType.get cmd = type ∧ s.status k ≠ .handled

/-- The lock is free, or the port that holds it is being reset or has a
command under way that will move it on. -/
def Guarded (s : LockRun) : Prop :=
  s.lock ≠ 0#8 → s.phase = .kResettingPort ∨
    (s.phase = .kEnablingSlot ∧ s.Outstanding s.lock EnableSlotCommandTRB.type) ∨
    (s.phase = .kAddressingDevice ∧ s.Outstanding s.lock AddressDeviceCommandTRB.type)

/-! ## commands outstanding -/

/-- All commands not completed, but for one, are Configure Endpoint
commands. -/
def Rest (commands : List (BitVec 8 × Trb)) (status : Nat → CommandStatus) (one : Option Nat) :
    Prop :=
  ∀ k c, commands[k]? = some c → status k ≠ .handled → one ≠ some k →
    TRB.trbType.get c.2 = ConfigureEndpointCommandTRB.type

namespace Rest

variable {commands : List (BitVec 8 × Trb)} {status : Nat → CommandStatus} {one : Option Nat}

/-- A command outstanding of another type is the one. -/
theorem eq_one (h : Rest commands status one) (issued : commands[k]? = some (port, cmd))
    (hopen : status k ≠ .handled)
    (type : TRB.trbType.get cmd ≠ ConfigureEndpointCommandTRB.type) : one = some k :=
  Decidable.byContradiction fun hne => type (h k (port, cmd) issued hopen hne)

/-- A command outstanding changes its status. -/
theorem update (h : Rest commands status one) (hopen : status k ≠ .handled) (st : CommandStatus) :
    Rest commands (Usb.update status k st) one := by
  intro j c hj hst hone
  by_cases hjk : j = k
  · subst hjk
    exact h j c hj hopen hone
  · rw [update_ne hjk] at hst
    exact h j c hj hst hone

/-- The one has been completed. -/
theorem complete (h : Rest commands status (some k)) :
    Rest commands (Usb.update status k .handled) none := by
  intro j c hj hst _
  have hjk : j ≠ k := by
    rintro rfl
    exact hst (update_self _ _ _)
  rw [update_ne hjk] at hst
  exact h j c hj hst fun he => hjk (Option.some.inj he).symm

/-- More Configure Endpoint commands. -/
theorem append (h : Rest commands status one) {cmds : List (BitVec 8 × Trb)}
    (hcmds : ∀ c ∈ cmds, TRB.trbType.get c.2 = ConfigureEndpointCommandTRB.type) :
    Rest (commands ++ cmds) status one := by
  intro j c hj hst hone
  by_cases hlt : j < commands.length
  · rw [List.getElem?_append_left hlt] at hj
    exact h j c hj hst hone
  · rw [List.getElem?_append_right (Nat.le_of_not_lt hlt)] at hj
    exact hcmds c (List.mem_of_getElem? hj)

/-- A new command is the one. -/
theorem push (h : Rest commands status none) (c : BitVec 8 × Trb) :
    Rest (commands ++ [c]) status (some commands.length) := by
  intro j c' hj hst hone
  have hne : commands.length ≠ j := fun he => hone (congrArg some he)
  by_cases hlt : j < commands.length
  · rw [List.getElem?_append_left hlt] at hj
    exact h j c' hj hst (by simp)
  · have hlen := (List.getElem?_eq_some_iff.mp hj).1
    rw [List.length_append, List.length_singleton] at hlen
    omega

end Rest

/-! ## the invariant -/

/-- The port that holds the lock waits for a slot, with command `k`.  If the
command has been answered, its slot is one whose device context is blank. -/
structure Enabling (s : LockRun) (k : Nat) : Prop where
  phase : s.phase = .kEnablingSlot
  issued : s.commands[k]? = some (s.lock, EnableSlotCommandTRB.new)
  opened : s.status k ≠ .handled
  slot : ∀ code i, s.status k = .answered code i → i.toNat ≤ kDeviceSize ∧ s.contextPort i = 0#8
  rest : Rest s.commands s.status (some k)
  done : ∀ c ∈ s.addressed, c = Driver.success

/-- The port that holds the lock waits for its address, with command `k` for
the device in a slot.  The device context names the port as soon as the
command has succeeded, and no port until then. -/
structure Addressing (s : LockRun) (k : Nat) (slotId : BitVec 8) : Prop where
  phase : s.phase = .kAddressingDevice
  issued : ∃ input, s.commands[k]? = some (s.lock, AddressDeviceCommandTRB.new input slotId)
  opened : s.status k ≠ .handled
  range : slotId.toNat ≤ kDeviceSize
  device : ∃ dev, s.driver.xhc.devmgr.devices slotId = some dev ∧
    SlotContext.rootHubPortNum.get dev.inputCtx.slotContext = s.lock
  slot : ∀ code i, s.status k = .answered code i → i = slotId
  context : s.contextPort slotId =
    if s.status k = .answered Driver.success slotId then s.lock else 0#8
  rest : Rest s.commands s.status (some k)
  done : ∀ c ∈ s.addressed, c = Driver.success

/-- What becomes of the lock.  A port that has been orphaned waits in
vain. -/
inductive Holder (s : LockRun) : Prop
  | idle (phase : s.lock = 0#8 ∨ s.phase = .kResettingPort) (rest : Rest s.commands s.status none)
      (done : ∀ c ∈ s.addressed, c = Driver.success)
  | enabling (k : Nat) (h : s.Enabling k)
  | addressing (k : Nat) (slotId : BitVec 8) (h : s.Addressing k slotId)
  | orphaned (phase : s.phase = .kAddressingDevice) (rest : Rest s.commands s.status none)
      (failed : ∃ c ∈ s.addressed, c ≠ Driver.success)

/-- What holds in every reachable state. -/
structure Inv (r : Ring) (s : LockRun) : Prop where
  orderly : Controller.Orderly r s.driver.xhc
  maxSlots : s.driver.xhc.devmgr.maxSlots = kDeviceSize
  beyond : ∀ k, s.commands.length ≤ k → s.status k = .inFlight
  granted : ∀ i ∈ s.granted, 1 ≤ i.toNat ∧ i.toNat ≤ kDeviceSize
  blank : ∀ i, i ∉ s.granted → s.contextPort i = 0#8
  named : ∀ c ∈ s.commands, c.1 = s.lock ∨ ∃ i, i.toNat ≤ kDeviceSize ∧ s.contextPort i = c.1
  holder : s.Holder

/-- An Enable Slot command outstanding is what the lock is waiting for. -/
theorem Holder.enabling_of {s : LockRun} (h : s.Holder)
    (issued : s.commands[k]? = some (port, cmd))
    (opened : s.status k ≠ .handled) (type : TRB.trbType.get cmd = EnableSlotCommandTRB.type) :
    s.Enabling k := by
  have hother : TRB.trbType.get cmd ≠ ConfigureEndpointCommandTRB.type := by
    rw [type]
    decide
  cases h with
  | idle _ rest _ => exact absurd (rest.eq_one issued opened hother) (by simp)
  | enabling j h =>
      obtain rfl := Option.some.inj (h.rest.eq_one issued opened hother)
      exact h
  | addressing j slotId h =>
      obtain rfl := Option.some.inj (h.rest.eq_one issued opened hother)
      obtain ⟨input, hcmd⟩ := h.issued
      obtain ⟨_, rfl⟩ := Prod.mk.inj (Option.some.inj (issued.symm.trans hcmd))
      rw [AddressDeviceCommandTRB.trbType_new] at type
      exact absurd type (by decide)
  | orphaned _ rest _ => exact absurd (rest.eq_one issued opened hother) (by simp)

/-- So is an Address Device command. -/
theorem Holder.addressing_of {s : LockRun} (h : s.Holder)
    (issued : s.commands[k]? = some (port, cmd))
    (opened : s.status k ≠ .handled) (type : TRB.trbType.get cmd = AddressDeviceCommandTRB.type) :
    s.Addressing k (AddressDeviceCommandTRB.slotId.get cmd) := by
  have hother : TRB.trbType.get cmd ≠ ConfigureEndpointCommandTRB.type := by
    rw [type]
    decide
  cases h with
  | idle _ rest _ => exact absurd (rest.eq_one issued opened hother) (by simp)
  | enabling j h =>
      obtain rfl := Option.some.inj (h.rest.eq_one issued opened hother)
      obtain ⟨_, rfl⟩ := Prod.mk.inj (Option.some.inj (issued.symm.trans h.issued))
      rw [EnableSlotCommandTRB.trbType_new] at type
      exact absurd type (by decide)
  | addressing j slotId h =>
      obtain rfl := Option.some.inj (h.rest.eq_one issued opened hother)
      obtain ⟨input, hcmd⟩ := h.issued
      obtain ⟨_, rfl⟩ := Prod.mk.inj (Option.some.inj (issued.symm.trans hcmd))
      rwa [AddressDeviceCommandTRB.slotId_new]
  | orphaned _ rest _ => exact absurd (rest.eq_one issued opened hother) (by simp)

/-- A Configure Endpoint command is none of the lock's business. -/
theorem Holder.update {s : LockRun} (h : s.Holder) (issued : s.commands[k]? = some (port, cmd))
    (opened : s.status k ≠ .handled)
    (type : TRB.trbType.get cmd = ConfigureEndpointCommandTRB.type) (st : CommandStatus) :
    Holder { s with status := Usb.update s.status k st } := by
  have hne : ∀ {j : Nat} {p : BitVec 8} {c : Trb}, s.commands[j]? = some (p, c) →
      TRB.trbType.get c ≠ ConfigureEndpointCommandTRB.type → j ≠ k := by
    rintro j p c hj hother rfl
    obtain ⟨_, rfl⟩ := Prod.mk.inj (Option.some.inj (issued.symm.trans hj))
    exact hother type
  cases h with
  | idle phase rest done => exact .idle phase (rest.update opened st) done
  | enabling j h =>
      have hj : Usb.update s.status k st j = s.status j :=
        update_ne (hne h.issued (by rw [EnableSlotCommandTRB.trbType_new]; decide)) _ _
      refine .enabling j ⟨h.phase, h.issued, ?_, ?_, h.rest.update opened st, h.done⟩
      · exact fun hst => h.opened (hj.symm.trans hst)
      · exact fun code i hst => h.slot code i (hj.symm.trans hst)
  | addressing j slotId h =>
      obtain ⟨input, hcmd⟩ := h.issued
      have hj : Usb.update s.status k st j = s.status j :=
        update_ne (hne hcmd (by rw [AddressDeviceCommandTRB.trbType_new]; decide)) _ _
      refine .addressing j slotId ⟨h.phase, h.issued, ?_, h.range, h.device, ?_, ?_,
        h.rest.update opened st, h.done⟩
      · exact fun hst => h.opened (hj.symm.trans hst)
      · exact fun code i hst => h.slot code i (hj.symm.trans hst)
      · show s.contextPort slotId =
          if Usb.update s.status k st j = .answered Driver.success slotId then s.lock else 0#8
        rw [hj]
        exact h.context
  | orphaned phase rest failed => exact .orphaned phase (rest.update opened st) failed

namespace Inv

variable {r : Ring} {s : LockRun}

/-- The commands of so few ports do not fill the command ring. -/
theorem length_commands_le (h : Inv r s) : s.commands.length ≤ 30 := by
  have hports : ∀ c ∈ s.commands,
      c.1 ∈ s.lock :: (List.range 9).map fun i => s.contextPort (BitVec.ofNat 8 i) := by
    intro c hc
    rcases h.named c hc with hlock | ⟨i, hi, hport⟩
    · rw [hlock]
      exact List.mem_cons_self
    · refine List.mem_cons_of_mem _ (List.mem_map.mpr
        ⟨i.toNat, List.mem_range.mpr (Nat.lt_succ_of_le hi), ?_⟩)
      rw [← hport, BitVec.ofNat_toNat, BitVec.setWidth_eq]
  exact h.orderly.length_commands_le hports

/-- Neither port 0 nor the port that holds the lock has its device
initialized. -/
theorem not_initializing (h : Inv r s) (seen : s.Seen env)
    (hi : s.contextPort i = 0#8 ∨ s.contextPort i = s.lock) :
    s.driver.xhc.portConfigPhase (Controller.contextPort env i) ≠ .kInitializingDevice := by
  have hzero := h.orderly.zero
  rw [seen i]
  intro hphase
  have hlock : s.lock ≠ s.contextPort i :=
    h.orderly.ne_lock (by rw [hphase]; rfl) (by rw [hphase]; decide)
  rcases hi with hblank | hheld
  · rw [hblank, hzero] at hphase
    contradiction
  · exact hlock hheld.symm

/-! ## calls -/

/-- Nothing happens to the lock or its holder, and what is pushed are Configure
Endpoint commands. -/
theorem holder_kept (h : Inv r s) (seen : s.Seen env) {d' : Driver}
    (spares : Controller.SparesLock env s.driver.xhc d'.xhc)
    (lock : d'.xhc.addressingPort = s.lock)
    (phase : d'.xhc.portConfigPhase d'.xhc.addressingPort = s.phase)
    {cmds : List (BitVec 8 × Trb)} (commands : d'.xhc.commands = s.commands ++ cmds)
    (configure : ∀ c ∈ cmds, TRB.trbType.get c.2 = ConfigureEndpointCommandTRB.type) :
    Holder { s with driver := d' } := by
  have hrest : ∀ {one}, Rest s.commands s.status one → Rest d'.xhc.commands s.status one := by
    intro one hone
    rw [commands]
    exact hone.append configure
  have hissued : ∀ {k : Nat} {cmd : Trb}, s.commands[k]? = some (s.lock, cmd) →
      d'.xhc.commands[k]? = some (d'.xhc.addressingPort, cmd) := by
    intro k cmd hk
    rw [commands, lock, List.getElem?_append_left (List.getElem?_eq_some_iff.mp hk).1]
    exact hk
  cases h.holder with
  | idle hidle rest done => exact .idle (hidle.imp lock.trans phase.trans) (hrest rest) done
  | enabling k he =>
      exact .enabling k ⟨phase.trans he.phase, hissued he.issued, he.opened, he.slot,
        hrest he.rest, he.done⟩
  | addressing k slotId ha =>
      -- the device context names no port but the holder, so nothing configures the device
      have hblank : s.contextPort slotId = 0#8 ∨ s.contextPort slotId = s.lock := by
        rw [ha.context]
        split
        · exact .inr rfl
        · exact .inl rfl
      obtain ⟨dev, hdev, hport⟩ := ha.device
      obtain ⟨dev', hdev', hinput⟩ :=
        spares.input slotId (h.not_initializing seen hblank) dev hdev
      obtain ⟨input, hcmd⟩ := ha.issued
      refine .addressing k slotId ⟨phase.trans ha.phase, ⟨input, hissued hcmd⟩, ha.opened,
        ha.range, ⟨dev', hdev', ?_⟩, ha.slot, ?_, hrest ha.rest, ha.done⟩
      · rw [hinput, hport]
        exact lock.symm
      · show s.contextPort slotId =
          if s.status k = .answered Driver.success slotId then d'.xhc.addressingPort else 0#8
        rw [lock]
        exact ha.context
  | orphaned hphase rest failed => exact .orphaned (phase.trans hphase) (hrest rest) failed

/-- While the holder is in none of the phases that wait for a command, nothing
is outstanding but Configure Endpoint commands. -/
theorem rest_of_phase (h : Inv r s) (henable : s.phase ≠ .kEnablingSlot)
    (haddress : s.phase ≠ .kAddressingDevice) :
    Rest s.commands s.status none ∧ ∀ c ∈ s.addressed, c = Driver.success := by
  cases h.holder with
  | idle _ rest done => exact ⟨rest, done⟩
  | enabling _ he => exact absurd he.phase henable
  | addressing _ _ ha => exact absurd ha.phase haddress
  | orphaned hphase _ _ => exact absurd hphase haddress

/-- A call that spares the lock, as the port that holds it sees it. -/
theorem holder_call (h : Inv r s) (seen : s.Seen env) {d' : Driver}
    (spares : Controller.SparesLock env s.driver.xhc d'.xhc) : Holder { s with driver := d' } := by
  cases spares.lock with
  | kept lock phase cmds commands configure =>
      exact h.holder_kept seen spares lock phase commands fun c hc => (configure c hc).1
  | taken free phase commands =>
      have hnot : s.phase = .kNotConnected := by
        show s.driver.xhc.portConfigPhase s.driver.xhc.addressingPort = _
        rw [free]
        exact h.orderly.zero
      obtain ⟨rest, done⟩ := h.rest_of_phase (by rw [hnot]; decide) (by rw [hnot]; decide)
      refine .idle (.inr phase) ?_ done
      show Rest d'.xhc.commands s.status none
      rw [commands]
      exact rest
  | enabling before lock phase commands =>
      have hnew : s.status s.commands.length = .inFlight := h.beyond _ (Nat.le_refl _)
      have hbefore : s.phase = .kResettingPort := before
      obtain ⟨rest, done⟩ := h.rest_of_phase (by rw [hbefore]; decide) (by rw [hbefore]; decide)
      refine .enabling s.commands.length ⟨phase, ?_, ?_, ?_, ?_, done⟩
      · show d'.xhc.commands[s.commands.length]? = some (d'.xhc.addressingPort, _)
        rw [commands, lock]
        exact List.getElem?_concat_length
      · show s.status s.commands.length ≠ .handled
        rw [hnew]
        decide
      · intro code i hst
        exact absurd (hnew.symm.trans hst) (by simp)
      · show Rest d'.xhc.commands s.status _
        rw [commands]
        exact rest.push _

/-- **A call that spares the lock** keeps the invariant. -/
theorem call (h : Inv r s) (seen : s.Seen env) {d' : Driver}
    (hd : Controller.Orderly r d'.xhc) (spares : Controller.SparesLock env s.driver.xhc d'.xhc) :
    Inv r { s with driver := d' } where
  orderly := hd
  maxSlots := spares.maxSlots.trans h.maxSlots
  beyond k hk := by
    refine h.beyond k (Nat.le_trans ?_ hk)
    show s.commands.length ≤ d'.xhc.commands.length
    cases spares.lock with
    | kept _ _ _ commands _ => simp [commands]
    | taken _ _ commands => simp [commands]
    | enabling _ _ _ commands => simp [commands]
  granted := h.granted
  blank := h.blank
  named c hc := by
    have hold : s.lock = d'.xhc.addressingPort → c ∈ s.commands → c.1 = d'.xhc.addressingPort ∨
        ∃ i, i.toNat ≤ kDeviceSize ∧ s.contextPort i = c.1 := fun hlock hc =>
      hlock ▸ h.named c hc
    change c ∈ d'.xhc.commands at hc
    cases spares.lock with
    | kept lock _ cmds commands configure =>
        rw [commands] at hc
        cases List.mem_append.mp hc with
        | inl hc => exact hold lock.symm hc
        | inr hc =>
            obtain ⟨_, i, hi, hport⟩ := configure c hc
            exact .inr ⟨i, h.maxSlots ▸ hi, (seen i).symm.trans hport⟩
    | taken free _ commands =>
        rw [commands] at hc
        refine .inr ((h.named c hc).resolve_left fun hlock => ?_)
        exact h.orderly.commands_ne_zero hc (hlock.trans free)
    | enabling _ lock _ commands =>
        rw [commands] at hc
        cases List.mem_append.mp hc with
        | inl hc => exact hold lock.symm hc
        | inr hc =>
            obtain rfl := List.mem_singleton.mp hc
            exact .inl lock.symm
  holder := h.holder_call seen spares

/-! ## answers -/

/-- Only a command that has been pushed is answered or completed. -/
theorem beyond_update (h : Inv r s) (issued : s.commands[k]? = some c) (st : CommandStatus)
    (j : Nat) (hj : s.commands.length ≤ j) : update s.status k st j = .inFlight := by
  have hk := (List.getElem?_eq_some_iff.mp issued).1
  rw [update_ne (by omega)]
  exact h.beyond j hj

/-- The Enable Slot command is answered. -/
theorem answer_enabling (h : s.Enabling k) (code : BitVec 8)
    (hslot : slotId.toNat ≤ kDeviceSize ∧ s.contextPort slotId = 0#8) (granted : List (BitVec 8)) :
    Holder { s with status := update s.status k (.answered code slotId), granted := granted } := by
  refine .enabling k ⟨h.phase, h.issued, ?_, fun c i hst => ?_, h.rest.update h.opened _, h.done⟩
  · show update s.status k (.answered code slotId) k ≠ .handled
    rw [update_self]
    simp
  · change update s.status k (.answered code slotId) k = .answered c i at hst
    rw [update_self] at hst
    obtain ⟨rfl, rfl⟩ := CommandStatus.answered.inj hst
    exact hslot

/-- The Address Device command is answered. -/
theorem answer_addressing (h : s.Addressing k slotId) (code : BitVec 8)
    (contextPort : BitVec 8 → BitVec 8)
    (hcontext : contextPort slotId = if code = Driver.success then s.lock else 0#8) :
    Holder { s with
      status := update s.status k (.answered code slotId), contextPort := contextPort } := by
  refine .addressing k slotId ⟨h.phase, h.issued, ?_, h.range, h.device, fun c i hst => ?_, ?_,
    h.rest.update h.opened _, h.done⟩
  · show update s.status k (.answered code slotId) k ≠ .handled
    rw [update_self]
    simp
  · change update s.status k (.answered code slotId) k = .answered c i at hst
    rw [update_self] at hst
    exact (CommandStatus.answered.inj hst).2.symm
  · show contextPort slotId =
      if update s.status k (.answered code slotId) k = .answered Driver.success slotId then s.lock
      else 0#8
    rw [hcontext, update_self]
    simp

/-- **The controller answering a command** keeps the invariant. -/
theorem answer (h : Inv r s) (issued : s.commands[k]? = some (port, cmd))
    (status : s.status k = .inFlight) (answer : s.Answer cmd code slotId t) :
    Inv r { t with status := update s.status k (.answered code slotId) } := by
  have opened : s.status k ≠ .handled := by
    rw [status]
    decide
  cases answer with
  | granted _ type range free =>
      have he := h.holder.enabling_of issued opened type
      exact { h with
        beyond := h.beyond_update issued _
        granted := by
          intro i hi
          cases List.mem_cons.mp hi with
          | inl hnew => exact hnew ▸ range
          | inr hold => exact h.granted i hold
        blank := fun i hi => h.blank i fun hold => hi (List.mem_cons_of_mem _ hold)
        holder := answer_enabling he _ ⟨range.2, h.blank _ free⟩ _ }
  | noSlot _ type failed =>
      have he := h.holder.enabling_of issued opened type
      have hzero : 0#8 ∉ s.granted := fun hmem => absurd (h.granted _ hmem).1 (by decide)
      exact { h with
        beyond := h.beyond_update issued _
        holder := answer_enabling he _ ⟨by decide, h.blank _ hzero⟩ _ }
  | @addressed dev _ type slot granted found =>
      have ha := h.holder.addressing_of issued opened type
      rw [slot] at ha
      have hblank : s.contextPort slotId = 0#8 := by
        rw [ha.context, status]
        rfl
      obtain ⟨dev', hfound, hport⟩ := ha.device
      obtain rfl := Option.some.inj (found.symm.trans hfound)
      rw [hport]
      exact { h with
        beyond := h.beyond_update issued _
        blank := by
          intro i hi
          have hne : i ≠ slotId := by
            rintro rfl
            exact hi granted
          exact (update_ne hne _ _).trans (h.blank i hi)
        named := by
          intro c hc
          refine (h.named c hc).imp_right ?_
          rintro ⟨i, hi, hport⟩
          have hne : i ≠ slotId := by
            rintro rfl
            exact h.orderly.commands_ne_zero hc (hport.symm.trans hblank)
          exact ⟨i, hi, (update_ne hne _ _).trans hport⟩
        holder := answer_addressing ha _ _ (update_self _ _ _) }
  | notAddressed _ type failed =>
      have ha := h.holder.addressing_of issued opened type
      exact { h with
        beyond := h.beyond_update issued _
        holder := answer_addressing ha _ s.contextPort (by
          rw [ha.context, status, if_neg failed]
          rfl) }
  | configured _ type =>
      exact { h with
        beyond := h.beyond_update issued _
        holder := h.holder.update issued opened type _ }

/-! ## completions -/

/-- The completion of Enable Slot: the port goes on to wait for its
address. -/
theorem complete_enabling (h : Inv r s) (he : s.Enabling k)
    (status : s.status k = .answered code slotId)
    (ends : Controller.CommandCompletionEnds env s.driver.xhc EnableSlotCommandTRB.type port slotId
      err t)
    (hd : Controller.Orderly r t) (er : EventRing) :
    Inv r { s with driver := ⟨t, er⟩, status := update s.status k .handled } := by
  obtain ⟨hrange, hblank⟩ := he.slot _ _ status
  have hk := (List.getElem?_eq_some_iff.mp he.issued).1
  cases ends with
  | notEnabling _ phase => exact absurd he.phase phase
  | enabled _ _ ends =>
      cases ends with
      | noSlot beyond => exact absurd beyond (Nat.not_lt_of_le (h.maxSlots ▸ hrange))
      | addressing _ dev host portNum =>
          have hnew : update s.status k .handled s.commands.length = .inFlight :=
            (update_ne (by omega) _ _).trans (h.beyond _ (Nat.le_refl _))
          have hlen : (s.commands ++ [(s.lock,
              AddressDeviceCommandTRB.new dev.inputContext slotId)]).length =
              s.commands.length + 1 := List.length_append
          exact {
            orderly := hd
            maxSlots := h.maxSlots
            beyond := by
              intro j hj
              have hlt : s.commands.length + 1 ≤ j := Nat.le_trans (Nat.le_of_eq hlen.symm) hj
              exact (update_ne (by omega) _ _).trans (h.beyond j (by omega))
            granted := h.granted
            blank := h.blank
            named := by
              intro c hc
              cases List.mem_append.mp hc with
              | inl hold => exact h.named c hold
              | inr hnew => exact .inl (congrArg Prod.fst (List.mem_singleton.mp hnew))
            holder := .addressing s.commands.length slotId {
              phase := update_self _ _ _
              issued := ⟨_, List.getElem?_concat_length⟩
              opened := fun hst => absurd (hnew.symm.trans hst) (by simp)
              range := hrange
              device := ⟨dev, DeviceManager.load_devices_self _ _ _, portNum⟩
              slot := fun c i hst => absurd (hnew.symm.trans hst) (by simp)
              context := by
                refine hblank.trans (if_neg fun hst => ?_).symm
                exact absurd (hnew.symm.trans hst) (by simp)
              rest := he.rest.complete.push _
              done := he.done } }
  | noDevice issuer => exact absurd issuer (by decide)
  | notAddressing issuer => exact absurd issuer (by decide)
  | addressed issuer => exact absurd issuer (by decide)
  | notConfiguring issuer => exact absurd issuer (by decide)
  | configured issuer => exact absurd issuer (by decide)
  | unknown enable => exact absurd rfl enable

/-- The port has its address and gives the lock back. -/
theorem release (h : Inv r s) (ha : s.Addressing k slotId)
    (named : s.contextPort slotId = s.lock) {u : Controller}
    (resumed : Controller.ResumeWaitingEnds env { s.driver.xhc with addressingPort := 0#8 } err u)
    {dev : Device} {host : Host}
    (hd : Controller.Orderly r
      ((u.setPhase (s.contextPort slotId) .kInitializingDevice).setDevice slotId dev host))
    (er : EventRing) :
    Inv r { s with
      driver := ⟨(u.setPhase (s.contextPort slotId) .kInitializingDevice).setDevice slotId dev host,
        er⟩
      status := update s.status k .handled
      addressed := s.addressed ++ [Driver.success] } := by
  obtain ⟨c, hissued⟩ : ∃ c, s.commands[k]? = some c := ⟨_, ha.issued.choose_spec⟩
  have hphase : s.driver.xhc.portConfigPhase (s.contextPort slotId) = .kAddressingDevice := by
    rw [named]
    exact ha.phase
  obtain ⟨(hcommands : u.commands = s.commands), hidle⟩ := resumed.idle hphase
  exact {
    orderly := hd
    maxSlots := (congrArg DeviceManager.maxSlots resumed.eq_kSuccess.2).trans h.maxSlots
    beyond := fun j hj => h.beyond_update hissued _ j (by rwa [← hcommands])
    granted := h.granted
    blank := h.blank
    named := by
      intro c hc
      refine .inr ?_
      rcases h.named c (by rwa [← hcommands]) with hport | hnamed
      · exact ⟨slotId, ha.range, named.trans hport.symm⟩
      · exact hnamed
    holder := by
      refine .idle hidle ?_ fun c hc => ?_
      · have hrest := ha.rest.complete
        rwa [← hcommands] at hrest
      · cases List.mem_append.mp hc with
        | inl hold => exact ha.done c hold
        | inr hnew => exact List.mem_singleton.mp hnew }

/-- The port is left without an address, and with the lock. -/
theorem orphan (h : Inv r s) (ha : s.Addressing k slotId) (hfailed : code ≠ Driver.success)
    (er : EventRing) :
    Inv r { s with
      driver := ⟨s.driver.xhc, er⟩
      status := update s.status k .handled
      addressed := s.addressed ++ [code] } := by
  obtain ⟨c, hissued⟩ : ∃ c, s.commands[k]? = some c := ⟨_, ha.issued.choose_spec⟩
  exact { h with
    beyond := h.beyond_update hissued _
    holder := .orphaned ha.phase ha.rest.complete
      ⟨code, List.mem_append_right _ (List.mem_singleton.mpr rfl), hfailed⟩ }

/-- The completion of Address Device: the port gives the lock back if the
command has succeeded, and is orphaned if it has not. -/
theorem complete_addressing (h : Inv r s) (ha : s.Addressing k slotId)
    (status : s.status k = .answered code slotId)
    (ends : Controller.CommandCompletionEnds env s.driver.xhc AddressDeviceCommandTRB.type
      (s.contextPort slotId) slotId err t)
    (hd : Controller.Orderly r t) (er : EventRing) :
    Inv r { s with
      driver := ⟨t, er⟩
      status := update s.status k .handled
      addressed := s.addressed ++ [code] } := by
  have hcontext : s.contextPort slotId = if code = Driver.success then s.lock else 0#8 := by
    rw [ha.context, status]
    simp
  have hlock : s.lock ≠ 0#8 := by
    intro hfree
    have hphase := ha.phase
    rw [LockRun.phase, hfree, h.orderly.zero] at hphase
    contradiction
  obtain ⟨dev, hdev, _⟩ := ha.device
  have hfound : s.driver.xhc.devmgr.findBySlot slotId = some dev :=
    (DeviceManager.findBySlot_of_le (h.maxSlots ▸ ha.range)).trans hdev
  cases ends with
  | notEnabling issuer => exact absurd issuer (by decide)
  | enabled issuer => exact absurd issuer (by decide)
  | noDevice _ none => exact absurd (none.symm.trans hfound) (by simp)
  | notAddressing _ other =>
      -- the device context names the port only if the command has succeeded
      refine h.orphan ha (fun hcode => ?_) er
      rw [hcontext, if_pos hcode] at other
      exact other.elim (fun hne => hne rfl) fun hphase => hphase ha.phase
  | addressed _ held _ resumed =>
      have hcode : code = Driver.success := by
        refine Decidable.byContradiction fun hfailed => hlock ?_
        rw [hcontext, if_neg hfailed] at held
        exact held.symm
      subst hcode
      exact h.release ha held resumed hd er
  | notConfiguring issuer => exact absurd issuer (by decide)
  | configured issuer => exact absurd issuer (by decide)
  | unknown _ address => exact absurd rfl address

/-- **The driver handling a completion** keeps the invariant: while there is
room in the command ring the handler finds out which command it is about. -/
theorem complete (h : Inv r s) (hr : r.Fresh) (hsize : r.bufSize = 32) (seen : s.Seen env)
    (issued : s.commands[k]? = some (port, cmd)) (status : s.status k = .answered code slotId)
    (event : s.driver.Completes env)
    (pointer : CommandCompletionEventTRB.pointer (s.driver.event env) =
      s.driver.xhc.cr.entry (k % (s.driver.xhc.cr.bufSize - 1)))
    (hslot : s.driver.slot env = slotId) (ret : s.driver.processEvent env = .ok (err, d')) :
    Inv r { s with
      driver := d'
      status := update s.status k .handled
      addressed := s.record cmd code } := by
  have hlen : s.driver.xhc.commands.length ≤ 30 := h.length_commands_le
  have htype : s.driver.issuer env = TRB.trbType.get cmd :=
    h.orderly.issuerType_eq hr (by omega) (by omega) issued pointer
  have hrange : s.driver.EventOk env := fun _ type =>
    absurd (event.type.symm.trans type) (by decide)
  have hd : Controller.Orderly r d'.xhc :=
    h.orderly.moves (Driver.Call.moves h.orderly.zero (.processEvent env hrange ret))
  have opened : s.status k ≠ .handled := by
    rw [status]
    simp
  have hends := event.ends ret
  rw [htype, hslot, seen slotId] at hends
  rcases h.orderly.type_cases (List.mem_of_getElem? issued) with type | type | type
  · have hrecord : s.record cmd code = s.addressed := if_neg (by rw [type]; decide)
    rw [hrecord]
    rw [type] at hends
    exact h.complete_enabling (h.holder.enabling_of issued opened type) status hends hd d'.er
  · have hrecord : s.record cmd code = s.addressed ++ [code] := if_pos type
    have ha := h.holder.addressing_of issued opened type
    rw [← ha.slot _ _ status] at ha
    rw [hrecord]
    rw [type] at hends
    exact h.complete_addressing ha status hends hd d'.er
  · have hrecord : s.record cmd code = s.addressed := if_neg (by rw [type]; decide)
    have hhandled : Inv r { s with status := update s.status k .handled } := { h with
      beyond := h.beyond_update issued _
      holder := h.holder.update issued opened type _ }
    rw [hrecord]
    rw [type] at hends
    exact hhandled.call seen hd (hends.sparesLock h.orderly)

/-! ## every run -/

/-- Every step keeps the invariant. -/
theorem step (hr : r.Fresh) (hsize : r.bufSize = 32) (s t : LockRun) (h : Inv r s)
    (hstep : Step s t) : Inv r t := by
  cases hstep with
  | configurePort env seen port range ret =>
      exact h.call seen
        (h.orderly.moves (Driver.Call.moves h.orderly.zero (.configurePort env port range ret)))
        (Controller.configurePort_sparesLock h.orderly (Driver.configurePort_ok ret))
  | processEvent env seen range other ret =>
      have hd := h.orderly.moves (Driver.Call.moves h.orderly.zero (.processEvent env range ret))
      refine h.call seen hd ?_
      rcases Driver.processEvent_ends ret with ⟨_, _, rfl⟩ | ⟨hfront, hevent, _⟩
      · exact .refl env _
      · exact (Controller.onEvent_ends hevent).sparesLock h.orderly fun type =>
          other ⟨hfront, type⟩
  | answer k issued status answer => exact h.answer issued status answer
  | complete env seen k issued status event pointer _ hslot ret =>
      exact h.complete hr hsize seen issued status event pointer hslot ret

/-- The invariant holds at first. -/
theorem start {d : Driver} (h : d.Initialized) : Inv d.xhc.cr (start d) where
  orderly := h.untouched.orderly
  maxSlots := h.maxSlots
  beyond _ _ := rfl
  granted _ hi := absurd hi List.not_mem_nil
  blank _ _ := rfl
  named c hc := by
    rw [LockRun.commands, LockRun.start, h.untouched.commands] at hc
    exact absurd hc List.not_mem_nil
  holder := by
    refine .idle (.inl h.untouched.addressingPort) (fun k c hk _ _ => ?_) fun c hc =>
      absurd hc List.not_mem_nil
    rw [LockRun.commands, LockRun.start, h.untouched.commands] at hk
    contradiction

/-- The lock is guarded unless the port that holds it has been orphaned. -/
theorem guarded (h : Inv r s) : s.Guarded ↔ ∀ c ∈ s.addressed, c = Driver.success := by
  cases h.holder with
  | idle phase _ done =>
      exact ⟨fun _ => done, fun _ hheld => .inl (phase.resolve_left hheld)⟩
  | enabling k he =>
      exact ⟨fun _ => he.done, fun _ _ => .inr (.inl ⟨he.phase, k, _, he.issued,
        EnableSlotCommandTRB.trbType_new, he.opened⟩)⟩
  | addressing k slotId ha =>
      obtain ⟨input, hcmd⟩ := ha.issued
      exact ⟨fun _ => ha.done, fun _ _ => .inr (.inr ⟨ha.phase, k, _, hcmd,
        AddressDeviceCommandTRB.trbType_new _ _, ha.opened⟩)⟩
  | orphaned phase rest failed =>
      obtain ⟨c, hc, hfailed⟩ := failed
      refine ⟨fun hguarded => ?_, fun hall => absurd (hall c hc) hfailed⟩
      have hheld : s.lock ≠ 0#8 := by
        intro hfree
        rw [LockRun.phase, hfree, h.orderly.zero] at phase
        contradiction
      rcases hguarded hheld with hreset | ⟨henable, _⟩ | ⟨_, k, cmd, hk, type, hopen⟩
      · exact absurd (hreset.symm.trans phase) (by decide)
      · exact absurd (henable.symm.trans phase) (by decide)
      · have hother := rest k _ hk hopen (by simp)
        rw [type] at hother
        exact absurd hother (by decide)

end Inv

/-- **The lock is guarded** exactly as long as no Address Device command has
been completed with a failure. -/
theorem guarded_iff {d : Driver} (h : d.Initialized) (hrun : ReflTransGen Step (start d) s) :
    s.Guarded ↔ ∀ c ∈ s.addressed, c = Driver.success :=
  (Run.invariant (Inv.step h.fresh h.bufSize) (Inv.start h) hrun).guarded

/-! ## a sample -/

/-- Calls made one after another are steps, if none of them handles the
completion of a command. -/
theorem run_of_follow {s : LockRun} {cs : List (Env × Option (BitVec 8))}
    (hseen : ∀ c ∈ cs, s.Seen c.1 ∧
      ∀ a, TRB.trbType.get (c.1.trb a) ≠ CommandCompletionEventTRB.type)
    (h : s.driver.follow cs = some d') : ReflTransGen Step s { s with driver := d' } := by
  induction cs generalizing s with
  | nil =>
      obtain rfl := Option.some.inj h
      exact .refl
  | cons c cs ih =>
      obtain ⟨env, _ | port⟩ := c
      · obtain ⟨seen, hother⟩ := hseen _ List.mem_cons_self
        rw [Driver.follow] at h
        split at h
        · next hok =>
          split at h
          · next d hret =>
            have hrest := ih (s := { s with driver := d })
              (fun c hc => hseen c (List.mem_cons_of_mem _ hc)) h
            exact .head (.processEvent env seen hok (fun hevent => hother _ hevent.type) hret) hrest
          · contradiction
        · contradiction
      · obtain ⟨seen, _⟩ := hseen _ List.mem_cons_self
        rw [Driver.follow] at h
        split at h
        · next hok =>
          split at h
          · next d hret =>
            have hrest := ih (s := { s with driver := d })
              (fun c hc => hseen c (List.mem_cons_of_mem _ hc)) h
            exact .head (.configurePort env seen port hok hret) hrest
          · contradiction
        · contradiction

/-- Port 1 waits for a slot. -/
def waiting : LockRun := { start Driver.fresh with driver := Driver.enabling }

/-- Port 1 is granted slot 1. -/
def grant : Env := Driver.seeing (Driver.completion 0 1#8 1#8) (fun _ => true) 0#8

/-- The address of port 1 cannot be assigned (`USB Transaction Error`). -/
def transactionError : Env := Driver.seeing (Driver.completion 1 4#8 1#8) (fun _ => true) 0#8

/-- The controller has granted slot 1. -/
def granting : LockRun := { waiting with
  status := update waiting.status 0 (.answered Driver.success 1#8)
  granted := [1#8] }

/-- Port 1 waits for its address. -/
def addressing : LockRun := { granting with
  driver := granting.driver.next grant
  status := update granting.status 0 .handled }

/-- The second command of `addressing`. -/
def addressCommand : Trb := (addressing.commands.getD 1 (0#8, 0#128)).2

/-- The controller has given up on the address of port 1. -/
def failing : LockRun := { addressing with
  status := update addressing.status 1 (.answered 4#8 1#8) }

/-- Port 1 has been orphaned. -/
def orphan : LockRun := { failing with
  driver := failing.driver.next transactionError
  status := update failing.status 1 .handled
  addressed := failing.record addressCommand 4#8 }

theorem seen_seeing (s : LockRun) (h : ∀ i, s.contextPort i = 0#8) (event : Trb)
    (connected : BitVec 8 → Bool) : s.Seen (Driver.seeing event connected 0#8) := fun i =>
  (BitField.get_put _ _ _).trans (h i).symm

theorem run_waiting : ReflTransGen Step (start Driver.fresh) waiting := by
  refine run_of_follow (fun c hc => ?_) Driver.follow_enabling
  have hevents : ∀ c ∈ Driver.configureThree.take 4, ∃ event connected,
      c.1 = Driver.seeing event connected 0#8 ∧
        TRB.trbType.get (TRB.withCycle event true) ≠ CommandCompletionEventTRB.type := by
    simp only [Driver.configureThree, List.take_succ_cons, List.take_zero, List.forall_mem_cons]
    refine ⟨⟨_, _, rfl, by decide⟩, ⟨_, _, rfl, by decide⟩, ⟨_, _, rfl, by decide⟩,
      ⟨_, _, rfl, by decide⟩, fun _ hc => absurd hc List.not_mem_nil⟩
  obtain ⟨event, connected, henv, hother⟩ := hevents c hc
  rw [henv]
  exact ⟨seen_seeing _ (fun _ => rfl) event connected, fun _ => hother⟩

theorem run_addressing : ReflTransGen Step (start Driver.fresh) addressing := by
  have hissued : granting.commands[0]? = some (1#8, EnableSlotCommandTRB.new) := by decide +kernel
  have hanswer : waiting.Answer EnableSlotCommandTRB.new Driver.success 1#8
      { waiting with granted := [1#8] } := .granted 1#8 (by decide) (by decide) (by decide)
  have hpointer : CommandCompletionEventTRB.pointer (granting.driver.event grant) =
      granting.driver.xhc.cr.entry (0 % (granting.driver.xhc.cr.bufSize - 1)) := by decide +kernel
  have hret : granting.driver.processEvent grant = .ok (.kSuccess, granting.driver.next grant) :=
    Driver.processEvent_next (by decide +kernel)
  refine (run_waiting.tail (.answer 0 hissued rfl hanswer)).tail ?_
  exact .complete grant (seen_seeing granting (fun _ => rfl) _ _) 0 hissued rfl
    ⟨by decide +kernel, by decide +kernel⟩ hpointer (by decide +kernel) (by decide +kernel) hret

theorem run_orphan : ReflTransGen Step (start Driver.fresh) orphan := by
  have hissued : failing.commands[1]? = some (1#8, addressCommand) := by decide +kernel
  have hslot : AddressDeviceCommandTRB.slotId.get addressCommand = 1#8 := by decide +kernel
  have hanswer : addressing.Answer addressCommand 4#8 1#8 addressing :=
    hslot ▸ .notAddressed 4#8 (by decide +kernel) (by decide)
  have hpointer : CommandCompletionEventTRB.pointer (failing.driver.event transactionError) =
      failing.driver.xhc.cr.entry (1 % (failing.driver.xhc.cr.bufSize - 1)) := by decide +kernel
  have hret : failing.driver.processEvent transactionError =
      .ok (.kInvalidPhase, failing.driver.next transactionError) :=
    Driver.processEvent_next (by decide +kernel)
  refine (run_addressing.tail (.answer 1 hissued rfl hanswer)).tail ?_
  exact .complete transactionError (seen_seeing failing (fun _ => rfl) _ _) 1 hissued rfl
    ⟨by decide +kernel, by decide +kernel⟩ hpointer (by decide +kernel) (by decide +kernel) hret

/-- While port 1 waits for its address, the command that gets it one is under
way. -/
theorem guarded_addressing : addressing.Guarded :=
  (guarded_iff Driver.fresh_initialized run_addressing).mpr fun _ hc => absurd hc List.not_mem_nil

/-- **A failed Address Device orphans the lock**: port 1 holds it, and
nothing is under way that could make it give it back. -/
theorem not_guarded_orphan :
    Driver.fresh.Initialized ∧ ReflTransGen Step (start Driver.fresh) orphan ∧
    orphan.lock = 1#8 ∧ orphan.phase = .kAddressingDevice ∧ orphan.addressed = [4#8] ∧
    (∀ k, k < orphan.commands.length → orphan.status k = .handled) ∧ ¬ orphan.Guarded := by
  have hlock : orphan.lock = 1#8 := by decide +kernel
  have hphase : orphan.phase = .kAddressingDevice := by decide +kernel
  have hhandled : ∀ k, k < orphan.commands.length → orphan.status k = .handled := by
    decide +kernel
  refine ⟨Driver.fresh_initialized, run_orphan, hlock, hphase, by decide +kernel, hhandled,
    fun hguarded => ?_⟩
  rcases hguarded (by rw [hlock]; decide) with hreset | ⟨henable, _⟩ | ⟨_, k, cmd, hk, _, hopen⟩
  · exact absurd (hreset.symm.trans hphase) (by decide)
  · exact absurd (henable.symm.trans hphase) (by decide)
  · exact hopen (hhandled k (List.getElem?_eq_some_iff.mp hk).1)

end LockRun

end MikanOs.Usb.Xhci
