import Mathlib.Algebra.BigOperators.Group.Finset.Basic
import MikanOs.Usb.Xhci.Initialize
import MikanOs.Usb.Xhci.Progress

/-!
# MikanOs.Usb.Xhci.AllPorts

All devices get configured.  Several ports are brought up at the same time, but
only one of them can be between its reset and its address: the others wait for
the lock.  `PortStage` is how far a port is; a port that waits is handed the lock
by the event that another port gives it back with.

The events come in any order that the controller may answer in.  A run never
gets stuck with a port left behind (`Proceeds.notStuck`), takes every answer
(`Proceeds.answer`), and, as every step brings one port one step further, has
all ports configured after eight steps for each of them (`allPorts`).
-/

namespace MikanOs.Usb.Xhci

open Usb.Device Descriptor

/-! ## stages -/

/-- How far the bring-up of a port is. -/
inductive PortStage
  | empty
  | waiting
  | awaits (a : Awaited)
  deriving DecidableEq

/-- The number of events still to come. -/
def Awaited.remaining : Awaited → Nat
  | .reset => 7
  | .slot => 6
  | .address => 5
  | .deviceDescriptor => 4
  | .configuration => 3
  | .setting => 2
  | .endpoints => 1
  | .nothing => 0

theorem Awaited.remaining_next {a : Awaited} (h : a ≠ .nothing) :
    a.remaining = a.next.remaining + 1 := by
  cases a <;> first | rfl | exact absurd rfl h

namespace PortStage

def phase : PortStage → ConfigPhase
  | empty => .kNotConnected
  | waiting => .kWaitingAddressed
  | awaits a => a.phase

/-- The number of steps still to come.  A port that waits is handed the lock by
an event of another port. -/
def remaining : PortStage → Nat
  | empty => 8
  | waiting => 7
  | awaits a => a.remaining

theorem phase_eq_waiting {g : PortStage} : g.phase = .kWaitingAddressed ↔ g = .waiting := by
  rcases g with _ | _ | a
  · decide
  · decide
  · cases a <;> decide

theorem eq_of_remaining_eq_zero {g : PortStage} (h : g.remaining = 0) :
    g = .awaits .nothing := by
  rcases g with _ | _ | a
  · contradiction
  · contradiction
  · cases a <;> first | rfl | contradiction

end PortStage

/-- Which ports something is plugged into, and the slots their devices are going
to be given. -/
structure Plan where
  ports : Finset (BitVec 8)
  slotOf : BitVec 8 → BitVec 8

/-- No port is 0, and no two get one slot. -/
structure Plan.Ok (plan : Plan) (maxSlots : Nat) : Prop where
  named : ∀ p ∈ plan.ports, p ≠ 0#8
  apart : ∀ p ∈ plan.ports, ∀ q ∈ plan.ports, plan.slotOf q = plan.slotOf p → q = p
  fits : ∀ p ∈ plan.ports, (plan.slotOf p).toNat ≤ maxSlots

/-- The driver, and how far each port is. -/
structure RootHub where
  driver : Driver
  stage : BitVec 8 → PortStage

namespace RootHub

/-- The first port that waits is handed the lock. -/
def resumed (hub : RootHub) : BitVec 8 → PortStage :=
  match hub.driver.xhc.firstWaiting with
  | none => hub.stage
  | some q => update hub.stage q (.awaits .reset)

/-- What a port waits for has come. -/
def after (hub : RootHub) (port : BitVec 8) (a : Awaited) : BitVec 8 → PortStage :=
  update (if a = .address then hub.resumed else hub.stage) port (.awaits a.next)

/-- What a call sees of the ports and the slots: nothing is unplugged, no reset
goes on for ever, and the device context in each slot names its port from the
Address Device command on. -/
structure Sees (plan : Plan) (env : Env) (hub : RootHub) : Prop where
  connected : ∀ p ∈ plan.ports, (Port.ofEnv env p).isConnected 0 = true
  resets : ResetsEnd env
  context : ∀ p ∈ plan.ports, ∀ a, hub.stage p = .awaits a → a ≠ .reset → a ≠ .slot →
    Controller.contextPort env (plan.slotOf p) = p

/-- `ConfigurePort` of a port that something is plugged into, or an event that a
port waits for.  Of such an event `Answers` asks that the pool has room for what
comes of it, that the device sends descriptors the driver can use, and that the
speed of the port is known. -/
inductive Step (plan : Plan) (hub : RootHub) : RootHub → Prop
  | plug (env : Env) (port : BitVec 8) (mem : port ∈ plan.ports) (sees : Sees plan env hub)
      (empty : hub.stage port = .empty)
      (ret : hub.driver.configurePort env port = .ok (err, d)) :
      Step plan hub ⟨d, update hub.stage port
        (if hub.driver.xhc.addressingPort = 0#8 then .awaits .reset else .waiting)⟩
  | answer (env : Env) (port : BitVec 8) (mem : port ∈ plan.ports) (sees : Sees plan env hub)
      (a : Awaited) (awaits : hub.stage port = .awaits a)
      (answers : Answers port (plan.slotOf port) env hub.driver a)
      (ret : hub.driver.processEvent env = .ok (err, d)) : Step plan hub ⟨d, hub.after port a⟩

/-- So many steps. -/
inductive Run (plan : Plan) (hub₀ : RootHub) : Nat → RootHub → Prop
  | start : Run plan hub₀ 0 hub₀
  | step (run : Run plan hub₀ n hub) (step : Step plan hub hub') : Run plan hub₀ (n + 1) hub'

/-! ## what holds all along -/

/-- The driver is where the stages say. -/
structure Together (plan : Plan) (hub : RootHub) : Prop where
  outside : ∀ p, p ∉ plan.ports → hub.stage p = .empty
  phase : ∀ p, hub.driver.xhc.portConfigPhase p = (hub.stage p).phase
  unused : ∀ p ∈ plan.ports, hub.stage p = .empty ∨ hub.stage p = .waiting →
    hub.driver.xhc.devmgr.devices (plan.slotOf p) = none
  awaits : ∀ p ∈ plan.ports, ∀ a, hub.stage p = .awaits a →
    At p (plan.slotOf p) a hub.driver.xhc
  orderly : ∃ r, Controller.Orderly r hub.driver.xhc
  /-- while a port waits, another one holds the lock -/
  idle : hub.driver.xhc.addressingPort = 0#8 → ∀ p, hub.stage p ≠ .waiting
  ring : hub.driver.xhc.cr.buf ≠ 0#64
  maxSlots : plan.Ok hub.driver.xhc.devmgr.maxSlots

end RootHub

/-! ## an answer passes by the other ports -/

section

variable {port q slot j : BitVec 8} {a : Awaited} {env : Env} {d d' : Driver} {err : Error}

theorem passesBy_status (type : TRB.trbType.get (d.event env) = PortStatusChangeEventTRB.type)
    (other : PortStatusChangeEventTRB.portId.get (d.event env) ≠ q) :
    Controller.PassesBy q j env d.xhc (d.event env) where
  status := fun _ same => absurd same other
  transfer := fun transfer => absurd (type.symm.trans transfer) (by decide)
  command := fun command => absurd (type.symm.trans command) (by decide)
  resumed := fun command => absurd (type.symm.trans command) (by decide)

theorem Driver.Transfers.passesBy (h : d.Transfers env slot) (hj : j ≠ slot)
    (other : Controller.contextPort env slot ≠ q) :
    Controller.PassesBy q j env d.xhc (d.event env) where
  status := fun status => absurd (h.type.symm.trans status) (by decide)
  transfer := fun _ => by
    rw [h.slotId]
    exact ⟨hj.symm, other⟩
  command := fun command => absurd (h.type.symm.trans command) (by decide)
  resumed := fun command => absurd (h.type.symm.trans command) (by decide)

theorem Driver.Commanded.passesBy {type : BitVec 6} (h : d.Commanded env type slot)
    (hj : j ≠ slot) (other : if type = EnableSlotCommandTRB.type then
        d.xhc.portConfigPhase q ≠ .kEnablingSlot else Controller.contextPort env slot ≠ q)
    (next : type = AddressDeviceCommandTRB.type → d.xhc.firstWaiting ≠ some q) :
    Controller.PassesBy q j env d.xhc (d.event env) := by
  have hissuer : d.xhc.issuerType env (d.event env) = type := h.issuer
  have hslot : CommandCompletionEventTRB.slotId.get (d.event env) = slot := h.slotId
  refine ⟨fun status => ?_, fun transfer => ?_, fun _ => ?_, fun _ address => ?_⟩
  · exact absurd (h.completes.type.symm.trans status) (by decide)
  · exact absurd (h.completes.type.symm.trans transfer) (by decide)
  · rw [hslot, hissuer]
    exact ⟨hj.symm, other⟩
  · exact next (hissuer.symm.trans address)

/-- What a port waits for is not about another one. -/
theorem Answers.passesBy {r : Ring} (answers : Answers port slot env d a)
    (h : At port slot a d.xhc) (orderly : Controller.Orderly r d.xhc) (hq : q ≠ port)
    (hj : j ≠ slot)
    (context : a ≠ .reset → a ≠ .slot → Controller.contextPort env slot = port)
    (next : a = .address → d.xhc.firstWaiting ≠ some q) :
    Controller.PassesBy q j env d.xhc (d.event env) := by
  cases answers with
  | reset found type named enabled changed => exact passesBy_status type (named ▸ hq.symm)
  | slot completes cursor room =>
      refine completes.passesBy hj ?_ nofun
      rw [if_pos rfl]
      intro enabling
      have hlock : d.xhc.addressingPort = q := orderly.lock_eq (by rw [enabling]; rfl)
      exact hq (hlock.symm.trans (h.lock rfl))
  | address completes named resets =>
      exact completes.passesBy hj (named ▸ hq.symm) fun _ => next rfl
  | deviceDescriptor transfers dev found answer type =>
      exact transfers.passesBy hj (context nofun nofun ▸ hq.symm)
  | configuration transfers dev found answer eps offers cursor room =>
      exact transfers.passesBy hj (context nofun nofun ▸ hq.symm)
  | setting transfers dev found answer named known cursor room =>
      exact transfers.passesBy hj (named ▸ hq.symm)
  | endpoints completes named => exact completes.passesBy hj (named ▸ hq.symm) nofun

/-- The first port that waits gets the lock that another one gives back. -/
theorem Answers.handsOver {t : Controller} (answers : Answers port slot env d .address)
    (h : At port slot .address d.xhc) (first : d.xhc.firstWaiting = some q)
    (connected : (Port.ofEnv env q).isConnected 0 = true) (hq : q ≠ port) (hj : j ≠ slot)
    (unused : d.xhc.devmgr.devices j = none) (fits : j.toNat ≤ d.xhc.devmgr.maxSlots)
    (ret : d.xhc.onEvent env (d.event env) = .ok (err, t)) : At q j .reset t := by
  cases answers with
  | address completes named resets =>
      have hdevice := h.device
      generalize hdev : d.xhc.devmgr.devices slot = dev at hdevice
      cases hdevice with
      | address dev idle unserved buf =>
          obtain ⟨u, p, host, hret, hends, _⟩ := Controller.addressed_answered
            (h.lock rfl) h.phase h.slot hdev idle resets completes.issuer completes.slotId named
          obtain ⟨_, rfl⟩ := Prod.mk.inj (Except.ok.inj
            (ret.symm.trans (completes.onEvent.trans hret)))
          cases hends with
          | nobody none => exact absurd (none.symm.trans first) nofun
          | absent i first' off =>
              obtain rfl : i = q := Option.some.inj (first'.symm.trans first)
              exact absurd (off.symm.trans connected) (by decide)
          | resuming i first' on host' =>
              obtain rfl : i = q := Option.some.inj (first'.symm.trans first)
              refine ⟨(update_ne hq _ _).trans (update_self _ _ _), fun _ => rfl, ?_, fits, h.ring⟩
              have hnone : (d.xhc.devmgr.set slot { dev with pipes := p }).devices j = none :=
                (update_ne hj _ _).trans unused
              exact hnone ▸ .reset

/-- A port status change event that a port waits for is about a port there is. -/
theorem Answers.portId_ne_zero (answers : Answers port slot env d a) (named : port ≠ 0#8)
    (type : TRB.trbType.get (d.event env) = PortStatusChangeEventTRB.type) :
    PortStatusChangeEventTRB.portId.get (d.event env) ≠ 0#8 := by
  cases answers with
  | reset found type' portId enabled changed => rwa [portId]
  | slot completes cursor room =>
      exact absurd (completes.completes.type.symm.trans type) (by decide)
  | address completes named resets =>
      exact absurd (completes.completes.type.symm.trans type) (by decide)
  | deviceDescriptor transfers => exact absurd (transfers.type.symm.trans type) (by decide)
  | configuration transfers => exact absurd (transfers.type.symm.trans type) (by decide)
  | setting transfers => exact absurd (transfers.type.symm.trans type) (by decide)
  | endpoints completes named => exact absurd (completes.completes.type.symm.trans type) (by decide)

theorem Answers.found (answers : Answers port slot env d a) : d.er.hasFront env 1 = true := by
  cases answers with
  | reset found => exact found
  | slot completes => exact completes.completes.found
  | address completes => exact completes.completes.found
  | deviceDescriptor transfers => exact transfers.found
  | configuration transfers => exact transfers.found
  | setting transfers => exact transfers.found
  | endpoints completes => exact completes.completes.found

end

/-! ## one step -/

namespace RootHub

section

variable {plan : Plan} {hub : RootHub} {env : Env} {port q : BitVec 8} {a : Awaited} {d : Driver}
  {err : Error}

theorem after_self : hub.after port a port = .awaits a.next := update_self _ _ _

theorem after_ne (hq : q ≠ port) (next : a = .address → hub.driver.xhc.firstWaiting ≠ some q) :
    hub.after port a q = hub.stage q := by
  refine (update_ne hq _ _).trans ?_
  split
  · next ha =>
    unfold resumed
    cases hfirst : hub.driver.xhc.firstWaiting with
    | none => rfl
    | some i =>
        refine update_ne ?_ _ _
        rintro rfl
        exact next ha hfirst
  · rfl

theorem after_first (hq : q ≠ port) (first : hub.driver.xhc.firstWaiting = some q) :
    hub.after port .address q = .awaits .reset := by
  refine (update_ne hq _ _).trans ?_
  rw [if_pos rfl, resumed, first]
  exact update_self _ _ _

namespace Together

theorem mem (h : Together plan hub) (hq : hub.stage q ≠ .empty) : q ∈ plan.ports :=
  Decidable.not_not.mp fun hout => hq (h.outside q hout)

theorem waiting_of_first (h : Together plan hub)
    (first : hub.driver.xhc.firstWaiting = some q) : hub.stage q = .waiting :=
  PortStage.phase_eq_waiting.mp ((h.phase q).symm.trans (Controller.phase_firstWaiting first))

/-- The port that gets the lock when an answer comes. -/
theorem handed (h : Together plan hub) (mem : port ∈ plan.ports) (sees : Sees plan env hub)
    (awaits : hub.stage port = .awaits .address)
    (answers : Answers port (plan.slotOf port) env hub.driver .address)
    (event : hub.driver.xhc.onEvent env (hub.driver.event env) = .ok (err, d.xhc))
    (first : hub.driver.xhc.firstWaiting = some q) :
    q ≠ port ∧ At q (plan.slotOf q) .reset d.xhc := by
  have hwaiting := h.waiting_of_first first
  have hq : q ≠ port := by
    rintro rfl
    exact absurd (hwaiting.symm.trans awaits) nofun
  have hmem : q ∈ plan.ports := h.mem (by rw [hwaiting]; exact nofun)
  have hslot : plan.slotOf q ≠ plan.slotOf port :=
    fun same => hq (h.maxSlots.apart port mem q hmem same)
  exact ⟨hq, answers.handsOver (h.awaits port mem _ awaits) first (sees.connected q hmem) hq hslot
    (h.unused q hmem (.inr hwaiting)) (h.maxSlots.fits q hmem) event⟩

/-- Every other port is handed the lock, or left alone. -/
theorem others (h : Together plan hub) (mem : port ∈ plan.ports) (sees : Sees plan env hub)
    (awaits : hub.stage port = .awaits a)
    (answers : Answers port (plan.slotOf port) env hub.driver a)
    (event : hub.driver.xhc.onEvent env (hub.driver.event env) = .ok (err, d.xhc))
    (named : q ≠ 0#8) (hq : q ≠ port) :
    (hub.after port a q = .awaits .reset ∧ hub.stage q = .waiting ∧
        At q (plan.slotOf q) .reset d.xhc) ∨
      (hub.after port a q = hub.stage q ∧ ∀ j, j ≠ plan.slotOf port →
        Controller.Kept q j hub.driver.xhc d.xhc) := by
  obtain ⟨r, horderly⟩ := h.orderly
  by_cases hhanded : a = .address ∧ hub.driver.xhc.firstWaiting = some q
  · obtain ⟨rfl, first⟩ := hhanded
    exact .inl ⟨after_first hq first, h.waiting_of_first first,
      (h.handed mem sees awaits answers event first).2⟩
  · have hnext : a = .address → hub.driver.xhc.firstWaiting ≠ some q :=
      fun ha first => hhanded ⟨ha, first⟩
    exact .inr ⟨after_ne hq hnext, fun j hj => .of_event named
      (answers.passesBy (h.awaits port mem a awaits) horderly hq hj
        (sees.context port mem a awaits) hnext) event⟩

theorem stage_zero (h : Together plan hub) : hub.stage 0#8 = .empty :=
  h.outside _ fun hzero => h.maxSlots.named _ hzero rfl

/-- Where every port is after an answer. -/
theorem answer_phase (h : Together plan hub) (mem : port ∈ plan.ports) (sees : Sees plan env hub)
    (awaits : hub.stage port = .awaits a)
    (answers : Answers port (plan.slotOf port) env hub.driver a)
    (event : hub.driver.xhc.onEvent env (hub.driver.event env) = .ok (err, d.xhc))
    (next : At port (plan.slotOf port) a.next d.xhc)
    (zero : d.xhc.portConfigPhase 0#8 = .kNotConnected) (q : BitVec 8) :
    d.xhc.portConfigPhase q = (hub.after port a q).phase := by
  by_cases hq : q = port
  · rw [hq, after_self]
    exact next.phase
  by_cases hzero : q = 0#8
  · subst hzero
    have hfirst : hub.driver.xhc.firstWaiting ≠ some 0#8 := fun first =>
      absurd (h.stage_zero.symm.trans (h.waiting_of_first first)) nofun
    rw [zero, after_ne hq fun _ => hfirst, h.stage_zero]
    rfl
  rcases h.others mem sees awaits answers event hzero hq with ⟨hafter, _, hat⟩ | ⟨hafter, hkept⟩
  · rw [hafter]
    exact hat.phase
  · have hslot : plan.slotOf port + 1#8 ≠ plan.slotOf port := by bv_omega
    rw [hafter, ← h.phase]
    exact (hkept _ hslot).phase

/-- The port that holds the lock before an answer that leaves another one waiting
holds it afterwards, or the first port that waits does. -/
theorem answer_idle (h : Together plan hub) (mem : port ∈ plan.ports) (sees : Sees plan env hub)
    (awaits : hub.stage port = .awaits a)
    (answers : Answers port (plan.slotOf port) env hub.driver a)
    (event : hub.driver.xhc.onEvent env (hub.driver.event env) = .ok (err, d.xhc))
    (next : At port (plan.slotOf port) a.next d.xhc)
    (zero : d.xhc.portConfigPhase 0#8 = .kNotConnected) (free : d.xhc.addressingPort = 0#8) :
    hub.after port a q ≠ .waiting := by
  intro hwaits
  have hnamed : port ≠ 0#8 := h.maxSlots.named port mem
  have hphase := h.answer_phase mem sees awaits answers event next zero q
  rw [hwaits] at hphase
  have hzero : q ≠ 0#8 := by
    rintro rfl
    exact absurd (zero.symm.trans hphase) (by decide)
  have hq : q ≠ port := by
    rintro rfl
    exact absurd (after_self.symm.trans hwaits) nofun
  rcases h.others mem sees awaits answers event hzero hq with ⟨hafter, _⟩ | ⟨hafter, _⟩
  · exact absurd (hafter.symm.trans hwaits) nofun
  obtain ⟨r, horderly⟩ := h.orderly
  have hstage : hub.stage q = .waiting := hafter.symm.trans hwaits
  have held : hub.driver.xhc.addressingPort ≠ 0#8 := fun idle => h.idle idle q hstage
  have hexclusive := horderly.exclusive_lock held
  by_cases hholder : hub.driver.xhc.addressingPort = port
  · -- the port itself gives the lock back with its address only
    rw [hholder, h.phase, awaits] at hexclusive
    cases a with
    | reset | slot => exact hnamed ((next.lock rfl).symm.trans free)
    | address =>
        cases hfirst : hub.driver.xhc.firstWaiting with
        | none => exact Controller.firstWaiting_eq_none hfirst q (by rw [h.phase, hstage]; rfl)
        | some i =>
            have hat := (h.handed mem sees awaits answers event hfirst).2
            have hi : i = 0#8 := (hat.lock rfl).symm.trans free
            rw [hi] at hat
            exact absurd (zero.symm.trans hat.phase) (by decide)
    | deviceDescriptor | configuration | setting | endpoints | nothing =>
        exact absurd hexclusive (by decide)
  · rcases h.others mem sees awaits answers event held hholder with
      ⟨_, hwaiting, _⟩ | ⟨_, hkept⟩
    · rw [h.phase, hwaiting] at hexclusive
      exact absurd hexclusive (by decide)
    · have hslot : plan.slotOf port + 1#8 ≠ plan.slotOf port := by bv_omega
      exact held (((hkept _ hslot).lock.mpr rfl).symm.trans free)

/-- **An answer** leaves the driver where the stages say. -/
theorem answer (h : Together plan hub) (mem : port ∈ plan.ports) (sees : Sees plan env hub)
    (awaits : hub.stage port = .awaits a)
    (answers : Answers port (plan.slotOf port) env hub.driver a)
    (ret : hub.driver.processEvent env = .ok (err, d)) :
    Together plan ⟨d, hub.after port a⟩ := by
  have hnamed : ∀ q ∈ plan.ports, q ≠ 0#8 := h.maxSlots.named
  obtain ⟨d', hret, next⟩ := (h.awaits port mem a awaits).processEvent answers
  obtain ⟨_, rfl⟩ := Prod.mk.inj (Except.ok.inj (ret.symm.trans hret))
  have event : hub.driver.xhc.onEvent env (hub.driver.event env) = .ok (err, d.xhc) := by
    rcases Driver.processEvent_ends ret with ⟨hfront, _⟩ | ⟨_, hevent, _⟩
    · exact absurd (hfront.symm.trans answers.found) (by decide)
    · exact hevent
  obtain ⟨r, horderly⟩ := h.orderly
  have horderly' : Controller.Orderly r d.xhc :=
    horderly.moves (.of_event horderly.zero (answers.portId_ne_zero (hnamed port mem))
      (Controller.onEvent_ends event))
  have hslot : ∀ q ∈ plan.ports, q ≠ port → plan.slotOf q ≠ plan.slotOf port :=
    fun q hq hne same => hne (h.maxSlots.apart port mem q hq same)
  refine ⟨fun q hq => ?_, h.answer_phase mem sees awaits answers event next horderly'.zero,
    fun q hq hstage => ?_, fun q hq b hb => ?_, ⟨r, horderly'⟩,
    fun free q => h.answer_idle mem sees awaits answers event next horderly'.zero free, next.ring,
    hnamed, h.maxSlots.apart, fun q hq => ?_⟩
  · have hne : q ≠ port := fun same => hq (same ▸ mem)
    have hempty := h.outside q hq
    refine (after_ne hne fun _ first => ?_).trans hempty
    exact absurd (hempty.symm.trans (h.waiting_of_first first)) nofun
  · change hub.after port a q = .empty ∨ hub.after port a q = .waiting at hstage
    have hne : q ≠ port := by
      rintro rfl
      rw [after_self] at hstage
      exact absurd hstage (by simp)
    rcases h.others mem sees awaits answers event (hnamed q hq) hne with
      ⟨hafter, _⟩ | ⟨hafter, hkept⟩
    · rw [hafter] at hstage
      exact absurd hstage (by simp)
    · rw [hafter] at hstage
      rw [(hkept _ (hslot q hq hne)).device]
      exact h.unused q hq hstage
  · by_cases hne : q = port
    · subst hne
      obtain rfl : a.next = b := PortStage.awaits.inj (after_self.symm.trans hb)
      exact next
    · rcases h.others mem sees awaits answers event (hnamed q hq) hne with
        ⟨hafter, _, hat⟩ | ⟨hafter, hkept⟩
      · obtain rfl : .reset = b := PortStage.awaits.inj (hafter.symm.trans hb)
        exact hat
      · exact (h.awaits q hq b (hafter.symm.trans hb)).kept (hkept _ (hslot q hq hne))
  · by_cases hne : q = port
    · exact hne ▸ next.slot
    · rcases h.others mem sees awaits answers event (hnamed q hq) hne with
        ⟨_, _, hat⟩ | ⟨_, hkept⟩
      · exact hat.slot
      · rw [(hkept _ (hslot q hq hne)).maxSlots]
        exact h.maxSlots.fits q hq

/-- `ConfigurePort` of an empty port takes the lock, or has the port wait. -/
theorem plug_ends (h : Together plan hub) (mem : port ∈ plan.ports) (sees : Sees plan env hub)
    (empty : hub.stage port = .empty)
    (ret : hub.driver.configurePort env port = .ok (err, d)) :
    (hub.driver.xhc.addressingPort ≠ 0#8 ∧
        d.xhc = hub.driver.xhc.setPhase port .kWaitingAddressed) ∨
      (hub.driver.xhc.addressingPort = 0#8 ∧ ∃ host, d.xhc = hub.driver.xhc.locked port host) := by
  have hphase : hub.driver.xhc.portConfigPhase port = .kNotConnected := by
    rw [h.phase, empty]
    rfl
  have hreset : hub.driver.xhc.resetPort env port = .ok (err, d.xhc) :=
    (if_pos hphase).symm.trans (Driver.configurePort_ok ret)
  generalize d.xhc = t at hreset
  cases Controller.resetPort_ends hreset with
  | absent off => exact absurd (off.symm.trans (sees.connected port mem)) (by decide)
  | waiting on held => exact .inl ⟨held, rfl⟩
  | refused on free late => exact absurd hphase late.1
  | resetting on free early host => exact .inr ⟨free, host, rfl⟩

/-- A port is not empty any more. -/
theorem placed (h : Together plan hub) (mem : port ∈ plan.ports) (empty : hub.stage port = .empty)
    {g : PortStage}
    (phase : d.xhc.portConfigPhase = update hub.driver.xhc.portConfigPhase port g.phase)
    (devmgr : d.xhc.devmgr = hub.driver.xhc.devmgr) (cr : d.xhc.cr = hub.driver.xhc.cr)
    (first : g = .waiting ∨ g = .awaits .reset) (lock : g = .awaits .reset →
      d.xhc.addressingPort = port) (held : hub.driver.xhc.addressingPort ≠ 0#8 →
      d.xhc.addressingPort = hub.driver.xhc.addressingPort) (taken : d.xhc.addressingPort ≠ 0#8)
    (orderly : ∃ r, Controller.Orderly r d.xhc) : Together plan ⟨d, update hub.stage port g⟩ where
  outside q hq := by
    have hne : q ≠ port := fun same => hq (same ▸ mem)
    exact (update_ne hne _ _).trans (h.outside q hq)
  phase q := by
    show d.xhc.portConfigPhase q = (update hub.stage port g q).phase
    rw [phase]
    by_cases hne : q = port
    · rw [hne, update_self, update_self]
    · rw [update_ne hne, update_ne hne]
      exact h.phase q
  unused q hq hstage := by
    change update hub.stage port g q = .empty ∨ update hub.stage port g q = .waiting at hstage
    rw [devmgr]
    by_cases hne : q = port
    · exact hne ▸ h.unused port mem (.inl empty)
    · rw [update_ne hne] at hstage
      exact h.unused q hq hstage
  awaits q hq b hb := by
    change update hub.stage port g q = .awaits b at hb
    by_cases hne : q = port
    · subst hne
      rw [update_self] at hb
      rcases first with rfl | rfl
      · exact absurd hb nofun
      · obtain rfl : .reset = b := PortStage.awaits.inj hb
        refine ⟨?_, fun _ => lock rfl, ?_, ?_, cr ▸ h.ring⟩
        · rw [phase]
          exact update_self _ _ _
        · rw [devmgr, h.unused q hq (.inl empty)]
          exact .reset
        · rw [devmgr]
          exact h.maxSlots.fits q hq
    · rw [update_ne hne] at hb
      have hat := h.awaits q hq b hb
      refine ⟨?_, fun exclusive => ?_, ?_, ?_, cr ▸ h.ring⟩
      · rw [phase, update_ne hne]
        exact hat.phase
      · have hholder := hat.lock exclusive
        rw [held (by rw [hholder]; exact h.maxSlots.named q hq), hholder]
      · rw [devmgr]
        exact hat.device
      · rw [devmgr]
        exact hat.slot
  orderly := orderly
  idle free := absurd free taken
  ring := cr ▸ h.ring
  maxSlots := by
    rw [devmgr]
    exact h.maxSlots

/-- **`ConfigurePort`** leaves the driver where the stages say. -/
theorem plug (h : Together plan hub) (mem : port ∈ plan.ports) (sees : Sees plan env hub)
    (empty : hub.stage port = .empty)
    (ret : hub.driver.configurePort env port = .ok (err, d)) :
    Together plan ⟨d, update hub.stage port
      (if hub.driver.xhc.addressingPort = 0#8 then .awaits .reset else .waiting)⟩ := by
  have hnamed : port ≠ 0#8 := h.maxSlots.named port mem
  obtain ⟨r, horderly⟩ := h.orderly
  have horderly' : Controller.Orderly r d.xhc :=
    horderly.moves (.of_configurePort horderly.zero hnamed (Driver.configurePort_ok ret))
  rcases h.plug_ends mem sees empty ret with ⟨held, hd⟩ | ⟨free, host, hd⟩
  · rw [if_neg held]
    exact h.placed mem empty (by rw [hd]; rfl) (by rw [hd]; rfl) (by rw [hd]; rfl) (.inl rfl) nofun
      (fun _ => by rw [hd]; rfl) (by rw [hd]; exact held) ⟨r, horderly'⟩
  · rw [if_pos free]
    exact h.placed mem empty (by rw [hd]; rfl) (by rw [hd]; rfl) (by rw [hd]; rfl) (.inr rfl)
      (fun _ => by rw [hd]; rfl) (fun held => absurd free held) (by rw [hd]; exact hnamed)
      ⟨r, horderly'⟩

theorem step {hub' : RootHub} (h : Together plan hub) (hstep : Step plan hub hub') :
    Together plan hub' := by
  cases hstep with
  | plug env port mem sees empty ret => exact h.plug mem sees empty ret
  | answer env port mem sees a awaits answers ret => exact h.answer mem sees awaits answers ret

/-- Unless all is done, something is there to plug in or to wait for. -/
theorem notStuck (h : Together plan hub) :
    (∀ p ∈ plan.ports, hub.stage p = .awaits .nothing) ∨ ∃ p ∈ plan.ports,
      hub.stage p = .empty ∨ ∃ a, a ≠ .nothing ∧ hub.stage p = .awaits a := by
  by_contra hstuck
  obtain ⟨hleft, hnobody⟩ := not_or.mp hstuck
  refine hleft fun p hp => ?_
  cases hstage : hub.stage p with
  | empty => exact absurd ⟨p, hp, .inl hstage⟩ hnobody
  | waiting =>
      -- the port that holds the lock is one that waits for an event
      obtain ⟨r, horderly⟩ := h.orderly
      have held : hub.driver.xhc.addressingPort ≠ 0#8 := fun idle => h.idle idle p hstage
      have hexclusive := horderly.exclusive_lock held
      generalize hub.driver.xhc.addressingPort = q at hexclusive
      rw [h.phase] at hexclusive
      cases hq : hub.stage q with
      | empty => rw [hq] at hexclusive; exact absurd hexclusive (by decide)
      | waiting => rw [hq] at hexclusive; exact absurd hexclusive (by decide)
      | awaits a =>
          rw [hq] at hexclusive
          refine absurd ⟨q, h.mem (by rw [hq]; exact nofun), .inr ⟨a, ?_, hq⟩⟩ hnobody
          rintro rfl
          exact absurd hexclusive (by decide)
  | awaits a =>
      by_cases ha : a = .nothing
      · rw [ha]
      · exact absurd ⟨p, hp, .inr ⟨a, ha, hstage⟩⟩ hnobody

/-- `ConfigurePort` of an empty port returns. -/
theorem plug_returns (h : Together plan hub) (mem : port ∈ plan.ports) (sees : Sees plan env hub)
    (empty : hub.stage port = .empty) :
    ∃ d, hub.driver.configurePort env port = .ok (.kSuccess, d) := by
  have hphase : hub.driver.xhc.portConfigPhase port = .kNotConnected := by
    rw [h.phase, empty]
    rfl
  by_cases free : hub.driver.xhc.addressingPort = 0#8
  · obtain ⟨d, hret, _⟩ := Driver.configurePort_begins port (plan.slotOf port) hphase free
      (sees.connected port mem) sees.resets (h.unused port mem (.inl empty))
      (h.maxSlots.fits port mem) h.ring
    exact ⟨d, hret⟩
  · have hreset : hub.driver.xhc.resetPort env port =
        .ok (.kSuccess, hub.driver.xhc.setPhase port .kWaitingAddressed) := by
      unfold Controller.resetPort
      rw [if_neg (not_not_intro (sees.connected port mem)), if_pos free]
      rfl
    have hconfigure : hub.driver.xhc.configurePort env port =
        .ok (.kSuccess, hub.driver.xhc.setPhase port .kWaitingAddressed) :=
      (if_pos hphase).trans hreset
    exact ⟨_, Returns.bind_ok hconfigure _⟩

end Together

end

/-! ## runs -/

/-- The steps that are left. -/
def remaining (plan : Plan) (hub : RootHub) : Nat := ∑ p ∈ plan.ports, (hub.stage p).remaining

theorem remaining_of_step {plan : Plan} {hub hub' : RootHub} {p : BitVec 8} (mem : p ∈ plan.ports)
    (own : (hub.stage p).remaining = (hub'.stage p).remaining + 1)
    (others : ∀ q, q ≠ p → (hub.stage q).remaining = (hub'.stage q).remaining) :
    hub.remaining plan = hub'.remaining plan + 1 := by
  have hrest : ∑ q ∈ plan.ports.erase p, (hub.stage q).remaining =
      ∑ q ∈ plan.ports.erase p, (hub'.stage q).remaining :=
    Finset.sum_congr rfl fun q hq => others q (Finset.ne_of_mem_erase hq)
  unfold remaining
  rw [← Finset.add_sum_erase _ _ mem, ← Finset.add_sum_erase _ (fun q => (hub'.stage q).remaining)
    mem, hrest, own, Nat.add_right_comm]

/-- **Every step** brings one port one step further. -/
theorem Together.step_remaining {plan : Plan} {hub hub' : RootHub} (h : Together plan hub)
    (hstep : Step plan hub hub') : hub.remaining plan = hub'.remaining plan + 1 := by
  cases hstep with
  | plug env port mem sees empty ret =>
      refine remaining_of_step mem ?_ fun q hq =>
        congrArg PortStage.remaining (update_ne hq _ _).symm
      show (hub.stage port).remaining = (update hub.stage port _ port).remaining + 1
      rw [update_self, empty]
      split <;> rfl
  | answer env port mem sees a awaits answers ret =>
      refine remaining_of_step mem ?_ fun q hq => ?_
      · show (hub.stage port).remaining = (hub.after port a port).remaining + 1
        rw [after_self, awaits]
        exact Awaited.remaining_next (by rintro rfl; cases answers)
      · show (hub.stage q).remaining = (hub.after port a q).remaining
        by_cases hhanded : a = .address ∧ hub.driver.xhc.firstWaiting = some q
        · obtain ⟨rfl, first⟩ := hhanded
          rw [after_first hq first, h.waiting_of_first first]
          rfl
        · rw [after_ne hq fun ha first => hhanded ⟨ha, first⟩]

/-- The controller has been started, and nothing has been looked at. -/
structure Starts (plan : Plan) (hub : RootHub) : Prop where
  initialized : hub.driver.Initialized
  stage : ∀ p, hub.stage p = .empty
  ok : plan.Ok kDeviceSize

theorem Starts.together {plan : Plan} {hub : RootHub} (h : Starts plan hub) :
    Together plan hub where
  outside p _ := h.stage p
  phase p := by
    rw [h.stage, h.initialized.untouched.phase]
    rfl
  unused p _ _ := h.initialized.devices _
  awaits p _ a ha := absurd ((h.stage p).symm.trans ha) nofun
  orderly := ⟨_, h.initialized.untouched.orderly⟩
  idle _ p := by
    rw [h.stage]
    exact nofun
  ring := h.initialized.fresh.placed.nonnull
  maxSlots := h.initialized.maxSlots ▸ h.ok

/-- What holds after `n` steps: how many are left, that there is one to take, and
that each that can be taken returns `kSuccess`. -/
structure Proceeds (plan : Plan) (n : Nat) (hub : RootHub) : Prop where
  steps : n + hub.remaining plan = 8 * plan.ports.card
  phase : ∀ p, hub.driver.xhc.portConfigPhase p = (hub.stage p).phase
  notStuck : (∀ p ∈ plan.ports, hub.stage p = .awaits .nothing) ∨ ∃ p ∈ plan.ports,
    hub.stage p = .empty ∨ ∃ a, a ≠ .nothing ∧ hub.stage p = .awaits a
  plug : ∀ env, Sees plan env hub → ∀ p ∈ plan.ports, hub.stage p = .empty →
    ∃ d, hub.driver.configurePort env p = .ok (.kSuccess, d)
  answer : ∀ env, ∀ p ∈ plan.ports, ∀ a, hub.stage p = .awaits a →
    Answers p (plan.slotOf p) env hub.driver a →
      ∃ d, hub.driver.processEvent env = .ok (.kSuccess, d)
  configured : n = 8 * plan.ports.card → ∀ p ∈ plan.ports,
    At p (plan.slotOf p) .nothing hub.driver.xhc

theorem Run.together {plan : Plan} {hub₀ hub : RootHub} {n : Nat} (start : Starts plan hub₀)
    (run : Run plan hub₀ n hub) :
    Together plan hub ∧ n + hub.remaining plan = 8 * plan.ports.card := by
  induction run with
  | start =>
      refine ⟨start.together, ?_⟩
      have hall : hub₀.remaining plan = plan.ports.card * 8 :=
        Finset.sum_const_nat fun p _ => by rw [start.stage]; rfl
      rw [hall, Nat.zero_add, Nat.mul_comm]
  | step _ hstep ih =>
      obtain ⟨htogether, hsteps⟩ := ih
      have hone := htogether.step_remaining hstep
      exact ⟨htogether.step hstep, by omega⟩

/-- **All devices get configured**, in whatever order the answers come, if these
are answers the driver can go on with (`Answers`). -/
theorem allPorts {plan : Plan} {hub₀ hub : RootHub} {n : Nat} (start : Starts plan hub₀)
    (run : Run plan hub₀ n hub) : Proceeds plan n hub := by
  obtain ⟨htogether, hsteps⟩ := run.together start
  refine ⟨hsteps, htogether.phase, htogether.notStuck,
    fun env sees p hp empty => htogether.plug_returns hp sees empty,
    fun env p hp a awaits answers => ?_, fun hn p hp => ?_⟩
  · obtain ⟨d, hret, _⟩ := (htogether.awaits p hp a awaits).processEvent answers
    exact ⟨d, hret⟩
  · have hzero : hub.remaining plan = 0 := by omega
    have hdone : (hub.stage p).remaining = 0 := Finset.sum_eq_zero_iff.mp hzero p hp
    exact htogether.awaits p hp _ (PortStage.eq_of_remaining_eq_zero hdone)

/-! ## a sample -/

open Driver

/-- Something is plugged into ports 1 and 2. -/
def twoPorts : Plan := ⟨{1#8, 2#8}, id⟩

/-- Which port gets which answer. -/
def twoPortsAnswer (n : Nat) : BitVec 8 × Awaited :=
  (if n = 3 then 2#8 else 1#8, keyboardAwaited n)

/-- The stages after so many answers. -/
def twoPortsAfter : Nat → RootHub
  | 0 => ⟨keyboardAfter 0, update (update (fun _ => .empty) 1#8 (.awaits .reset)) 2#8 .waiting⟩
  | n + 1 => ⟨keyboardAfter (n + 1),
      (twoPortsAfter n).after (twoPortsAnswer n).1 (twoPortsAnswer n).2⟩

/-- What there is to see while the ports read as connected. -/
theorem sees_twoPorts {env : Env} {hub : RootHub}
    (portsc : ∀ p k, env.portsc p k = 0x200c03#32) (steps : 0 < env.steps)
    (first : (∀ i, Controller.contextPort env i = 1#8) ∨
      hub.stage 1#8 ∈ [.empty, .awaits .reset, .awaits .slot])
    (second : hub.stage 2#8 ∈ [.empty, .waiting, .awaits .reset, .awaits .slot]) :
    Sees twoPorts env hub where
  connected p _ := by
    show decide (Portsc.currentConnectStatus.get (env.portsc p 0) = 1#1) = true
    rw [portsc]
    decide
  resets p := ⟨0, steps, by rw [portsc]; decide⟩
  context p hp a ha hreset hslot := by
    rcases Finset.mem_insert.mp hp with rfl | hp
    · rcases first with hcontext | hearly
      · exact hcontext _
      · rw [ha] at hearly
        cases a <;> first | exact absurd rfl hreset | exact absurd rfl hslot | simp at hearly
    · obtain rfl := Finset.mem_singleton.mp hp
      rw [ha] at second
      cases a <;> first | exact absurd rfl hreset | exact absurd rfl hslot | simp at second

theorem starts_twoPorts : Starts twoPorts ⟨fresh, fun _ => .empty⟩ where
  initialized := fresh_initialized
  stage _ := rfl
  ok := ⟨by decide, fun _ _ _ _ same => same, by decide⟩

theorem Run.next {plan : Plan} {hub₀ hub : RootHub} {n : Nat} {env : Env} {port : BitVec 8}
    {a : Awaited} (start : Starts plan hub₀) (run : Run plan hub₀ n hub)
    (mem : port ∈ plan.ports) (sees : Sees plan env hub) (awaits : hub.stage port = .awaits a)
    (answers : Answers port (plan.slotOf port) env hub.driver a) :
    Run plan hub₀ (n + 1) ⟨hub.driver.next env, hub.after port a⟩ := by
  obtain ⟨d, hret, _⟩ := ((run.together start).1.awaits port mem a awaits).processEvent answers
  have hnext : hub.driver.next env = d := by
    unfold Driver.next
    rw [hret]
  rw [hnext]
  exact .step run (.answer env port mem sees a awaits answers hret)

theorem Run.plug {plan : Plan} {hub₀ hub : RootHub} {n : Nat} {port : BitVec 8} {g : PortStage}
    (run : Run plan hub₀ n hub) (mem : port ∈ plan.ports)
    (sees : Sees plan (seeing 0#128 (fun _ => true) 0#8) hub) (empty : hub.stage port = .empty)
    (ret : (hub.driver.configurePort (seeing 0#128 (fun _ => true) 0#8) port).toOption.map
      Prod.fst = some .kSuccess)
    (lock : (if hub.driver.xhc.addressingPort = 0#8 then .awaits .reset else .waiting) = g) :
    Run plan hub₀ (n + 1) ⟨hub.driver.plugged port, update hub.stage port g⟩ := by
  subst lock
  exact .step run (.plug _ port mem sees empty (configurePort_plugged .kSuccess ret))

/-- Both ports have been configured: port 2 waits. -/
theorem run_plugged : Run twoPorts ⟨fresh, fun _ => .empty⟩ 2 (twoPortsAfter 0) := by
  have hfirst : Run twoPorts ⟨fresh, fun _ => .empty⟩ 1
      ⟨fresh.plugged 1#8, update (fun _ => .empty) 1#8 (.awaits .reset)⟩ :=
    .plug .start (by decide)
      (sees_twoPorts (fun _ _ => rfl) (Nat.zero_lt_succ 7) (.inr (by decide)) (by decide))
      rfl (by decide +kernel) (by decide +kernel)
  exact .plug hfirst (by decide)
    (sees_twoPorts (fun _ _ => rfl) (Nat.zero_lt_succ 7) (.inr (by decide)) (by decide))
    rfl (by decide +kernel) (by decide +kernel)

theorem answers_twoPorts {n : Nat} (hn : n < 8) : Answers (twoPortsAnswer n).1
    (twoPortsAnswer n).1 (keyboardEvent n) (keyboardAfter n) (twoPortsAnswer n).2 := by
  by_cases hport : n = 3
  · subst hport
    exact .reset (by decide +kernel) (by decide +kernel) (by decide +kernel) (by decide)
      (by decide)
  · have hfirst : (twoPortsAnswer n).1 = 1#8 := if_neg hport
    rw [hfirst]
    exact answers_keyboard n hn hport

theorem driver_twoPortsAfter (n : Nat) : (twoPortsAfter n).driver = keyboardAfter n := by
  cases n <;> rfl

theorem awaits_twoPorts : ∀ n, n < 8 →
    (twoPortsAfter n).stage (twoPortsAnswer n).1 = .awaits (twoPortsAnswer n).2 := by
  decide +kernel

theorem portsc_keyboardEvent (n : Nat) :
    (∀ p k, (keyboardEvent n).portsc p k = 0x200c03#32) ∧ 0 < (keyboardEvent n).steps := by
  unfold keyboardEvent
  split <;> exact ⟨fun _ _ => rfl, Nat.zero_lt_succ 7⟩

theorem contextPort_keyboardEvent {n : Nat} (hn : 2 ≤ n) (i : BitVec 8) :
    Controller.contextPort (keyboardEvent n) i = 1#8 := by
  unfold keyboardEvent
  split
  · omega
  · omega
  all_goals exact BitField.get_put _ _ _

theorem sees_keyboardEvent {n : Nat} (hn : n < 8) :
    Sees twoPorts (keyboardEvent n) (twoPortsAfter n) := by
  have hsecond : ∀ n, n < 8 →
      (twoPortsAfter n).stage 2#8 ∈ [.empty, .waiting, .awaits .reset, .awaits .slot] := by
    decide +kernel
  have hfirst : ∀ n, n < 2 →
      (twoPortsAfter n).stage 1#8 ∈ [.empty, .awaits .reset, .awaits .slot] := by
    decide +kernel
  obtain ⟨hportsc, hsteps⟩ := portsc_keyboardEvent n
  refine sees_twoPorts hportsc hsteps ?_ (hsecond n hn)
  by_cases hearly : n < 2
  · exact .inr (hfirst n hearly)
  · exact .inl (contextPort_keyboardEvent (Nat.le_of_not_lt hearly))

/-- One answer after another. -/
theorem run_twoPorts {n : Nat} (hn : n ≤ 8) :
    Run twoPorts ⟨fresh, fun _ => .empty⟩ (n + 2) (twoPortsAfter n) := by
  induction n with
  | zero => exact run_plugged
  | succ n ih =>
      have hmem : ∀ n, n < 8 → (twoPortsAnswer n).1 ∈ twoPorts.ports := by decide
      have hanswers := answers_twoPorts hn
      rw [← driver_twoPortsAfter n] at hanswers
      have hnext := (ih (Nat.le_of_succ_le hn)).next starts_twoPorts (hmem n hn)
        (sees_keyboardEvent hn) (awaits_twoPorts n hn) hanswers
      rw [driver_twoPortsAfter n] at hnext
      exact hnext

/-- Port 1 is configured when port 2 has been reset. -/
theorem allPorts_twoPorts : Run twoPorts ⟨fresh, fun _ => .empty⟩ 10 (twoPortsAfter 8) ∧
    Proceeds twoPorts 10 (twoPortsAfter 8) :=
  ⟨run_twoPorts (Nat.le_refl 8), allPorts starts_twoPorts (run_twoPorts (Nat.le_refl 8))⟩

end RootHub

end MikanOs.Usb.Xhci
