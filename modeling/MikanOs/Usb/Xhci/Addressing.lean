import Mathlib.Data.List.Basic
import MikanOs.Lib.Run
import MikanOs.Usb.Xhci.Controller

/-!
# MikanOs.Usb.Xhci.Addressing

What bringing up ports is meant to be, without the driver: any type of
ports, a lock that one of them may hold, and the commands issued on behalf
of each.  A port that holds the lock is reset, is given a slot and an
address, and hands the lock on; after that it is configured at its own pace.

`Ports.Step` lists the moves.  Two facts hold in every reachable state
(`Ports.Inv`): the port in the exclusive phases is the one that holds the
lock, and the commands issued for a port are those its phase calls for.
-/

namespace MikanOs.Usb.Xhci

/-! ## phases -/

namespace ConfigPhase

/-- The phases only one port may be in at a time. -/
def exclusive : ConfigPhase → Bool
  | kResettingPort | kEnablingSlot | kAddressingDevice => true
  | _ => false

/-- Where a port may go from a phase. -/
inductive Next : ConfigPhase → ConfigPhase → Prop
  | wait : Next kNotConnected kWaitingAddressed
  | reset : Next kNotConnected kResettingPort
  | resume : Next kWaitingAddressed kResettingPort
  | enable : Next kResettingPort kEnablingSlot
  | address : Next kEnablingSlot kAddressingDevice
  | release : Next kAddressingDevice kInitializingDevice
  | configure : Next kInitializingDevice kConfiguringEndpoints
  | complete : Next kConfiguringEndpoints kConfigured

/-- How many commands have been issued for a port by the time it is in a
phase. -/
def commands : ConfigPhase → Nat
  | kNotConnected | kWaitingAddressed | kResettingPort => 0
  | kEnablingSlot => 1
  | kAddressingDevice | kInitializingDevice => 2
  | kConfiguringEndpoints | kConfigured => 3

end ConfigPhase

/-- The types of the commands that bring up a port, in order. -/
def bringUp : List (BitVec 6) :=
  [EnableSlotCommandTRB.type, AddressDeviceCommandTRB.type, ConfigureEndpointCommandTRB.type]

/-! ## the machine -/

/-- Ports, the lock, and the commands issued. -/
structure Ports (P : Type u) where
  phase : P → ConfigPhase
  lock : Option P
  issued : List (P × BitVec 6)

namespace Ports

variable {P : Type u} [DecidableEq P] {s t : Ports P}

/-- Nothing has been done yet. -/
def start (P : Type u) : Ports P := ⟨fun _ => .kNotConnected, none, []⟩

/-- A port goes to a phase. -/
def move (s : Ports P) (p : P) (phase : ConfigPhase) : Ports P :=
  { s with phase := update s.phase p phase }

/-- A command is issued for a port. -/
def issue (s : Ports P) (p : P) (type : BitVec 6) : Ports P :=
  { s with issued := s.issued ++ [(p, type)] }

/-- The commands issued for a port. -/
def issuedFor (s : Ports P) (p : P) : List (BitVec 6) :=
  (s.issued.filter fun c => c.1 = p).map Prod.snd

/-- One move. -/
inductive Step (s : Ports P) : Ports P → Prop
  | wait (p : P) (phase : s.phase p = .kNotConnected) (held : s.lock ≠ none) :
      Step s (s.move p .kWaitingAddressed)
  | reset (p : P) (phase : s.phase p = .kNotConnected ∨ s.phase p = .kWaitingAddressed)
      (free : s.lock = none) : Step s ({ s with lock := some p }.move p .kResettingPort)
  | enable (p : P) (phase : s.phase p = .kResettingPort) :
      Step s ((s.move p .kEnablingSlot).issue p EnableSlotCommandTRB.type)
  | address (p : P) (phase : s.phase p = .kEnablingSlot) :
      Step s ((s.move p .kAddressingDevice).issue p AddressDeviceCommandTRB.type)
  | release (p : P) (phase : s.phase p = .kAddressingDevice) (held : s.lock = some p) :
      Step s ({ s with lock := none }.move p .kInitializingDevice)
  | handOver (p q : P) (phase : s.phase p = .kAddressingDevice) (held : s.lock = some p)
      (waiting : s.phase q = .kWaitingAddressed) :
      Step s (({ s with lock := some q }.move q .kResettingPort).move p .kInitializingDevice)
  | configure (p : P) (phase : s.phase p = .kInitializingDevice) :
      Step s ((s.move p .kConfiguringEndpoints).issue p ConfigureEndpointCommandTRB.type)
  | complete (p : P) (phase : s.phase p = .kConfiguringEndpoints) :
      Step s (s.move p .kConfigured)

/-- What holds in every reachable state. -/
structure Inv (s : Ports P) : Prop where
  exclusive : ∀ p, (s.phase p).exclusive = true ↔ s.lock = some p
  issued : ∀ p, s.issuedFor p = bringUp.take (s.phase p).commands

/-! ## moves -/

theorem move_phase_self (s : Ports P) (p : P) (phase : ConfigPhase) :
    (s.move p phase).phase p = phase := update_self _ _ _

theorem move_phase_ne {p q : P} (h : q ≠ p) (s : Ports P) (phase : ConfigPhase) :
    (s.move p phase).phase q = s.phase q := update_ne h _ _

theorem issuedFor_issue_self (s : Ports P) (p : P) (type : BitVec 6) :
    (s.issue p type).issuedFor p = s.issuedFor p ++ [type] := by
  simp [issuedFor, issue]

theorem issuedFor_issue_ne {p q : P} (h : q ≠ p) (s : Ports P) (type : BitVec 6) :
    (s.issue p type).issuedFor q = s.issuedFor q := by
  simp [issuedFor, issue, Ne.symm h]

/-- A move to the next phase, whatever it is, goes forward. -/
theorem move_next {p : P} {next : ConfigPhase} (h : (s.phase p).Next next) (q : P) :
    (s.move p next).phase q = s.phase q ∨ (s.phase q).Next ((s.move p next).phase q) := by
  by_cases hq : q = p
  · subst hq
    rw [move_phase_self]
    exact .inr h
  · exact .inl (move_phase_ne hq s next)

/-- **Phases only move forward**, one edge at a time. -/
theorem Step.next (h : Step s t) (q : P) :
    t.phase q = s.phase q ∨ (s.phase q).Next (t.phase q) := by
  cases h with
  | wait p phase _ => exact move_next (phase ▸ .wait) q
  | reset p phase _ =>
      refine move_next (s := { s with lock := some p }) ?_ q
      cases phase with
      | inl hnot => exact hnot ▸ .reset
      | inr hwaiting => exact hwaiting ▸ .resume
  | enable p phase => exact move_next (phase ▸ .enable) q
  | address p phase => exact move_next (phase ▸ .address) q
  | release p phase _ => exact move_next (s := { s with lock := none }) (phase ▸ .release) q
  | handOver p r phase _ waiting =>
      have hne : p ≠ r := by
        rintro rfl
        rw [phase] at waiting
        contradiction
      by_cases hq : q = p
      · subst hq
        rw [move_phase_self, phase]
        exact .inr .release
      · rw [move_phase_ne hq]
        exact move_next (s := { s with lock := some r }) (waiting ▸ .resume) q
  | configure p phase => exact move_next (phase ▸ .configure) q
  | complete p phase => exact move_next (phase ▸ .complete) q

/-! ## the lock -/

/-- Moving within or outside the exclusive phases. -/
theorem Inv.exclusive_move (h : Inv s) {p : P} {next : ConfigPhase}
    (hphase : next.exclusive = (s.phase p).exclusive) (q : P) :
    ((s.move p next).phase q).exclusive = true ↔ s.lock = some q := by
  rw [← h.exclusive q]
  by_cases hq : q = p
  · subst hq
    rw [move_phase_self, hphase]
  · rw [move_phase_ne hq]

/-- A port outside the exclusive phases takes the free lock. -/
theorem Inv.exclusive_take (h : Inv s) (free : s.lock = none) (p : P) {next : ConfigPhase}
    (hphase : next.exclusive = true) (q : P) :
    ((s.move p next).phase q).exclusive = true ↔ some p = some q := by
  by_cases hq : q = p
  · subst hq
    rw [move_phase_self, hphase]
    exact ⟨fun _ => rfl, fun _ => rfl⟩
  · rw [move_phase_ne hq, h.exclusive q, free]
    exact ⟨fun hnone => absurd hnone (by simp), fun hsome => absurd (Option.some.inj hsome).symm hq⟩

/-- The port that holds the lock gives it back. -/
theorem Inv.exclusive_release (h : Inv s) {p : P} (held : s.lock = some p) {next : ConfigPhase}
    (hphase : next.exclusive = false) (q : P) :
    ((s.move p next).phase q).exclusive = true ↔ none = some q := by
  by_cases hq : q = p
  · subst hq
    rw [move_phase_self, hphase]
    exact ⟨fun ht => absurd ht (by simp), fun hn => absurd hn (by simp)⟩
  · rw [move_phase_ne hq, h.exclusive q, held]
    exact ⟨fun hsome => absurd (Option.some.inj hsome).symm hq, fun hn => absurd hn (by simp)⟩

/-! ## the commands -/

/-- Moving without a command, to a phase that calls for none. -/
theorem Inv.issued_move (h : Inv s) {p : P} {next : ConfigPhase}
    (hcommands : next.commands = (s.phase p).commands) (q : P) :
    (s.move p next).issuedFor q = bringUp.take ((s.move p next).phase q).commands := by
  by_cases hq : q = p
  · subst hq
    rw [move_phase_self, hcommands]
    exact h.issued q
  · rw [move_phase_ne hq]
    exact h.issued q

/-- Moving with the command the next phase calls for. -/
theorem Inv.issued_issue (h : Inv s) {p : P} {next : ConfigPhase} {type : BitVec 6}
    (hcommands : bringUp.take next.commands = bringUp.take (s.phase p).commands ++ [type]) (q : P) :
    ((s.move p next).issue p type).issuedFor q =
      bringUp.take ((s.move p next).phase q).commands := by
  by_cases hq : q = p
  · subst hq
    rw [issuedFor_issue_self, move_phase_self, hcommands]
    exact congrArg (· ++ [type]) (h.issued q)
  · rw [issuedFor_issue_ne hq, move_phase_ne hq]
    exact h.issued q

/-! ## every run -/

/-- The two halves of handing over: the lock is given back, then taken. -/
theorem Inv.release (h : Inv s) {p : P} (phase : s.phase p = .kAddressingDevice)
    (held : s.lock = some p) : Inv ({ s with lock := none }.move p .kInitializingDevice) where
  exclusive := h.exclusive_release held rfl
  issued := h.issued_move (by rw [phase]; rfl)

theorem Inv.reset (h : Inv s) {p : P}
    (phase : s.phase p = .kNotConnected ∨ s.phase p = .kWaitingAddressed) (free : s.lock = none) :
    Inv ({ s with lock := some p }.move p .kResettingPort) where
  exclusive := h.exclusive_take free p rfl
  issued := h.issued_move (by cases phase with | inl h => rw [h]; rfl | inr h => rw [h]; rfl)

/-- Handing over is giving the lock back and the next port taking it. -/
theorem handOver_eq {p q : P} (h : p ≠ q) (s : Ports P) :
    ({ s with lock := some q }.move q .kResettingPort).move p .kInitializingDevice =
      { { s with lock := none }.move p .kInitializingDevice with lock := some q }.move q
        .kResettingPort := by
  unfold move
  simp only [Ports.mk.injEq, and_true]
  exact update_comm h _ _ _

/-- Every move keeps the invariant. -/
theorem step_inv (s t : Ports P) (h : Inv s) (hstep : Step s t) : Inv t := by
  cases hstep with
  | wait p phase _ =>
      exact ⟨h.exclusive_move (by rw [phase]; rfl), h.issued_move (by rw [phase]; rfl)⟩
  | reset p phase free => exact h.reset phase free
  | enable p phase =>
      exact ⟨h.exclusive_move (by rw [phase]; rfl), h.issued_issue (by rw [phase]; rfl)⟩
  | address p phase =>
      exact ⟨h.exclusive_move (by rw [phase]; rfl), h.issued_issue (by rw [phase]; rfl)⟩
  | release p phase held => exact h.release phase held
  | handOver p q phase held waiting =>
      have hne : q ≠ p := by
        rintro rfl
        rw [phase] at waiting
        contradiction
      rw [handOver_eq hne.symm]
      refine (h.release phase held).reset (.inr ?_) rfl
      rw [move_phase_ne hne]
      exact waiting
  | configure p phase =>
      exact ⟨h.exclusive_move (by rw [phase]; rfl), h.issued_issue (by rw [phase]; rfl)⟩
  | complete p phase =>
      exact ⟨h.exclusive_move (by rw [phase]; rfl), h.issued_move (by rw [phase]; rfl)⟩

/-- Items with at most `n` to each of the given keys. -/
theorem length_le_of_keys {l : List α} {keys : List P} {key : α → P} {n : Nat}
    (hkeys : ∀ x ∈ l, key x ∈ keys) (hn : ∀ k, (l.filter fun x => key x = k).length ≤ n) :
    l.length ≤ n * keys.length := by
  induction keys generalizing l with
  | nil =>
      have hnil : l = [] := List.eq_nil_iff_forall_not_mem.mpr fun x hx =>
        List.not_mem_nil (hkeys x hx)
      rw [hnil]
      exact Nat.zero_le _
  | cons k ks ih =>
      have hrest : (l.filter fun x => !decide (key x = k)).length ≤ n * ks.length := by
        refine ih (fun x hx => ?_) fun j => ?_
        · obtain ⟨hl, hne⟩ := List.mem_filter.mp hx
          exact (List.mem_cons.mp (hkeys x hl)).resolve_left (by simpa using hne)
        · exact Nat.le_trans (List.filter_sublist.filter _).length_le (hn j)
      have hsplit := List.length_eq_length_filter_add (l := l) fun x => decide (key x = k)
      have hfirst := hn k
      rw [List.length_cons, Nat.mul_succ]
      omega

/-- **The commands of so many ports**: no more than three for each. -/
theorem Inv.length_issued_le (h : Inv s) {ports : List P} (hports : ∀ c ∈ s.issued, c.1 ∈ ports) :
    s.issued.length ≤ bringUp.length * ports.length := by
  refine length_le_of_keys hports fun p => ?_
  have hissued := congrArg List.length (h.issued p)
  rw [issuedFor, List.length_map, List.length_take] at hissued
  omega

/-- Nothing done yet satisfies the invariant. -/
theorem start_inv : Inv (start P) where
  exclusive p := by simp [start, ConfigPhase.exclusive]
  issued p := rfl

end Ports

end MikanOs.Usb.Xhci
