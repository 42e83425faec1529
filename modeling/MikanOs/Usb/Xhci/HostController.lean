import Mathlib.Logic.Function.Basic
import MikanOs.Lib.Interaction
import MikanOs.Usb.Xhci.ExtendedCapabilities
import MikanOs.Usb.Xhci.Registers
import MikanOs.Usb.Xhci.Scratchpad

/-!
# MikanOs.Usb.Xhci.HostController

The registers that `Controller::Initialize` and `Controller::Run` use, and the
controller behind them.

The controller takes its time: to stop, to reset, to get ready and to start.
Each takes any number of further reads.  It puts up with accesses only as its
documentation and the comments of the driver say:

* its registers are the driver's once the firmware has let go of it;
* it must be halted before it is reset, and until it is ready again nothing
  may be written;
* what it is to work with must be written while it is halted, and all of it
  before it is started; a reset forgets it.

Whatever is not said about the value of a register may be anything.
-/

namespace MikanOs.Usb.Xhci

/-! ## registers -/

/-- A register of the controller, those of its ports and the doorbells aside;
the last four are of the primary interrupter. -/
inductive Register
  | hcsparams1
  | hcsparams2
  | hccparams1
  | usbcmd
  | usbsts
  | crcr
  | dcbaap
  | config
  | iman
  | erstsz
  | erstba
  | erdp
  deriving DecidableEq, Repr

/-- The bits of a register. -/
def Register.width : Register → Nat
  | .crcr => 64
  | .dcbaap => 64
  | .erstba => 64
  | .erdp => 64
  | _ => 32

namespace Hcsparams1

def maxPorts : BitField 32 8 := .within 24 rfl

end Hcsparams1

namespace Usbcmd

def runStop : BitField 32 1 := .within 0 rfl
def hostControllerReset : BitField 32 1 := .within 1 rfl
def interrupterEnable : BitField 32 1 := .within 2 rfl
def hostSystemErrorEnable : BitField 32 1 := .within 3 rfl
def enableWrapEvent : BitField 32 1 := .within 10 rfl

end Usbcmd

namespace Usbsts

def hostControllerHalted : BitField 32 1 := .within 0 rfl
def controllerNotReady : BitField 32 1 := .within 11 rfl

end Usbsts

namespace Config

def maxDeviceSlotsEnabled : BitField 32 8 := .within 0 rfl

end Config

namespace Iman

def interruptPending : BitField 32 1 := .within 0 rfl
def interruptEnable : BitField 32 1 := .within 1 rfl

end Iman

namespace Erstsz

def eventRingSegmentTableSize : BitField 32 16 := .within 0 rfl

end Erstsz

/-- One access: to a register, or to a register of the list of extended
capabilities. -/
inductive RegisterAccess
  | read (r : Register)
  | write (r : Register) (v : BitVec r.width)
  | readExt (a : BitVec 64)
  | writeExt (a : BitVec 64) (v : BitVec 32)

/-- What it is answered with. -/
def RegisterAccess.Answer : RegisterAccess → Type
  | .read r => BitVec r.width
  | .write _ _ => Unit
  | .readExt _ => BitVec 32
  | .writeExt _ _ => Unit

/-! ## the controller -/

/-- What the controller is doing; a number is that of the reads it will go on
for. -/
inductive Phase
  | running
  | halting (n : Nat)
  | halted
  | resetting (n : Nat)
  | notReady (n : Nat)
  | starting (n : Nat)
  deriving DecidableEq, Repr

/-- One read later. -/
inductive Phase.Later : Phase → Phase → Prop
  | running : Later .running .running
  | halting {n : Nat} : Later (.halting (n + 1)) (.halting n)
  | stopped : Later (.halting 0) .halted
  | halted : Later .halted .halted
  | resetting {n : Nat} : Later (.resetting (n + 1)) (.resetting n)
  | reset {n : Nat} : Later (.resetting 0) (.notReady n)
  | notReady {n : Nat} : Later (.notReady (n + 1)) (.notReady n)
  | ready : Later (.notReady 0) .halted
  | starting {n : Nat} : Later (.starting (n + 1)) (.starting n)
  | started : Later (.starting 0) .running

/-- `HCHalted`, where it is certain. -/
def Phase.hostControllerHalted : Phase → Option (BitVec 1)
  | .running => some 0#1
  | .halting _ => some 0#1
  | .halted => some 1#1
  | .resetting _ => none
  | .notReady _ => none
  | .starting _ => some 1#1

/-- `CNR`, where it is certain. -/
def Phase.controllerNotReady : Phase → Option (BitVec 1)
  | .resetting _ => none
  | .notReady _ => some 1#1
  | _ => some 0#1

/-- `HCRST`. -/
def Phase.hostControllerReset : Phase → BitVec 1
  | .resetting _ => 1#1
  | _ => 0#1

/-- Who has the controller: the firmware, as it was found; the firmware for so
many more reads of `USBLEGSUP`, at an address; or the driver. -/
inductive Owner
  | firmware
  | asked (usblegsup : BitVec 64) (n : Nat)
  | kernel
  deriving DecidableEq, Repr

/-- What does not change: where the controller is, what it can do, and the
list of extended capabilities as the firmware leaves it. -/
structure Board where
  mmioBase : BitVec 64
  hcsparams1 : BitVec 32
  hcsparams2 : BitVec 32
  hccparams1 : BitVec 32
  mmio : BitVec 64 → BitVec 32
  capabilities : List (BitVec 64)
  visits : Linked.Visits (nextRegister mmio) (node (extendedRegisterList mmioBase hccparams1))
    capabilities

/-- The register to ask the firmware at. -/
def Board.usblegsup (b : Board) : Option (BitVec 64) :=
  b.capabilities.find? fun a => isUsblegsup (b.mmio a)

/-- The controller: `usbcmd` without `HCRST`, and what has been written to its
other registers since it was reset. -/
structure Hc where
  owner : Owner
  phase : Phase
  usbcmd : BitVec 32
  written : (r : Register) → Option (BitVec r.width)

namespace Hc

/-- The driver need not ask, or has been answered. -/
def Owned (b : Board) (s : Hc) : Prop :=
  match s.owner with
  | .firmware => ∀ a, b.usblegsup = some a → Usblegsup.hcOsOwnedSemaphore.get (b.mmio a) = 1#1
  | .asked _ _ => False
  | .kernel => True

/-- The controller has all that it is to work with. -/
def Programmed (s : Hc) : Prop :=
  ∀ r, r = .config ∨ r = .dcbaap ∨ r = .crcr ∨ r = .erstsz ∨ r = .erdp ∨ r = .erstba →
    (s.written r).isSome

/-- A value of `USBCMD` that may be written. -/
def MayCommand (s : Hc) (v : BitVec 32) : Prop :=
  (∀ n, s.phase ≠ .resetting n) ∧ (∀ n, s.phase ≠ .notReady n) ∧
    (Usbcmd.hostControllerReset.get v = 1#1 →
      s.phase = .halted ∧ Usbcmd.runStop.get v = 0#1) ∧
    (Usbcmd.runStop.get v = 1#1 → s.phase = .running ∨ s.phase = .halted ∧ s.Programmed)

/-- A register that may be written. -/
def MayProgram (s : Hc) : Register → Prop
  | .config => s.phase = .halted
  | .dcbaap => s.phase = .halted
  | .crcr => s.phase = .halted
  | .iman => s.phase = .halted
  | .erstsz => s.phase = .halted
  | .erdp => s.phase = .halted
  -- from then on the controller uses the other two
  | .erstba => s.phase = .halted ∧ (s.written .erstsz).isSome ∧ (s.written .erdp).isSome
  | _ => False

/-- What the controller puts up with. -/
def Allowed (b : Board) (s : Hc) : RegisterAccess → Prop
  | .read _ => True
  | .write .usbcmd v => s.Owned b ∧ s.MayCommand v
  | .write r _ => s.Owned b ∧ s.MayProgram r
  | .readExt _ => True
  -- the semaphore of the firmware is the firmware's
  | .writeExt a v => s.owner = .firmware ∧ isUsblegsup (b.mmio a) ∧
      Usblegsup.hcBiosOwnedSemaphore.get v = Usblegsup.hcBiosOwnedSemaphore.get (b.mmio a) ∧
      Usblegsup.hcOsOwnedSemaphore.get v = 1#1

/-- What a register may read as. -/
def Reads (b : Board) (s : Hc) : (r : Register) → BitVec r.width → Prop
  | .hcsparams1, v => v = b.hcsparams1
  | .hcsparams2, v => v = b.hcsparams2
  | .hccparams1, v => v = b.hccparams1
  | .usbcmd, v => v = Usbcmd.hostControllerReset.put s.usbcmd s.phase.hostControllerReset
  | .usbsts, v => (∀ x ∈ s.phase.hostControllerHalted, Usbsts.hostControllerHalted.get v = x) ∧
      ∀ x ∈ s.phase.controllerNotReady, Usbsts.controllerNotReady.get v = x
  | _, _ => True

/-- What a command does to the phase. -/
inductive Commanded (v : BitVec 32) : Phase → Phase → Prop
  | stay {p : Phase} (go : Usbcmd.runStop.get v = 1#1 → p ≠ .halted)
      (stop : Usbcmd.runStop.get v = 0#1 → p ≠ .running ∧ ∀ n, p ≠ .starting n)
      (reset : Usbcmd.hostControllerReset.get v = 0#1) : Commanded v p p
  | start {n : Nat} (go : Usbcmd.runStop.get v = 1#1)
      (reset : Usbcmd.hostControllerReset.get v = 0#1) : Commanded v .halted (.starting n)
  | stop {p : Phase} {n : Nat} (running : p = .running ∨ ∃ m, p = .starting m)
      (stop : Usbcmd.runStop.get v = 0#1) (reset : Usbcmd.hostControllerReset.get v = 0#1) :
      Commanded v p (.halting n)
  | reset {p : Phase} {n : Nat} (reset : Usbcmd.hostControllerReset.get v = 1#1) :
      Commanded v p (.resetting n)

/-- The controller after a command; a reset sets `USBCMD` to zero and forgets
what has been written. -/
def command (s : Hc) (v : BitVec 32) (p : Phase) : Hc :=
  if Usbcmd.hostControllerReset.get v = 1#1 then ⟨s.owner, p, 0#32, fun _ => none⟩
  else { s with phase := p, usbcmd := v }

variable {s : Hc} {v : BitVec 32} {p q : Phase}

theorem command_of_reset (h : Usbcmd.hostControllerReset.get v = 1#1) :
    s.command v p = ⟨s.owner, p, 0#32, fun _ => none⟩ := if_pos h

theorem command_of_not_reset (h : Usbcmd.hostControllerReset.get v = 0#1) :
    s.command v p = { s with phase := p, usbcmd := v } :=
  if_neg fun hone => absurd (h.symm.trans hone) (by decide)

theorem Commanded.of_reset (h : Commanded v p q)
    (hreset : Usbcmd.hostControllerReset.get v = 1#1) : ∃ n, q = .resetting n := by
  cases h with
  | stay go stop reset => exact absurd (reset.symm.trans hreset) (by decide)
  | start go reset => exact absurd (reset.symm.trans hreset) (by decide)
  | stop running stop reset => exact absurd (reset.symm.trans hreset) (by decide)
  | reset reset => exact ⟨_, rfl⟩

theorem Commanded.of_stop (h : Commanded v p q) (hstop : Usbcmd.runStop.get v = 0#1)
    (hreset : Usbcmd.hostControllerReset.get v = 0#1) :
    (q = p ∧ p ≠ .running) ∨ p ≠ .halted ∧ ∃ n, q = .halting n := by
  cases h with
  | stay go stop reset => exact .inl ⟨rfl, (stop hstop).1⟩
  | start go reset => exact absurd (hstop.symm.trans go) (by decide)
  | stop running stop reset =>
      refine .inr ⟨fun h => ?_, _, rfl⟩
      rcases running with hrunning | ⟨m, hstarting⟩
      · exact absurd (h.symm.trans hrunning) nofun
      · exact absurd (h.symm.trans hstarting) nofun
  | reset reset => exact absurd (hreset.symm.trans reset) (by decide)

theorem Commanded.of_start (h : Commanded v .halted q) (hgo : Usbcmd.runStop.get v = 1#1)
    (hreset : Usbcmd.hostControllerReset.get v = 0#1) : ∃ n, q = .starting n := by
  cases h with
  | stay go stop reset => exact absurd rfl (go hgo)
  | start go reset => exact ⟨_, rfl⟩
  | stop running stop reset => exact absurd (hgo.symm.trans stop) (by decide)
  | reset reset => exact absurd (hreset.symm.trans reset) (by decide)

/-- A register is written. -/
def wrote (s : Hc) (r : Register) (v : BitVec r.width) : Hc :=
  { s with written := Function.update s.written r (some v) }

@[simp] theorem wrote_written (s : Hc) (r : Register) (v : BitVec r.width) :
    (s.wrote r v).written r = some v := Function.update_self _ _ _

theorem wrote_written_ne {r r' : Register} (h : r' ≠ r) (s : Hc) (v : BitVec r.width) :
    (s.wrote r v).written r' = s.written r' := Function.update_of_ne h _ _

theorem isSome_wrote (s : Hc) (r : Register) (v : BitVec r.width) :
    ((s.wrote r v).written r).isSome := by
  rw [wrote_written]
  rfl

/-- What has been written stays written. -/
theorem isSome_wrote_of_isSome {r' : Register} (h : (s.written r').isSome) (r : Register)
    (v : BitVec r.width) : ((s.wrote r v).written r').isSome := by
  by_cases heq : r' = r
  · subst heq
    exact isSome_wrote s _ v
  · rw [wrote_written_ne heq]
    exact h

/-- A register of the list of extended capabilities is read. -/
inductive ReadsExt (b : Board) (s : Hc) (a : BitVec 64) : BitVec 32 → Hc → Prop
  | found (h : s.owner = .firmware) : ReadsExt b s a (b.mmio a) s
  | other {a' : BitVec 64} {n : Nat} (h : s.owner = .asked a' n) (hne : a ≠ a') :
      ReadsExt b s a (b.mmio a) s
  | waits {n : Nat} {v : BitVec 32} (h : s.owner = .asked a (n + 1))
      (bios : Usblegsup.hcBiosOwnedSemaphore.get v = 1#1) :
      ReadsExt b s a v { s with owner := .asked a n }
  | lets {v : BitVec 32} (h : s.owner = .asked a 0)
      (bios : Usblegsup.hcBiosOwnedSemaphore.get v = 0#1)
      (os : Usblegsup.hcOsOwnedSemaphore.get v = 1#1) : ReadsExt b s a v { s with owner := .kernel }
  | after {v : BitVec 32} (h : s.owner = .kernel) : ReadsExt b s a v s

/-- What an access is answered with, and what it leaves. -/
inductive Answers (b : Board) (s : Hc) : (op : RegisterAccess) → op.Answer → Hc → Prop
  | read {r : Register} {p : Phase} {v : BitVec r.width} (later : s.phase.Later p)
      (reads : Reads b { s with phase := p } r v) : Answers b s (.read r) v { s with phase := p }
  | command {v : BitVec 32} {p : Phase} (h : Commanded v s.phase p) :
      Answers b s (.write .usbcmd v) () (s.command v p)
  | write {r : Register} {v : BitVec r.width} (h : r ≠ .usbcmd) :
      Answers b s (.write r v) () (s.wrote r v)
  | readExt {a : BitVec 64} {v : BitVec 32} {t : Hc} (h : ReadsExt b s a v t) :
      Answers b s (.readExt a) v t
  | writeExt {a : BitVec 64} {v : BitVec 32} {n : Nat} :
      Answers b s (.writeExt a v) () { s with owner := .asked a n }

/-! ## it answers -/

theorem exists_later (p : Phase) : ∃ q, p.Later q := by
  cases p with
  | running => exact ⟨_, .running⟩
  | halted => exact ⟨_, .halted⟩
  | halting n => cases n with
    | zero => exact ⟨_, .stopped⟩
    | succ n => exact ⟨_, .halting⟩
  | resetting n => cases n with
    | zero => exact ⟨.notReady 0, .reset⟩
    | succ n => exact ⟨_, .resetting⟩
  | notReady n => cases n with
    | zero => exact ⟨_, .ready⟩
    | succ n => exact ⟨_, .notReady⟩
  | starting n => cases n with
    | zero => exact ⟨_, .started⟩
    | succ n => exact ⟨_, .starting⟩

theorem exists_reads (b : Board) (s : Hc) (r : Register) : ∃ v, s.Reads b r v := by
  cases r with
  | hcsparams1 => exact ⟨_, rfl⟩
  | hcsparams2 => exact ⟨_, rfl⟩
  | hccparams1 => exact ⟨_, rfl⟩
  | usbcmd => exact ⟨_, rfl⟩
  | usbsts =>
      let v := Usbsts.hostControllerHalted.put 0#32 (s.phase.hostControllerHalted.getD 0#1)
      refine ⟨Usbsts.controllerNotReady.put v (s.phase.controllerNotReady.getD 0#1), ?_, ?_⟩
      · intro x hx
        rw [BitField.get_put_of_disjoint (by decide), BitField.get_put, Option.mem_def.mp hx]
        rfl
      · intro x hx
        rw [BitField.get_put, Option.mem_def.mp hx]
        rfl
  | crcr => exact ⟨0#64, trivial⟩
  | dcbaap => exact ⟨0#64, trivial⟩
  | config => exact ⟨0#32, trivial⟩
  | iman => exact ⟨0#32, trivial⟩
  | erstsz => exact ⟨0#32, trivial⟩
  | erstba => exact ⟨0#64, trivial⟩
  | erdp => exact ⟨0#64, trivial⟩

theorem exists_commanded (v : BitVec 32) (p : Phase) : ∃ q, Commanded v p q := by
  have hbit : ∀ x : BitVec 1, x = 0#1 ∨ x = 1#1 := by decide
  rcases hbit (Usbcmd.hostControllerReset.get v) with hreset | hreset
  · rcases hbit (Usbcmd.runStop.get v) with hstop | hgo
    · by_cases hrunning : p = .running ∨ ∃ m, p = .starting m
      · exact ⟨.halting 0, .stop hrunning hstop hreset⟩
      · refine ⟨p, .stay (fun h => absurd (hstop.symm.trans h) (by decide)) (fun _ => ?_) hreset⟩
        exact ⟨fun h => hrunning (.inl h), fun n h => hrunning (.inr ⟨n, h⟩)⟩
    · by_cases hhalted : p = .halted
      · exact ⟨.starting 0, hhalted ▸ .start hgo hreset⟩
      · refine ⟨p, .stay (fun _ => hhalted) (fun h => ?_) hreset⟩
        exact absurd (hgo.symm.trans h) (by decide)
  · exact ⟨.resetting 0, .reset hreset⟩

theorem exists_readsExt (b : Board) (s : Hc) (a : BitVec 64) : ∃ v t, s.ReadsExt b a v t := by
  cases howner : s.owner with
  | firmware => exact ⟨_, _, .found howner⟩
  | kernel => exact ⟨0#32, _, .after howner⟩
  | asked a' n =>
      by_cases ha : a = a'
      · subst ha
        cases n with
        | zero => exact ⟨Usblegsup.hcOsOwnedSemaphore.put 0#32 1#1, _,
            .lets howner (by decide) (by decide)⟩
        | succ n => exact ⟨Usblegsup.hcBiosOwnedSemaphore.put 0#32 1#1, _,
            .waits howner (by decide)⟩
      · exact ⟨_, _, .other howner ha⟩

theorem exists_answers (b : Board) (s : Hc) (op : RegisterAccess) : ∃ a t, s.Answers b op a t := by
  cases op with
  | read r =>
      obtain ⟨p, hp⟩ := exists_later s.phase
      obtain ⟨v, hv⟩ := exists_reads b { s with phase := p } r
      exact ⟨v, _, .read hp hv⟩
  | write r v =>
      by_cases hr : r = .usbcmd
      · subst hr
        obtain ⟨p, hp⟩ := exists_commanded v s.phase
        exact ⟨(), _, .command hp⟩
      · exact ⟨(), _, .write hr⟩
  | readExt a =>
      obtain ⟨v, t, h⟩ := exists_readsExt b s a
      exact ⟨v, t, .readExt h⟩
  | writeExt a v => exact ⟨(), _, .writeExt (n := 0)⟩

end Hc

/-- The controller of a board. -/
def controller (b : Board) : Environment RegisterAccess RegisterAccess.Answer where
  State := Hc
  allowed := Hc.Allowed b
  answers := Hc.Answers b
  responds s op _ := s.exists_answers b op

end MikanOs.Usb.Xhci
