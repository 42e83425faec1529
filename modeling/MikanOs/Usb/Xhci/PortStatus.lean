import MikanOs.Lib.StatusRegister
import MikanOs.Usb.Xhci.Port

/-!
# MikanOs.Usb.Xhci.PortStatus

What the driver's writes to `PORTSC` do to a port.  `Reset`,
`ClearConnectStatusChanged` and `ClearPortResetChange` read the register,
mask what they read and write it back with one or two bits more, while the
controller goes on changing the register underneath.

A run (`PortRun`) is a sequence of such calls and of changes by the
controller, which may come between the read and the write of a call as well.
-/

namespace MikanOs.Usb.Xhci

/-! ## the register -/

namespace Portsc

/-- Port power, the indicator and the wake enables: bits that only software
changes. -/
def software : BitVec 32 := 0x0e00c200#32

/-- The seven change bits. -/
def changes : BitVec 32 := 0x00fe0000#32

/-- How the bits of `PORTSC` answer the write of `v`: the link state takes
what is written together with its strobe, and `port_enabled_disabled` and the
change bits are cleared by a 1. -/
def bits (v : BitVec 32) : RegisterBits 32 where
  plain := if portLinkStateWriteStrobe.get v = 1#1 then 0x0e00c3e0#32 else software
  clearedByOne := changes ||| 0x00000002#32
  setByOne := 0x00000010#32

/-- The content `c` after `v` has been written.  A warm reset is a reset. -/
def write (c v : BitVec 32) : BitVec 32 :=
  (bits v).write c (if warmPortReset.get v = 1#1 then portReset.put v 1#1 else v)

/-- Without the strobe the link state is not written. -/
theorem bits_of_strobe {v : BitVec 32} (h : portLinkStateWriteStrobe.get v = 0#1) :
    bits v = ⟨software, 0x00fe0002#32, 0x00000010#32⟩ := by
  have hne : ¬ portLinkStateWriteStrobe.get v = 1#1 := fun h1 =>
    absurd (h.symm.trans h1) (by decide)
  rw [bits, if_neg hne]
  rfl

/-- What the controller does to the register by itself: it sets change bits
and moves every other status, but takes back no change that is not
acknowledged. -/
structure Progress (c c' : BitVec 32) : Prop where
  changes : ∀ i, Portsc.changes.getLsbD i = true → c.getLsbD i = true → c'.getLsbD i = true
  software : c' &&& Portsc.software = c &&& Portsc.software
  strobe : portLinkStateWriteStrobe.get c' = 0#1

/-- In particular it may set change bits. -/
theorem Progress.of_set {c : BitVec 32} (s : BitVec 32)
    (h : portLinkStateWriteStrobe.get c = 0#1) : Progress c (c ||| (s &&& Portsc.changes)) where
  changes i _ hset := by rw [BitVec.getLsbD_or, hset, Bool.true_or]
  software := by
    rw [BitVec.and_or_distrib_right, BitVec.and_assoc]
    show _ ||| (s &&& 0#32) = _
    rw [BitVec.and_zero, BitVec.or_zero]
  strobe := by
    rw [BitField.get_or, BitField.get_and, h, BitVec.zero_or]
    exact BitVec.and_zero

end Portsc

/-! ## calls -/

/-- The functions of `class Port` that write. -/
inductive PortCall
  | reset
  | clearConnectStatusChanged
  | clearPortResetChange
  deriving DecidableEq, Repr

namespace PortCall

/-- The call. -/
def run (env : Env) (h : Host) (p : Port) (k : Nat) : PortCall → Except Fault Host
  | .reset => p.reset env h k
  | .clearConnectStatusChanged => pure (p.clearConnectStatusChanged h k)
  | .clearPortResetChange => pure (p.clearPortResetChange h k)

/-- What the call does after its write. -/
def wait (env : Env) (p : Port) (k : Nat) : PortCall → Except Fault Unit
  | .reset => p.awaitReset env.steps k
  | _ => pure ()

/-- Having read `r`, the call writes `v`, and nothing else. -/
def Writes (call : PortCall) (r v : BitVec 32) : Prop :=
  ∀ (env : Env) (h : Host) (p : Port) (k : Nat), p.portsc k = r →
    call.run env h p k =
      (call.wait env p (k + 1)).map fun _ => h.act (.portsc p.portNum v)

/-- The change bit a call acknowledges. -/
def clears : PortCall → BitVec 32
  | .clearPortResetChange => 0x00200000#32
  | _ => 0x00020000#32

/-- The bit a call sets. -/
def sets : PortCall → BitVec 32
  | .reset => 0x00000010#32
  | _ => 0#32

/-- What a call keeps of what it reads. -/
def mask : PortCall → BitVec 32
  | .reset => 0x0e00c3e0#32
  | _ => 0x0e01c3e0#32

/-- What a call writes. -/
def written (call : PortCall) (r : BitVec 32) : BitVec 32 :=
  (r &&& call.mask) ||| (call.clears ||| call.sets)

theorem run_eq (env : Env) (h : Host) (p : Port) (k : Nat) (call : PortCall) :
    call.run env h p k = (call.wait env p (k + 1)).map fun _ =>
      h.act (.portsc p.portNum (call.written (p.portsc k))) := by
  cases call with
  | reset =>
      show p.reset env h k = (p.awaitReset env.steps (k + 1)).map _
      unfold Port.reset
      cases p.awaitReset env.steps (k + 1) <;> rfl
  | clearConnectStatusChanged =>
      show pure (h.act _) = Except.ok (h.act _)
      rw [BitField.put_one]
      rfl
  | clearPortResetChange =>
      show pure (h.act _) = Except.ok (h.act _)
      rw [BitField.put_one]
      rfl

/-- A call writes what `written` says, and nothing else. -/
theorem writes_iff (call : PortCall) (r v : BitVec 32) :
    call.Writes r v ↔ v = call.written r := by
  constructor
  · intro hwrites
    -- a port that reads as `r` once, and then as reset
    let p : Port := ⟨0#8, fun j => if j = 0 then r else 0#32⟩
    have hrun := hwrites (Env.zero poolAtMiB) ⟨0#64, []⟩ p 0 rfl
    have hwait : call.wait (Env.zero poolAtMiB) p 1 = .ok () := by
      cases call with
      | reset =>
          have hclear : ¬ Portsc.portReset.get 0#32 = 1#1 := by decide
          exact if_neg hclear
      | clearConnectStatusChanged => rfl
      | clearPortResetChange => rfl
    rw [run_eq, hwait] at hrun
    have hio := congrArg Host.io (Except.ok.inj hrun)
    exact (Io.portsc.inj (List.cons.inj hio).1).2.symm
  · rintro rfl env h p k rfl
    exact call.run_eq env h p k

end PortCall

/-! ## runs -/

/-- One call's write: what the call had read, what it wrote, and over what. -/
structure PortWrite where
  call : PortCall
  read : BitVec 32
  value : BitVec 32
  before : BitVec 32

namespace PortWrite

/-- The register after the write. -/
def after (w : PortWrite) : BitVec 32 := Portsc.write w.before w.value

/-- What a write may do. -/
structure Clean (w : PortWrite) : Prop where
  /-- it acknowledges the change of its call and sets the bit of its call -/
  effect : w.after = (w.before &&& ~~~w.call.clears) ||| w.call.sets
  enabled : Portsc.portEnabledDisabled.get w.after = Portsc.portEnabledDisabled.get w.before
  software : w.after &&& Portsc.software = w.before &&& Portsc.software
  strobe : Portsc.portLinkStateWriteStrobe.get w.value = 0#1
  warmPortReset : Portsc.warmPortReset.get w.value = 0#1

end PortWrite

/-- The register reads `c` first and `d` last, and the calls in between write
`ws`. -/
inductive PortRun (c : BitVec 32) : List PortWrite → BitVec 32 → Prop
  | start (h : Portsc.portLinkStateWriteStrobe.get c = 0#1) : PortRun c [] c
  | controller {ws : List PortWrite} {d d' : BitVec 32} (run : PortRun c ws d)
      (h : Portsc.Progress d d') : PortRun c ws d'
  | call {ws : List PortWrite} {d : BitVec 32} (run : PortRun c ws d) (w : PortWrite)
      (read : w.read = d) (value : w.call.Writes d w.value) (race : Portsc.Progress d w.before) :
      PortRun c (ws ++ [w]) w.after

/-! ## one write -/

namespace PortCall

/-- What a call writes has, outside its mask, the bits of the call alone. -/
theorem written_and (call : PortCall) {s : BitVec 32} (h : call.mask &&& s = 0#32)
    (r : BitVec 32) : call.written r &&& s = (call.clears ||| call.sets) &&& s :=
  RegisterBits.and_or_and_of_disjoint h r _

/-- The bits that only software changes are written as they were read. -/
theorem written_software (call : PortCall) (r : BitVec 32) :
    call.written r &&& Portsc.software = r &&& Portsc.software := by
  have hmask : call.mask &&& Portsc.software = Portsc.software := by cases call <;> rfl
  have hbits : (call.clears ||| call.sets) &&& Portsc.software = 0#32 := by cases call <;> rfl
  rw [written, BitVec.and_or_distrib_right, BitVec.and_assoc, hmask, hbits, BitVec.or_zero]

theorem written_strobe (call : PortCall) {r : BitVec 32}
    (h : Portsc.portLinkStateWriteStrobe.get r = 0#1) :
    Portsc.portLinkStateWriteStrobe.get (call.written r) = 0#1 := by
  rw [written, BitField.get_or, BitField.get_and, h, BitVec.zero_and, BitVec.zero_or]
  cases call <;> rfl

theorem written_warmPortReset (call : PortCall) (r : BitVec 32) :
    Portsc.warmPortReset.get (call.written r) = 0#1 := by
  have hmask : Portsc.warmPortReset.get call.mask = 0#1 := by cases call <;> rfl
  rw [written, BitField.get_or, BitField.get_and, hmask, BitVec.and_zero, BitVec.zero_or]
  cases call <;> rfl

/-- **The effect of a write**, on whatever the register holds by then. -/
theorem write_written (call : PortCall) {r c : BitVec 32}
    (hstrobe : Portsc.portLinkStateWriteStrobe.get r = 0#1)
    (hsoftware : c &&& Portsc.software = r &&& Portsc.software) :
    Portsc.write c (call.written r) = (c &&& ~~~call.clears) ||| call.sets := by
  have hbits := Portsc.bits_of_strobe (call.written_strobe hstrobe)
  have hkept : call.written r &&& Portsc.software = c &&& Portsc.software := by
    rw [written_software, hsoftware]
  have hwarm : ¬ Portsc.warmPortReset.get (call.written r) = 1#1 := fun h =>
    absurd ((call.written_warmPortReset r).symm.trans h) (by decide)
  have hclears : call.written r &&& 0x00fe0002#32 = call.clears :=
    (call.written_and (by cases call <;> rfl) r).trans (by cases call <;> rfl)
  have hsets : call.written r &&& 0x00000010#32 = call.sets :=
    (call.written_and (by cases call <;> rfl) r).trans (by cases call <;> rfl)
  rw [Portsc.write, if_neg hwarm, hbits, RegisterBits.write_eq_of_kept _ hkept rfl, hclears, hsets]

/-- No call acknowledges anything but a change, or sets what software owns. -/
theorem effect_software (call : PortCall) (c : BitVec 32) :
    ((c &&& ~~~call.clears) ||| call.sets) &&& Portsc.software = c &&& Portsc.software := by
  have hclears : ~~~call.clears &&& Portsc.software = Portsc.software := by cases call <;> rfl
  have hsets : call.sets &&& Portsc.software = 0#32 := by cases call <;> rfl
  rw [BitVec.and_or_distrib_right, BitVec.and_assoc, hclears, hsets, BitVec.or_zero]

theorem effect_enabled (call : PortCall) (c : BitVec 32) :
    Portsc.portEnabledDisabled.get ((c &&& ~~~call.clears) ||| call.sets) =
      Portsc.portEnabledDisabled.get c := by
  have hclears : Portsc.portEnabledDisabled.get (~~~call.clears) = BitVec.allOnes 1 := by
    cases call <;> rfl
  have hsets : Portsc.portEnabledDisabled.get call.sets = 0#1 := by cases call <;> rfl
  rw [BitField.get_or, BitField.get_and, hclears, hsets, BitVec.and_allOnes, BitVec.or_zero]

theorem effect_strobe (call : PortCall) {c : BitVec 32}
    (h : Portsc.portLinkStateWriteStrobe.get c = 0#1) :
    Portsc.portLinkStateWriteStrobe.get ((c &&& ~~~call.clears) ||| call.sets) = 0#1 := by
  rw [BitField.get_or, BitField.get_and, h, BitVec.zero_and, BitVec.zero_or]
  cases call <;> rfl

end PortCall

/-- A call writes cleanly, whatever the controller does in the meantime. -/
theorem PortWrite.clean {w : PortWrite} (hvalue : w.call.Writes w.read w.value)
    (hstrobe : Portsc.portLinkStateWriteStrobe.get w.read = 0#1)
    (race : Portsc.Progress w.read w.before) : w.Clean := by
  have hwritten := (w.call.writes_iff w.read w.value).mp hvalue
  have heffect : w.after = (w.before &&& ~~~w.call.clears) ||| w.call.sets := by
    rw [PortWrite.after, hwritten]
    exact w.call.write_written hstrobe race.software
  exact
    { effect := heffect
      enabled := heffect ▸ w.call.effect_enabled w.before
      software := heffect ▸ w.call.effect_software w.before
      strobe := hwritten ▸ w.call.written_strobe hstrobe
      warmPortReset := hwritten ▸ w.call.written_warmPortReset w.read }

/-! ## whole runs -/

namespace PortRun

variable {c d : BitVec 32} {ws : List PortWrite}

/-- The strobe always reads 0. -/
theorem strobe (run : PortRun c ws d) : Portsc.portLinkStateWriteStrobe.get d = 0#1 := by
  induction run with
  | start h => exact h
  | controller _ h _ => exact h.strobe
  | call _ w read value race ih =>
      rw [← read] at value race ih
      rw [(PortWrite.clean value ih race).effect]
      exact w.call.effect_strobe race.strobe

theorem clean (run : PortRun c ws d) : ∀ w ∈ ws, w.Clean := by
  induction run with
  | start _ => exact nofun
  | controller _ _ ih => exact ih
  | call run w read value race ih =>
      have hstrobe := run.strobe
      rw [← read] at value race hstrobe
      intro w' hw'
      rcases List.mem_append.mp hw' with hold | hnew
      · exact ih w' hold
      · exact List.mem_singleton.mp hnew ▸ PortWrite.clean value hstrobe race

/-- What only software changes nobody changes. -/
theorem software (run : PortRun c ws d) : d &&& Portsc.software = c &&& Portsc.software := by
  induction run with
  | start _ => rfl
  | controller _ h ih => exact h.software.trans ih
  | call run w read value race ih =>
      have hclean := (run.call w read value race).clean w
        (List.mem_append_right _ (List.mem_singleton_self w))
      exact hclean.software.trans (race.software.trans ih)

/-- A change that is set stays until a call acknowledges it. -/
theorem getLsbD_of_set (run : PortRun c ws d) {i : Nat} (hi : Portsc.changes.getLsbD i = true)
    (hset : c.getLsbD i = true) (hnot : ∀ w ∈ ws, w.call.clears.getLsbD i = false) :
    d.getLsbD i = true := by
  induction run with
  | start _ => exact hset
  | controller _ h ih => exact h.changes i hi (ih hnot)
  | @call ws' d' run w read value race ih =>
      have hw : w ∈ ws' ++ [w] := List.mem_append_right _ (List.mem_singleton_self w)
      have hbefore := race.changes i hi (ih fun w' hw' => hnot w' (List.mem_append_left _ hw'))
      have hlt := BitVec.lt_of_getLsbD hi
      rw [((run.call w read value race).clean w hw).effect, BitVec.getLsbD_or, BitVec.getLsbD_and,
        BitVec.getLsbD_not, hbefore, hnot w hw, decide_eq_true hlt]
      rfl

end PortRun

/-- **Port status updates** acknowledge what they are for and nothing else, in
any run: no call disables the port, moves its link or warm-resets it, no
status that software owns is ever changed, and no change is lost before a call
that is for it. -/
theorem port_status {c d : BitVec 32} {ws : List PortWrite} (run : PortRun c ws d) :
    (∀ w ∈ ws, w.Clean) ∧ d &&& Portsc.software = c &&& Portsc.software ∧
      ∀ i, Portsc.changes.getLsbD i = true → c.getLsbD i = true →
        (∀ w ∈ ws, w.call.clears.getLsbD i = false) → d.getLsbD i = true :=
  ⟨run.clean, run.software, fun _ hi hset hnot => run.getLsbD_of_set hi hset hnot⟩

/-- While the driver acknowledges a finished reset, the connection changes:
what is written was read before, and the change is still there. -/
theorem port_status_race :
    let w : PortWrite :=
      ⟨.clearPortResetChange, 0x00200603#32, 0x00200200#32, 0x00220603#32⟩
    w.after = 0x00020603#32 ∧ (∀ w' ∈ [w], w'.Clean) ∧
      w.after &&& Portsc.software = 0x00200603#32 &&& Portsc.software ∧
      ∀ i, Portsc.changes.getLsbD i = true → (0x00200603#32).getLsbD i = true →
        (∀ w' ∈ [w], w'.call.clears.getLsbD i = false) → w.after.getLsbD i = true :=
  ⟨by decide, port_status (.call (.start (by decide)) _ rfl
    ((PortCall.writes_iff _ _ _).mpr (by decide))
    (Portsc.Progress.of_set (c := 0x00200603#32) 0x00020000#32 (by decide)))⟩

end MikanOs.Usb.Xhci
