import Mathlib.Algebra.Group.Nat.Defs
import MikanOs.Error
import MikanOs.Lib.BitField
import MikanOs.Lib.Linked

/-!
# MikanOs.Usb.Xhci.ExtendedCapabilities

The extended capabilities of the controller (`usb/xhci/registers.cpp`): a list
of registers, each of which says how far it is to the next.
`RequestHCOwnership` (`usb/xhci/xhci.cpp`) looks for one of them and asks the
BIOS for the controller there.

Pointers are the machine's, with `0` for the null pointer that ends the list.
The registers are read from memory that does not change; only the register
that has been written answers for itself from then on.
-/

namespace MikanOs.Usb.Xhci

/-! ## the code -/

namespace ExtendedRegister

def capabilityId : BitField 32 8 := ⟨0, by decide⟩
def nextPointer : BitField 32 8 := ⟨8, by decide⟩

end ExtendedRegister

namespace Usblegsup

def hcBiosOwnedSemaphore : BitField 32 1 := .bit 16
def hcOsOwnedSemaphore : BitField 32 1 := .bit 24

end Usblegsup

namespace Hccparams1

def xhciExtendedCapabilitiesPointer : BitField 32 16 := ⟨16, by decide⟩

end Hccparams1

/-- `AddOrNull`, for registers of four bytes. -/
def addOrNull (p : BitVec 64) (d : BitVec 32) : BitVec 64 :=
  if d = 0#32 then 0#64 else p + 4#64 * d.setWidth 64

section

variable (mmio : BitVec 64 → BitVec 32)

/-- `Iterator::operator++`. -/
def increment (reg : BitVec 64) : BitVec 64 :=
  if reg ≠ 0#64 then
    addOrNull reg ((ExtendedRegister.nextPointer.get (mmio reg)).setWidth 32)
  else reg

/-- `ExtendedRegisterList`: what `begin()` points to. -/
def extendedRegisterList (mmioBase : BitVec 64) (hccp : BitVec 32) : BitVec 64 :=
  addOrNull mmioBase ((Hccparams1.xhciExtendedCapabilitiesPointer.get hccp).setWidth 32)

/-- Where a loop from an iterator on to `end()` gets in less than `n` steps. -/
def iterate : Nat → BitVec 64 → Except Fault (List (BitVec 64))
  | 0, _ => throw .endless
  | n + 1, it =>
      if it = 0#64 then pure []
      else do
        let rest ← iterate n (increment mmio it)
        pure (it :: rest)

/-- `std::find_if`, from an iterator on to `end()`. -/
def findIf (pred : BitVec 32 → Bool) : Nat → BitVec 64 → Except Fault (BitVec 64)
  | 0, _ => throw .endless
  | n + 1, it =>
      if it = 0#64 then pure it
      else if pred (mmio it) then pure it
      else findIf pred n (increment mmio it)

/-- What `RequestHCOwnership` looks for. -/
def isUsblegsup (reg : BitVec 32) : Bool := ExtendedRegister.capabilityId.get reg = 1#8

/-- The loop that waits for the BIOS; `later` is what the register reads as,
one time after the other. -/
def waitOwned (later : Nat → BitVec 32) : Nat → Nat → Except Fault Unit
  | 0, _ => throw .endless
  | n + 1, i =>
      let r := later i
      if Usblegsup.hcBiosOwnedSemaphore.get r = 1#1 ∨ Usblegsup.hcOsOwnedSemaphore.get r = 0#1 then
        waitOwned later n (i + 1)
      else pure ()

/-- `RequestHCOwnership`: the registers written, and whether it returns. -/
def requestHCOwnership (later : Nat → BitVec 32) (n m : Nat) (mmioBase : BitVec 64)
    (hccp : BitVec 32) : List (BitVec 64 × BitVec 32) × Except Fault Unit :=
  match findIf mmio isUsblegsup n (extendedRegisterList mmioBase hccp) with
  | .error fault => ([], .error fault)
  | .ok extUsblegsup =>
      if extUsblegsup = 0#64 then ([], pure ())
      else
        let r := mmio extUsblegsup
        if Usblegsup.hcOsOwnedSemaphore.get r = 1#1 then ([], pure ())
        else ([(extUsblegsup, Usblegsup.hcOsOwnedSemaphore.put r 1#1)], waitOwned later m 0)

end

/-! ## the list -/

/-- What a pointer points to. -/
def node (p : BitVec 64) : Option (BitVec 64) := if p = 0#64 then none else some p

theorem node_eq_none {p : BitVec 64} : node p = none ↔ p = 0#64 := by
  unfold node
  split
  · next h => exact iff_of_true rfl h
  · next h => exact iff_of_false nofun h

theorem node_eq_some {p a : BitVec 64} : node p = some a ↔ p = a ∧ a ≠ 0#64 := by
  unfold node
  split
  · next h =>
      exact ⟨nofun, fun ⟨hp, ha⟩ => absurd (hp.symm.trans h) ha⟩
  · next h => exact ⟨fun heq => Option.some.inj heq ▸ ⟨rfl, h⟩, fun ⟨hp, _⟩ => congrArg some hp⟩

/-- The register after a register. -/
def nextRegister (mmio : BitVec 64 → BitVec 32) (a : BitVec 64) : Option (BitVec 64) :=
  node (increment mmio a)

variable {mmio : BitVec 64 → BitVec 32} {it : BitVec 64} {as : List (BitVec 64)} {n : Nat}

/-- The loop goes along the list. -/
theorem iterate_of_visits (h : Linked.Visits (nextRegister mmio) (node it) as)
    (hn : as.length < n) : iterate mmio n it = .ok as := by
  generalize hstart : node it = start at h
  induction h generalizing it n with
  | stop =>
      obtain ⟨n, rfl⟩ := Nat.exists_eq_succ_of_ne_zero (Nat.ne_zero_of_lt hn)
      exact if_pos (node_eq_none.mp hstart)
  | visit hrest ih =>
      obtain ⟨n, rfl⟩ := Nat.exists_eq_succ_of_ne_zero (Nat.ne_zero_of_lt hn)
      obtain ⟨rfl, hne⟩ := node_eq_some.mp hstart
      rw [iterate, if_neg hne, ih (Nat.succ_lt_succ_iff.mp hn) rfl]
      rfl

/-- The search ends at the first register of the list that is looked for. -/
theorem findIf_of_visits (h : Linked.Visits (nextRegister mmio) (node it) as)
    (hn : as.length < n) (pred : BitVec 32 → Bool) :
    findIf mmio pred n it = .ok ((as.find? fun a => pred (mmio a)).getD 0#64) := by
  generalize hstart : node it = start at h
  induction h generalizing it n with
  | stop =>
      obtain ⟨n, rfl⟩ := Nat.exists_eq_succ_of_ne_zero (Nat.ne_zero_of_lt hn)
      rw [node_eq_none.mp hstart]
      rfl
  | @visit a as hrest ih =>
      obtain ⟨n, rfl⟩ := Nat.exists_eq_succ_of_ne_zero (Nat.ne_zero_of_lt hn)
      obtain ⟨rfl, hne⟩ := node_eq_some.mp hstart
      rw [findIf, if_neg hne, List.find?_cons]
      by_cases hpred : pred (mmio it)
      · rw [if_pos hpred, hpred]
        rfl
      · rw [if_neg hpred, ih (Nat.succ_lt_succ_iff.mp hn) rfl, Bool.eq_false_iff.mpr hpred]

/-! ## addresses -/

/-- The registers end: what is read from `bound` on is zero, and what is read
before does not lead over the end of the address space, where the addition of
a pointer would overflow. -/
structure EndsBefore (mmio : BitVec 64 → BitVec 32) (bound : Nat) : Prop where
  zero : ∀ a : BitVec 64, bound ≤ a.toNat → mmio a = 0#32
  noOverflow : ∀ a : BitVec 64, a.toNat < bound →
    a.toNat + 4 * (ExtendedRegister.nextPointer.get (mmio a)).toNat < 2 ^ 64

variable {a b : BitVec 64} {bound : Nat}

/-- A pointer that does not wrap is null only where the distance is zero. -/
theorem node_addOrNull {p : BitVec 64} {w : Nat} {d : BitVec w} (hw : w ≤ 32)
    (h : p.toNat + 4 * d.toNat < 2 ^ 64) :
    (node (addOrNull p (d.setWidth 32)) = none ↔ d.toNat = 0) ∧
      ∀ a, node (addOrNull p (d.setWidth 32)) = some a →
        d.toNat ≠ 0 ∧ a.toNat = p.toNat + 4 * d.toNat := by
  have hd : (d.setWidth 32).toNat = d.toNat := BitVec.toNat_setWidth_of_le hw
  have hzero : d.setWidth 32 = 0#32 ↔ d.toNat = 0 := by
    rw [← hd]
    exact BitVec.toNat_inj.symm
  have hsum : (p + 4#64 * (d.setWidth 32).setWidth 64).toNat = p.toNat + 4 * d.toNat := by
    rw [BitVec.toNat_add, BitVec.toNat_mul, BitVec.toNat_setWidth_of_le (by decide), hd,
      BitVec.toNat_ofNat]
    omega
  unfold addOrNull
  by_cases hnull : d.toNat = 0
  · rw [if_pos (hzero.mpr hnull)]
    exact ⟨iff_of_true rfl hnull, nofun⟩
  · rw [if_neg (mt hzero.mp hnull), node_eq_none]
    refine ⟨iff_of_false (fun h0 => ?_) hnull, fun a ha => ⟨hnull, ?_⟩⟩
    · rw [h0, BitVec.toNat_zero] at hsum
      omega
    · exact (node_eq_some.mp ha).1 ▸ hsum

/-- No register leads over the end. -/
theorem EndsBefore.lt (h : EndsBefore mmio bound) (a : BitVec 64) :
    a.toNat + 4 * (ExtendedRegister.nextPointer.get (mmio a)).toNat < 2 ^ 64 := by
  by_cases hlt : a.toNat < bound
  · exact h.noOverflow a hlt
  · have hzero : (ExtendedRegister.nextPointer.get (mmio a)).toNat = 0 := by
      rw [h.zero a (Nat.not_lt.mp hlt)]
      decide
    have ha := a.isLt
    omega

/-- A register without a next one. -/
theorem nextRegister_eq_none_iff (h : EndsBefore mmio bound) (ha : a ≠ 0#64) :
    nextRegister mmio a = none ↔ (ExtendedRegister.nextPointer.get (mmio a)).toNat = 0 := by
  rw [nextRegister, increment, if_pos ha]
  exact (node_addOrNull (by decide) (h.lt a)).1

/-- The next register is further on, by four bytes for each of the count. -/
theorem lt_of_nextRegister (h : EndsBefore mmio bound) (hnext : nextRegister mmio a = some b) :
    a.toNat < b.toNat ∧
      b.toNat = a.toNat + 4 * (ExtendedRegister.nextPointer.get (mmio a)).toNat := by
  by_cases ha : a = 0#64
  · rw [nextRegister, increment, if_neg (not_not.mpr ha), node_eq_none.mpr ha] at hnext
    contradiction
  · rw [nextRegister, increment, if_pos ha] at hnext
    obtain ⟨hne, hb⟩ := (node_addOrNull (by decide) (h.lt a)).2 b hnext
    omega

/-! ## the walk -/

/-- The registers `as` are what the loop visits: the first is where
`HCCPARAMS1` says, each of the others where the one before says, and it is
the last that has no next one. -/
structure Capabilities (mmio : BitVec 64 → BitVec 32) (mmioBase : BitVec 64) (hccp : BitVec 32)
    (as : List (BitVec 64)) : Prop where
  iterate : ∀ n, as.length < n → iterate mmio n (extendedRegisterList mmioBase hccp) = .ok as
  empty : as = [] ↔ Hccparams1.xhciExtendedCapabilitiesPointer.get hccp = 0#16
  first : ∀ a, as.head? = some a →
    a.toNat = mmioBase.toNat + 4 * (Hccparams1.xhciExtendedCapabilitiesPointer.get hccp).toNat
  next : as.IsChain fun a b => a.toNat < b.toNat ∧
    b.toNat = a.toNat + 4 * (ExtendedRegister.nextPointer.get (mmio a)).toNat
  last : ∀ a ∈ as, ExtendedRegister.nextPointer.get (mmio a) = 0#8 ↔ as.getLast? = some a

/-- `RequestHCOwnership` finds the first of the registers `as` that it is
for, and writes to no other. -/
structure Requests (mmio : BitVec 64 → BitVec 32) (mmioBase : BitVec 64) (hccp : BitVec 32)
    (as : List (BitVec 64)) : Prop where
  found : ∀ n, as.length < n →
    findIf mmio isUsblegsup n (extendedRegisterList mmioBase hccp) =
      .ok ((as.find? fun a => isUsblegsup (mmio a)).getD 0#64)
  written : ∀ later n m, as.length < n →
    (requestHCOwnership mmio later n m mmioBase hccp).1 =
      match as.find? fun a => isUsblegsup (mmio a) with
      | none => []
      | some a =>
          if Usblegsup.hcOsOwnedSemaphore.get (mmio a) = 1#1 then []
          else [(a, Usblegsup.hcOsOwnedSemaphore.put (mmio a) 1#1)]

/-- The list comes to its end. -/
theorem EndsBefore.exists_visits (h : EndsBefore mmio bound) (start : Option (BitVec 64)) :
    ∃ as, Linked.Visits (nextRegister mmio) start as := by
  have hcount : ∀ a b, nextRegister mmio a = some b → 2 ^ 64 - b.toNat < 2 ^ 64 - a.toNat := by
    intro a b hnext
    have hlt := (lt_of_nextRegister h hnext).1
    have hb := b.isLt
    omega
  exact Linked.exists_visits hcount start

/-- There is a register at every node of the list. -/
theorem ne_zero_of_visits (h : Linked.Visits (nextRegister mmio) (node it) as) :
    ∀ a ∈ as, a ≠ 0#64 :=
  h.forall_mem (fun _ ha => (node_eq_some.mp ha).2) fun _ _ _ hb => (node_eq_some.mp hb).2

theorem capabilities_of_visits (h : EndsBefore mmio bound) {mmioBase : BitVec 64} {hccp : BitVec 32}
    (hbase : mmioBase.toNat +
      4 * (Hccparams1.xhciExtendedCapabilitiesPointer.get hccp).toNat < 2 ^ 64)
    (hvisits : Linked.Visits (nextRegister mmio) (node (extendedRegisterList mmioBase hccp)) as) :
    Capabilities mmio mmioBase hccp as where
  iterate n hn := iterate_of_visits hvisits hn
  empty := by
    rw [← List.head?_eq_none_iff, hvisits.head?, extendedRegisterList,
      (node_addOrNull (by decide) hbase).1]
    exact BitVec.toNat_inj (y := 0#16)
  first := by
    intro a ha
    rw [hvisits.head?] at ha
    exact ((node_addOrNull (by decide) hbase).2 a ha).2
  next := hvisits.isChain.imp fun _ _ hnext => lt_of_nextRegister h hnext
  last := by
    intro a ha
    have hne := ne_zero_of_visits hvisits a ha
    rw [← hvisits.next_eq_none_iff a ha, nextRegister_eq_none_iff h hne]
    exact (BitVec.toNat_inj (y := 0#8)).symm

theorem requests_of_visits {mmioBase : BitVec 64} {hccp : BitVec 32}
    (hvisits : Linked.Visits (nextRegister mmio) (node (extendedRegisterList mmioBase hccp)) as) :
    Requests mmio mmioBase hccp as where
  found n hn := findIf_of_visits hvisits hn isUsblegsup
  written := by
    intro later n m hn
    unfold requestHCOwnership
    rw [findIf_of_visits hvisits hn]
    cases hfind : as.find? fun a => isUsblegsup (mmio a) with
    | none => rfl
    | some a =>
        have hne := ne_zero_of_visits hvisits a (List.mem_of_find?_eq_some hfind)
        simp only [Option.getD_some, if_neg hne]
        split <;> rfl

/-- **The walk over the extended capabilities.**  It comes to its end,
register by register, and `RequestHCOwnership` writes to the first one that
has the id it looks for. -/
theorem exists_capabilities (h : EndsBefore mmio bound) (mmioBase : BitVec 64) (hccp : BitVec 32)
    (hbase : mmioBase.toNat +
      4 * (Hccparams1.xhciExtendedCapabilitiesPointer.get hccp).toNat < 2 ^ 64) :
    ∃ as, Capabilities mmio mmioBase hccp as ∧ Requests mmio mmioBase hccp as := by
  obtain ⟨as, hvisits⟩ := h.exists_visits (node (extendedRegisterList mmioBase hccp))
  exact ⟨as, capabilities_of_visits h hbase hvisits, requests_of_visits hvisits⟩

/-- Two capabilities, the second of which is the one looked for. -/
def sampleMmio (a : BitVec 64) : BitVec 32 :=
  if a = 0x1020#64 then 0x00000402#32 else if a = 0x1030#64 then 0x00010001#32 else 0#32

theorem endsBefore_sample : EndsBefore sampleMmio 0x1034 where
  zero := by
    intro a ha
    unfold sampleMmio
    rw [if_neg, if_neg]
    · rintro rfl
      exact absurd ha (by decide)
    · rintro rfl
      exact absurd ha (by decide)
  noOverflow := by
    intro a ha
    have hnext := (ExtendedRegister.nextPointer.get (sampleMmio a)).isLt
    omega

theorem exists_capabilities_sample :
    ∃ as, Capabilities sampleMmio 0x1000#64 0x00080000#32 as ∧
      Requests sampleMmio 0x1000#64 0x00080000#32 as :=
  exists_capabilities endsBefore_sample 0x1000#64 0x00080000#32 (by decide)

example : iterate sampleMmio 3 (extendedRegisterList 0x1000#64 0x00080000#32) =
    .ok [0x1020#64, 0x1030#64] := rfl

end MikanOs.Usb.Xhci
