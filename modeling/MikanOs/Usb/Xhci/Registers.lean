import MikanOs.Usb.Xhci.EventRing

/-!
# MikanOs.Usb.Xhci.Registers

The registers through which the controller learns an address
(`usb/xhci/registers.hpp`): each keeps it without its low bits, in a field
of its own width.  Three of the fields reach up to bit 63; that of `DCBAAP`
ends at bit 31, and is so narrow that C++ reads it as an `int`.
-/

namespace MikanOs.Usb.Xhci

/-! ## the code -/

namespace Crcr

def ringCycleState : BitField 64 1 := ⟨0, by decide⟩
def commandStop : BitField 64 1 := ⟨1, by decide⟩
def commandAbort : BitField 64 1 := ⟨2, by decide⟩
def commandRingPointer : BitField 64 58 := ⟨6, by decide⟩

/-- `Pointer()`. -/
def pointer (v : BitVec 64) : BitVec 64 := (commandRingPointer.get v).setWidth 64 <<< 6

/-- `SetPointer`. -/
def setPointer (v p : BitVec 64) : BitVec 64 :=
  commandRingPointer.put v ((p >>> 6).setWidth 58)

end Crcr

namespace Dcbaap

def deviceContextBaseAddressArrayPointer : BitField 64 26 := ⟨6, by decide⟩

/-- `Pointer()`: a field of 26 bits is shifted as an `int`, and the result
converted to `uint64_t`. -/
def pointer (v : BitVec 64) : BitVec 64 :=
  ((deviceContextBaseAddressArrayPointer.get v).setWidth 32 <<< 6).signExtend 64

/-- `SetPointer`. -/
def setPointer (v p : BitVec 64) : BitVec 64 :=
  deviceContextBaseAddressArrayPointer.put v ((p >>> 6).setWidth 26)

end Dcbaap

namespace Erstba

def eventRingSegmentTableBaseAddress : BitField 64 58 := ⟨6, by decide⟩

/-- `Pointer()`. -/
def pointer (v : BitVec 64) : BitVec 64 :=
  (eventRingSegmentTableBaseAddress.get v).setWidth 64 <<< 6

/-- `SetPointer`. -/
def setPointer (v p : BitVec 64) : BitVec 64 :=
  eventRingSegmentTableBaseAddress.put v ((p >>> 6).setWidth 58)

end Erstba

/-- What `RegisterCommandRing` writes to `CRCR`, given what it reads. -/
def registerCommandRing (crcr : BitVec 64) (ring : Ring) : BitVec 64 :=
  let value := Crcr.ringCycleState.put crcr 1#1
  let value := Crcr.commandStop.put value 0#1
  let value := Crcr.commandAbort.put value 0#1
  Crcr.setPointer value ring.buf

/-! ## one account of the four -/

/-- A register that holds an address. -/
inductive AddressRegister
  | crcr
  | dcbaap
  | erstba
  | erdp
  deriving DecidableEq, Repr

namespace AddressRegister

/-- `Pointer()`. -/
def pointer : AddressRegister → BitVec 64 → BitVec 64
  | .crcr => Crcr.pointer
  | .dcbaap => Dcbaap.pointer
  | .erstba => Erstba.pointer
  | .erdp => Erdp.pointer

/-- `SetPointer`. -/
def setPointer : AddressRegister → BitVec 64 → BitVec 64 → BitVec 64
  | .crcr => Crcr.setPointer
  | .dcbaap => Dcbaap.setPointer
  | .erstba => Erstba.setPointer
  | .erdp => Erdp.setPointer

/-- Length of the field that holds the address. -/
def width : AddressRegister → Nat
  | .crcr => 58
  | .dcbaap => 26
  | .erstba => 58
  | .erdp => 60

/-- The field that holds the address. -/
def field : (r : AddressRegister) → BitField 64 r.width
  | .crcr => Crcr.commandRingPointer
  | .dcbaap => Dcbaap.deviceContextBaseAddressArrayPointer
  | .erstba => Erstba.eventRingSegmentTableBaseAddress
  | .erdp => Erdp.eventRingDequeuePointer

/-- The alignment of the addresses a register is for. -/
def alignment : AddressRegister → Nat
  | .erdp => 16
  | _ => 64

/-- An address written to a register reads back, and no bit outside its field
changes. -/
structure Survives (r : AddressRegister) (v p : BitVec 64) : Prop where
  pointer : r.pointer (r.setPointer v p) = p
  others : ∀ i, ¬ (r.field.off ≤ i ∧ i < r.field.off + r.width) →
    (r.setPointer v p).getLsbD i = v.getLsbD i

theorem setPointer_eq (r : AddressRegister) (v p : BitVec 64) :
    r.setPointer v p = r.field.put v ((p >>> r.field.off).setWidth r.width) := by
  cases r <;> rfl

theorem alignment_eq (r : AddressRegister) : r.alignment = 2 ^ r.field.off := by
  cases r <;> rfl

/-- A field that reaches up to bit 63 is shifted as a `uint64_t`. -/
theorem pointer_eq {r : AddressRegister} (hr : r ≠ .dcbaap) (v : BitVec 64) :
    r.pointer v = (r.field.get v).setWidth 64 <<< r.field.off := by
  cases r with
  | dcbaap => exact absurd rfl hr
  | crcr => rfl
  | erstba => rfl
  | erdp => rfl

theorem off_add_width {r : AddressRegister} (hr : r ≠ .dcbaap) : r.field.off + r.width = 64 := by
  cases r with
  | dcbaap => exact absurd rfl hr
  | crcr => rfl
  | erstba => rfl
  | erdp => rfl

/-- Writing an address writes to no other field. -/
theorem getLsbD_setPointer_of_outside {r : AddressRegister} {i : Nat}
    (hi : ¬ (r.field.off ≤ i ∧ i < r.field.off + r.width)) (v p : BitVec 64) :
    (r.setPointer v p).getLsbD i = v.getLsbD i := by
  rw [setPointer_eq, BitField.getLsbD_put, if_neg hi]

theorem pointer_setPointer {r : AddressRegister} (hr : r ≠ .dcbaap) (v : BitVec 64) {p : BitVec 64}
    (hp : r.alignment ∣ p.toNat) : r.pointer (r.setPointer v p) = p := by
  rw [r.alignment_eq] at hp
  rw [pointer_eq hr, setPointer_eq, BitField.get_put]
  exact BitField.shiftLeft_of_dvd (off_add_width hr) hp

end AddressRegister

/-- Of an address in `DCBAAP` the low 32 bits are left, and their sign. -/
theorem Dcbaap.pointer_setPointer (v : BitVec 64) {p : BitVec 64} (hp : 64 ∣ p.toNat) :
    Dcbaap.pointer (Dcbaap.setPointer v p) = (p.setWidth 32).signExtend 64 := by
  have hcut : (p >>> 6).setWidth 26 = ((p.setWidth 32) >>> 6).setWidth 26 := by
    apply BitVec.eq_of_toNat_eq
    simp only [BitVec.toNat_setWidth, BitVec.toNat_ushiftRight, Nat.shiftRight_eq_div_pow]
    omega
  have hdvd : 2 ^ 6 ∣ (p.setWidth 32).toNat := by
    rw [BitVec.toNat_setWidth]
    omega
  have hlow : (((p.setWidth 32) >>> 6).setWidth 26).setWidth 32 <<< 6 = p.setWidth 32 :=
    BitField.shiftLeft_of_dvd rfl hdvd
  rw [Dcbaap.pointer, Dcbaap.setPointer, BitField.get_put, hcut, hlow]

/-- Which addresses are the sign extension of their low 32 bits. -/
theorem signExtend_setWidth_eq_self_iff {p : BitVec 64} :
    (p.setWidth 32).signExtend 64 = p ↔ p.toNat < 2 ^ 31 ∨ 2 ^ 64 - 2 ^ 31 ≤ p.toNat := by
  have hlt := p.isLt
  have hsign : (p.setWidth 32).msb = decide (2 ^ 31 ≤ p.toNat % 2 ^ 32) := by
    rw [BitVec.msb_eq_decide, BitVec.toNat_setWidth]
  rw [← BitVec.toNat_inj, BitVec.toNat_signExtend, BitVec.toNat_setWidth, BitVec.toNat_setWidth,
    hsign]
  simp only [decide_eq_true_eq]
  split <;> omega

/-- **Addresses survive the registers**, whatever they held before: those of
`DCBAAP` just when they lie in the lowest or in the highest 2 GiB. -/
theorem survives_iff (r : AddressRegister) (v : BitVec 64) {p : BitVec 64}
    (hp : r.alignment ∣ p.toNat) :
    r.Survives v p ↔ r ≠ .dcbaap ∨ p.toNat < 2 ^ 31 ∨ 2 ^ 64 - 2 ^ 31 ≤ p.toNat := by
  have hothers := fun i hi => r.getLsbD_setPointer_of_outside (i := i) hi v p
  by_cases hr : r = .dcbaap
  · subst hr
    rw [← signExtend_setWidth_eq_self_iff, ← Dcbaap.pointer_setPointer v hp]
    exact ⟨fun h => .inr h.pointer, fun h => ⟨h.resolve_left (not_not_intro rfl), hothers⟩⟩
  · exact ⟨fun _ => .inl hr, fun _ => ⟨AddressRegister.pointer_setPointer hr v hp, hothers⟩⟩

/-- A device context array at 1 MiB. -/
theorem survives_low : AddressRegister.dcbaap.Survives 0#64 0x100000#64 :=
  (survives_iff .dcbaap 0#64 (by decide)).mpr (.inr (.inl (by decide)))

/-- Of a device context array at 4 GiB the register keeps nothing. -/
theorem not_survives : (0x100000000#64).toNat % AddressRegister.dcbaap.alignment = 0 ∧
    Dcbaap.setPointer 0#64 0x100000000#64 = 0#64 ∧
    ¬ AddressRegister.dcbaap.Survives 0#64 0x100000000#64 :=
  ⟨by decide, by decide, fun h => absurd h.pointer (by decide)⟩

/-- What `RegisterCommandRing` tells the controller: where the ring is, that
its cycle state is 1, and neither to stop nor to abort. -/
theorem registerCommandRing_tells (crcr : BitVec 64) {ring : Ring} (h : 64 ∣ ring.buf.toNat) :
    Crcr.pointer (registerCommandRing crcr ring) = ring.buf ∧
      Crcr.ringCycleState.get (registerCommandRing crcr ring) = 1#1 ∧
      Crcr.commandStop.get (registerCommandRing crcr ring) = 0#1 ∧
      Crcr.commandAbort.get (registerCommandRing crcr ring) = 0#1 := by
  refine ⟨AddressRegister.pointer_setPointer (r := .crcr) (by decide) _ h, ?_, ?_, ?_⟩
  all_goals unfold registerCommandRing Crcr.setPointer
  · rw [BitField.get_put_of_disjoint (by decide), BitField.get_put_of_disjoint (by decide),
      BitField.get_put_of_disjoint (by decide), BitField.get_put]
  · rw [BitField.get_put_of_disjoint (by decide), BitField.get_put_of_disjoint (by decide),
      BitField.get_put]
  · rw [BitField.get_put_of_disjoint (by decide), BitField.get_put]

end MikanOs.Usb.Xhci
