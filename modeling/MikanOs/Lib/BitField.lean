/-!
# MikanOs.Lib.BitField

Bit fields of a machine word.  A `BitField w len` names `len` consecutive
bits of a `w`-bit word; the structure carries the proof that they lie inside
the word, so `get` and `put` need no side conditions:

* `get_put` — a field reads back what was put into it;
* `get_put_of_disjoint` — a put leaves every disjoint field alone;
* `get_put_of_contains` — a put into part of a field is a put into what the
  field reads;
* `put_put` — the later of two puts wins;
* `shiftLeft_of_dvd` — a field up to the top of the word holds an address
  whose low bits are zero.

This module depends only on the Lean 4 core library.
-/

/-- A field of `len` bits starting at bit `off` of a `w`-bit word. -/
structure BitField (w len : Nat) where
  off : Nat
  fits : off + len ≤ w

namespace BitField

/-- The lowest bit of a word. -/
def lowest (h : 0 < w) : BitField w 1 := ⟨0, h⟩

/-- A field of one bit. -/
def bit (i : Fin w) : BitField w 1 := ⟨i.val, i.isLt⟩

/-- A field whose place is checked by evaluation. -/
def within (off : Nat) (h : Nat.ble (off + len) w = true) : BitField w len :=
  ⟨off, Nat.le_of_ble_eq_true h⟩

/-- Read a field. -/
def get (f : BitField w len) (x : BitVec w) : BitVec len := x.extractLsb' f.off len

/-- Overwrite a field, keeping the other bits. -/
def put (f : BitField w len) (x : BitVec w) (v : BitVec len) : BitVec w :=
  (x &&& ~~~((BitVec.allOnes len).setWidth w <<< f.off)) ||| (v.setWidth w <<< f.off)

/-- Two fields without a common bit. -/
def Disjoint (f : BitField w a) (g : BitField w b) : Prop :=
  f.off + a ≤ g.off ∨ g.off + b ≤ f.off

instance (f : BitField w a) (g : BitField w b) : Decidable (f.Disjoint g) :=
  inferInstanceAs (Decidable (_ ∨ _))

/-! ## bit by bit -/

theorem getLsbD_get (f : BitField w len) (x : BitVec w) (i : Nat) :
    (f.get x).getLsbD i = (decide (i < len) && x.getLsbD (f.off + i)) :=
  BitVec.getLsbD_extractLsb' _ _ _ _

/-- A put answers inside the field from the new value, outside from the old
word. -/
theorem getLsbD_put (f : BitField w len) (x : BitVec w) (v : BitVec len) (i : Nat) :
    (f.put x v).getLsbD i =
      if f.off ≤ i ∧ i < f.off + len then v.getLsbD (i - f.off) else x.getLsbD i := by
  have hfits := f.fits
  by_cases hi : i < w
  · by_cases hin : f.off ≤ i ∧ i < f.off + len
    · have hlt : i - f.off < len := by omega
      simp [put, hi, hin, hlt, Nat.not_lt.mpr hin.1]
    · rw [if_neg hin]
      have hlt : i < f.off ∨ ¬ i - f.off < len := by omega
      cases hlt with
      | inl h => simp [put, hi, h]
      | inr h => simp [put, hi, h, BitVec.getLsbD_of_ge v (i - f.off) (by omega)]
  · have hout : ¬ (f.off ≤ i ∧ i < f.off + len) := by omega
    rw [if_neg hout, BitVec.getLsbD_of_ge _ _ (by omega), BitVec.getLsbD_of_ge _ _ (by omega)]

/-! ## the field laws -/

/-- A field reads back what was put into it. -/
@[simp] theorem get_put (f : BitField w len) (x : BitVec w) (v : BitVec len) :
    f.get (f.put x v) = v := by
  apply BitVec.eq_of_getLsbD_eq
  intro i hi
  have hin : f.off ≤ f.off + i ∧ f.off + i < f.off + len := by omega
  rw [getLsbD_get, getLsbD_put, if_pos hin, Nat.add_sub_cancel_left]
  simp [hi]

/-- A put leaves every disjoint field alone. -/
theorem get_put_of_disjoint {f : BitField w a} {g : BitField w b} (h : f.Disjoint g)
    (x : BitVec w) (v : BitVec b) : f.get (g.put x v) = f.get x := by
  apply BitVec.eq_of_getLsbD_eq
  intro i hi
  have hout : ¬ (g.off ≤ f.off + i ∧ f.off + i < g.off + b) := by
    unfold Disjoint at h; omega
  rw [getLsbD_get, getLsbD_get, getLsbD_put, if_neg hout]

/-- A put into a field inside a larger field is a put into what the larger
one reads. -/
theorem get_put_of_contains {f : BitField w a} {g : BitField w b} (h : BitField b a)
    (hoff : f.off = g.off + h.off) (x : BitVec w) (v : BitVec a) :
    g.get (f.put x v) = h.put (g.get x) v := by
  have hfits := h.fits
  apply BitVec.eq_of_getLsbD_eq
  intro i hi
  rw [getLsbD_get, getLsbD_put, getLsbD_put, getLsbD_get]
  by_cases hin : h.off ≤ i ∧ i < h.off + a
  · have hin' : f.off ≤ g.off + i ∧ g.off + i < f.off + a := by omega
    have hidx : g.off + i - f.off = i - h.off := by omega
    rw [if_pos hin, if_pos hin', hidx]
    simp [hi]
  · have hout : ¬ (f.off ≤ g.off + i ∧ g.off + i < f.off + a) := by omega
    rw [if_neg hin, if_neg hout]

/-- A field inside a larger field can be read in two steps. -/
theorem get_get (f : BitField w a) (g : BitField w b) (h : BitField b a)
    (hoff : f.off = g.off + h.off) (x : BitVec w) : h.get (g.get x) = f.get x := by
  have hfits := h.fits
  apply BitVec.eq_of_getLsbD_eq
  intro i hi
  have hlt : h.off + i < b := by omega
  have hidx : g.off + (h.off + i) = f.off + i := by omega
  rw [getLsbD_get, getLsbD_get, getLsbD_get, hidx]
  simp [hi, hlt]

/-- The later of two puts into one field wins. -/
@[simp] theorem put_put (f : BitField w len) (x : BitVec w) (u v : BitVec len) :
    f.put (f.put x u) v = f.put x v := by
  apply BitVec.eq_of_getLsbD_eq
  intro i hi
  simp only [getLsbD_put]
  split <;> rfl

/-- To put back what a field reads changes nothing. -/
@[simp] theorem put_get (f : BitField w len) (x : BitVec w) : f.put x (f.get x) = x := by
  apply BitVec.eq_of_getLsbD_eq
  intro i hi
  rw [getLsbD_put, getLsbD_get]
  split
  · next hin =>
    have hlt : i - f.off < len := by omega
    have hidx : f.off + (i - f.off) = i := by omega
    simp [hlt, hidx]
  · rfl

theorem get_or (f : BitField w len) (x y : BitVec w) : f.get (x ||| y) = f.get x ||| f.get y := by
  apply BitVec.eq_of_getLsbD_eq
  intro i hi
  rw [getLsbD_get, BitVec.getLsbD_or, BitVec.getLsbD_or, getLsbD_get, getLsbD_get,
    Bool.and_or_distrib_left]

theorem get_and (f : BitField w len) (x y : BitVec w) :
    f.get (x &&& y) = f.get x &&& f.get y := by
  apply BitVec.eq_of_getLsbD_eq
  intro i hi
  rw [getLsbD_get, BitVec.getLsbD_and, BitVec.getLsbD_and, getLsbD_get, getLsbD_get]
  simp [hi]

/-- To put a 1 into a field of one bit is to add the bit. -/
theorem put_one (f : BitField w 1) (x : BitVec w) :
    f.put x 1#1 = x ||| ((1#1).setWidth w <<< f.off) := by
  have hones : BitVec.allOnes 1 = 1#1 := rfl
  rw [put, hones]
  apply BitVec.eq_of_getLsbD_eq
  intro i hi
  simp only [BitVec.getLsbD_or, BitVec.getLsbD_and, BitVec.getLsbD_not, hi, decide_true,
    Bool.true_and]
  cases x.getLsbD i <;> cases ((1#1).setWidth w <<< f.off).getLsbD i <;> rfl

/-- An aligned address without its low bits, which the field leaves no room
for, is the whole of it. -/
theorem shiftLeft_of_dvd {p : BitVec w} (hlen : shift + len = w) (h : Nat.pow 2 shift ∣ p.toNat) :
    ((p >>> shift).setWidth len).setWidth w <<< shift = p := by
  obtain ⟨k, hk⟩ := h
  rw [Nat.pow_eq] at hk
  have hpos := Nat.two_pow_pos shift
  have hsplit : 2 ^ w = 2 ^ shift * 2 ^ len := by rw [← hlen, Nat.pow_add]
  have hlt : k < 2 ^ len := Nat.lt_of_mul_lt_mul_left (hsplit ▸ hk ▸ p.isLt)
  have hle : 2 ^ len ≤ 2 ^ w := Nat.pow_le_pow_right (by decide) (by omega)
  apply BitVec.eq_of_toNat_eq
  rw [BitVec.toNat_shiftLeft, BitVec.toNat_setWidth, BitVec.toNat_setWidth,
    BitVec.toNat_ushiftRight, Nat.shiftRight_eq_div_pow, Nat.shiftLeft_eq, hk,
    Nat.mul_div_cancel_left k hpos, Nat.mod_eq_of_lt hlt,
    Nat.mod_eq_of_lt (Nat.lt_of_lt_of_le hlt hle), Nat.mul_comm, ← hk, Nat.mod_eq_of_lt p.isLt]

end BitField
