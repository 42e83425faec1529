import Mathlib.Algebra.Group.Nat.Defs

/-!
# MikanOs.Lib.RoundUp

Rounding addresses up to a multiple.  `roundUp a n` is the least multiple of
`a` that is at least `n`; on machine words it is computed with a mask
(`toNat_and_not_mask`), which agrees with it for powers of two.

`Straddles b p size` says that the block `[p, p + size)` has a multiple of
`b` strictly inside.
-/

/-- The least multiple of `a` that is at least `n`. -/
def roundUp (a n : Nat) : Nat := (n + (a - 1)) / a * a

/-- `[p, p + size)` has a multiple of `b` strictly inside. -/
def Straddles (b p size : Nat) : Prop := ∃ k, p < k * b ∧ k * b < p + size

/-! ## rounding up -/

theorem dvd_roundUp (a n : Nat) : a ∣ roundUp a n := Nat.dvd_mul_left _ _

/-- Rounding up never moves down. -/
theorem le_roundUp (ha : 0 < a) (n : Nat) : n ≤ roundUp a n := by
  unfold roundUp
  have hmod := Nat.mod_lt (n + (a - 1)) ha
  have hdiv := Nat.div_add_mod (n + (a - 1)) a
  rw [Nat.mul_comm] at hdiv
  omega

/-- Rounding up moves by less than `a`. -/
theorem roundUp_lt (ha : 0 < a) (n : Nat) : roundUp a n < n + a := by
  unfold roundUp
  have hle := Nat.div_mul_le_self (n + (a - 1)) a
  omega

/-- `roundUp a n` is the least multiple of `a` from `n` on. -/
theorem roundUp_le_of_dvd (ha : 0 < a) (hn : n ≤ m) (hm : a ∣ m) : roundUp a n ≤ m := by
  obtain ⟨k, rfl⟩ := hm
  have hlt : (n + (a - 1)) / a < k + 1 := by
    rw [Nat.div_lt_iff_lt_mul ha, Nat.add_mul, Nat.mul_comm k a]
    omega
  calc
    roundUp a n = (n + (a - 1)) / a * a := rfl
    _ ≤ k * a := Nat.mul_le_mul_right a (by omega)
    _ = a * k := Nat.mul_comm k a

/-- Rounding up a multiple does nothing. -/
theorem roundUp_eq_of_dvd (ha : 0 < a) (h : a ∣ n) : roundUp a n = n :=
  Nat.le_antisymm (roundUp_le_of_dvd ha (Nat.le_refl n) h) (le_roundUp ha n)

/-! ## straddling -/

/-- A block that starts at a multiple of `b` and is no longer than `b`
straddles none. -/
theorem not_straddles_of_dvd (h : b ∣ p) (hsize : size ≤ b) : ¬ Straddles b p size := by
  rintro ⟨k, hlo, hhi⟩
  obtain ⟨j, rfl⟩ := h
  rw [Nat.mul_comm b j] at hlo hhi
  have hjk : j < k := Nat.lt_of_mul_lt_mul_right hlo
  have hstep : (j + 1) * b ≤ k * b := Nat.mul_le_mul_right b hjk
  rw [Nat.add_mul] at hstep
  omega

/-- A block that ends at or before the next multiple of `b` straddles none. -/
theorem not_straddles_of_le_roundUp (hb : 0 < b) (h : p + size ≤ roundUp b p) :
    ¬ Straddles b p size := by
  rintro ⟨k, hlo, hhi⟩
  have hle : roundUp b p ≤ k * b :=
    roundUp_le_of_dvd hb (Nat.le_of_lt hlo) (Nat.dvd_mul_left b k)
  omega

/-- When a block from `p` on would reach past the next multiple of `b`, so does
every block from there up to that multiple. -/
theorem roundUp_le_of_not_straddles (hle : p ≤ a) (hcross : roundUp b p < p + size)
    (h : ¬ Straddles b a size) : roundUp b p ≤ a := by
  refine Nat.le_of_not_lt fun hlt => h ⟨(p + (b - 1)) / b, hlt, ?_⟩
  exact Nat.lt_of_lt_of_le hcross (Nat.add_le_add_right hle size)

/-! ## rounding with a mask -/

/-- Clearing the low `k` bits of a word rounds it down to a multiple of
`2 ^ k`. -/
theorem toNat_and_not_mask (x : BitVec w) (k : Nat) :
    (x &&& ~~~ BitVec.ofNat w (2 ^ k - 1)).toNat = x.toNat / 2 ^ k * 2 ^ k := by
  have hshift : x &&& ~~~ BitVec.ofNat w (2 ^ k - 1) = (x >>> k) <<< k := by
    apply BitVec.eq_of_getLsbD_eq
    intro i hi
    rw [BitVec.getLsbD_and, BitVec.getLsbD_not, BitVec.getLsbD_ofNat,
      Nat.testBit_two_pow_sub_one, BitVec.getLsbD_shiftLeft, BitVec.getLsbD_ushiftRight]
    by_cases hik : i < k
    · simp only [hi, hik, decide_true, Bool.and_self, Bool.not_true, Bool.and_false,
        Bool.false_and]
    · have hsum : k + (i - k) = i := by omega
      simp only [hi, hik, hsum, decide_true, decide_false, Bool.and_false, Bool.not_false,
        Bool.and_true, Bool.true_and]
  have hlt : x.toNat / 2 ^ k * 2 ^ k < 2 ^ w :=
    Nat.lt_of_le_of_lt (Nat.div_mul_le_self _ _) x.isLt
  rw [hshift, BitVec.toNat_shiftLeft, BitVec.toNat_ushiftRight, Nat.shiftRight_eq_div_pow,
    Nat.shiftLeft_eq, Nat.mod_eq_of_lt hlt]
