import MikanOs.Pci.Scan

/-!
# MikanOs.Pci.BaseAddress

Base address registers (`ReadBar` of `pci.cpp`).  There are six, of 32 bits
each; what one holds shows in its low bits, and a memory address of 64 bits
takes up two of them.

`ReadBar` looks at one bit only, which in the register of an I/O address
belongs to the address.
-/

namespace MikanOs.Pci

/-! ## the code -/

/-- The two implementations of reading configuration space. -/
inductive Port
  | aarch64 (ioRead32 : BitVec 64 → BitVec 32)
  | x8664 (ioIn32 : BitVec 32 → BitVec 32)

/-- What there is to read through a port. -/
def Port.configSpace : Port → ConfigSpace
  | .aarch64 ioRead32 => ecam ioRead32
  | .x8664 ioIn32 => ioPort ioIn32

/-- `ReadConfReg`. -/
def readConfReg (port : Port) (dev : Device) (regAddr : BitVec 8) : BitVec 32 :=
  port.configSpace dev.bus dev.device dev.function regAddr

/-- `CalcBarAddress`. -/
def calcBarAddress (barIndex : BitVec 32) : BitVec 8 := (0x10#32 + 4#32 * barIndex).setWidth 8

/-- `ReadBar`: the value and the error. -/
def readBar (port : Port) (device : Device) (barIndex : BitVec 32) : BitVec 64 × Error :=
  if 6#32 ≤ barIndex then (0#64, .kIndexOutOfRange)
  else
    let addr := calcBarAddress barIndex
    let bar := readConfReg port device addr
    if bar &&& 4#32 = 0#32 then (bar.setWidth 64, .kSuccess)
    else if 5#32 ≤ barIndex then (0#64, .kIndexOutOfRange)
    else
      let barUpper := readConfReg port device (addr + 4#8)
      (bar.setWidth 64 ||| barUpper.setWidth 64 <<< 32, .kSuccess)

/-! ## the registers -/

/-- What a base address register is for. -/
inductive BarKind
  | io
  | memory32
  | memory64
  deriving DecidableEq, Repr

/-- What the low bits say; two types of memory are not defined. -/
def barKind (bar : BitVec 32) : Option BarKind :=
  if bar.getLsbD 0 then some .io
  else if bar.extractLsb' 1 2 = 0b00#2 then some .memory32
  else if bar.extractLsb' 1 2 = 0b10#2 then some .memory64
  else none

variable (port : Port) (device : Device)

/-- Base address register `i`. -/
def baseAddressRegister (i : Nat) : BitVec 32 :=
  readConfReg port device (BitVec.ofNat 8 (0x10 + 4 * i))

/-- The value and the error that base address register `i` stands for. -/
structure Decodes (i : Nat) (result : BitVec 64 × Error) : Prop where
  io : i < 6 → barKind (baseAddressRegister port device i) = some .io →
    result = ((baseAddressRegister port device i).setWidth 64, .kSuccess)
  memory32 : i < 6 → barKind (baseAddressRegister port device i) = some .memory32 →
    result = ((baseAddressRegister port device i).setWidth 64, .kSuccess)
  memory64 : i < 5 → barKind (baseAddressRegister port device i) = some .memory64 →
    result =
      (baseAddressRegister port device (i + 1) ++ baseAddressRegister port device i, .kSuccess)
  outOfRange : result.2 = .kIndexOutOfRange ↔
    6 ≤ i ∨ i = 5 ∧ barKind (baseAddressRegister port device i) = some .memory64

/-- An I/O address with bit 2 set, and something in the register after it. -/
def TakenForMemory (i : Nat) : Prop :=
  i < 6 ∧ barKind (baseAddressRegister port device i) = some .io ∧
    (baseAddressRegister port device i).getLsbD 2 ∧
    (i = 5 ∨ baseAddressRegister port device (i + 1) ≠ 0#32)

/-! ## bits -/

theorem and_four_eq_zero_iff (bar : BitVec 32) : bar &&& 4#32 = 0#32 ↔ bar.getLsbD 2 = false := by
  have htwo : 4#32 = BitVec.twoPow 32 2 := by decide
  rw [htwo, BitVec.and_twoPow]
  cases bar.getLsbD 2 with
  | true => decide
  | false => decide

/-- Bit 2 tells a memory address of 64 bits from one of 32. -/
theorem getLsbD_two_of_memory {bar : BitVec 32} :
    (barKind bar = some .memory32 → bar.getLsbD 2 = false) ∧
      (barKind bar = some .memory64 → bar.getLsbD 2 = true) := by
  have hbit : (bar.extractLsb' 1 2).getLsbD 1 = bar.getLsbD 2 := by simp
  unfold barKind
  rw [← hbit]
  split
  · exact ⟨nofun, nofun⟩
  · split
    · next h => exact ⟨fun _ => by rw [h]; rfl, nofun⟩
    · split
      · next h => exact ⟨nofun, fun _ => by rw [h]; rfl⟩
      · exact ⟨nofun, nofun⟩

/-- The two halves of an address. -/
theorem or_shiftLeft_eq_append (lower upper : BitVec 32) :
    lower.setWidth 64 ||| upper.setWidth 64 <<< 32 = upper ++ lower := by
  apply BitVec.eq_of_getLsbD_eq
  intro i hi
  rw [BitVec.getLsbD_or, BitVec.getLsbD_append]
  by_cases hlt : i < 32
  · simp [hlt, hi]
  · simp [hlt, hi, BitVec.getLsbD_of_ge lower i (by omega)]

/-- The upper half is not seen in an address of 32 bits. -/
theorem append_eq_setWidth_iff (lower upper : BitVec 32) :
    upper ++ lower = lower.setWidth 64 ↔ upper = 0#32 := by
  constructor
  · intro h
    apply BitVec.eq_of_getLsbD_eq
    intro i hi
    have hbit : (upper ++ lower).getLsbD (i + 32) = (lower.setWidth 64).getLsbD (i + 32) :=
      congrArg (BitVec.getLsbD · (i + 32)) h
    rw [BitVec.getLsbD_append, if_neg (by omega), Nat.add_sub_cancel] at hbit
    simpa [BitVec.getLsbD_of_ge lower (i + 32) (by omega)] using hbit
  · rintro rfl
    rw [← or_shiftLeft_eq_append]
    simp

/-! ## `ReadBar` -/

variable {port : Port} {device : Device} {barIndex : BitVec 32}

/-- `CalcBarAddress` by the number. -/
theorem calcBarAddress_eq (barIndex : BitVec 32) :
    calcBarAddress barIndex = BitVec.ofNat 8 (0x10 + 4 * barIndex.toNat) := by
  apply BitVec.eq_of_toNat_eq
  rw [calcBarAddress, BitVec.toNat_setWidth, BitVec.toNat_add, BitVec.toNat_mul, BitVec.toNat_ofNat,
    BitVec.toNat_ofNat, BitVec.toNat_ofNat]
  omega

/-- What `ReadBar` makes of register `i`: bit 2 decides. -/
def readRegister (port : Port) (device : Device) (i : Nat) : BitVec 64 × Error :=
  let bar := baseAddressRegister port device i
  if bar.getLsbD 2 = false then (bar.setWidth 64, .kSuccess)
  else if 5 ≤ i then (0#64, .kIndexOutOfRange)
  else (baseAddressRegister port device (i + 1) ++ bar, .kSuccess)

/-- `ReadBar`, by the number of the register. -/
theorem readBar_eq (port : Port) (device : Device) (barIndex : BitVec 32) :
    readBar port device barIndex =
      if 6 ≤ barIndex.toNat then (0#64, .kIndexOutOfRange)
      else readRegister port device barIndex.toNat := by
  have hreg : readConfReg port device (calcBarAddress barIndex) =
      baseAddressRegister port device barIndex.toNat :=
    congrArg (readConfReg port device) (calcBarAddress_eq barIndex)
  have hnext : readConfReg port device (calcBarAddress barIndex + 4#8) =
      baseAddressRegister port device (barIndex.toNat + 1) := by
    rw [calcBarAddress_eq, ← BitVec.ofNat_add, Nat.add_assoc]
    rfl
  have hsix : 6#32 ≤ barIndex ↔ 6 ≤ barIndex.toNat := BitVec.le_def
  have hfive : 5#32 ≤ barIndex ↔ 5 ≤ barIndex.toNat := BitVec.le_def
  unfold readBar readRegister
  simp only [hreg, hnext, hsix, hfive, and_four_eq_zero_iff, or_shiftLeft_eq_append]

/-! ## what is right -/

variable {i : Nat} {result : BitVec 64 × Error}

/-- One register. -/
theorem decodes_iff_single (hi : i < 6)
    (hkind : barKind (baseAddressRegister port device i) = some .io ∨
      barKind (baseAddressRegister port device i) = some .memory32) :
    Decodes port device i result ↔
      result = ((baseAddressRegister port device i).setWidth 64, .kSuccess) := by
  have hnot : barKind (baseAddressRegister port device i) ≠ some .memory64 := by
    rcases hkind with h | h <;> rw [h] <;> decide
  constructor
  · intro h
    exact hkind.elim (h.io hi) (h.memory32 hi)
  · rintro rfl
    refine ⟨fun _ _ => rfl, fun _ _ => rfl, fun _ h => absurd h hnot, nofun, ?_⟩
    rintro (hge | ⟨_, h⟩)
    · omega
    · exact absurd h hnot

/-- Two registers. -/
theorem decodes_iff_double (hi : i < 5)
    (hkind : barKind (baseAddressRegister port device i) = some .memory64) :
    Decodes port device i result ↔
      result = (baseAddressRegister port device (i + 1) ++ baseAddressRegister port device i,
        .kSuccess) := by
  constructor
  · exact fun h => h.memory64 hi hkind
  · rintro rfl
    refine ⟨fun _ h => ?_, fun _ h => ?_, fun _ _ => rfl, nofun, fun h => ?_⟩
    · exact absurd (hkind.symm.trans h) (by decide)
    · exact absurd (hkind.symm.trans h) (by decide)
    · omega

/-- No register, or one too few. -/
theorem decodes_iff_outOfRange
    (h : 6 ≤ i ∨ i = 5 ∧ barKind (baseAddressRegister port device i) = some .memory64) :
    Decodes port device i result ↔ result.2 = .kIndexOutOfRange := by
  have hnot : ∀ kind, i < 6 → barKind (baseAddressRegister port device i) = some kind →
      kind = .memory64 ∧ ¬ i < 5 := by
    intro kind hi hkind
    rcases h with hge | ⟨rfl, hmemory⟩
    · omega
    · exact ⟨Option.some.inj (hkind.symm.trans hmemory), by decide⟩
  constructor
  · exact fun hd => hd.outOfRange.mpr h
  · intro herr
    refine ⟨fun hi hk => ?_, fun hi hk => ?_, fun hi hk => ?_, fun _ => h, fun _ => herr⟩
    · exact absurd (hnot _ hi hk).1 (by decide)
    · exact absurd (hnot _ hi hk).1 (by decide)
    · exact absurd hi (hnot _ (by omega) hk).2

/-! ## what `ReadBar` returns -/

/-- An I/O address is decoded unless it is taken for a memory address. -/
theorem decodes_readRegister_io (hi : i < 6)
    (hkind : barKind (baseAddressRegister port device i) = some .io) :
    Decodes port device i (readRegister port device i) ↔ ¬ TakenForMemory port device i := by
  rw [decodes_iff_single hi (.inl hkind), readRegister]
  by_cases hbit : (baseAddressRegister port device i).getLsbD 2 = false
  · rw [if_pos hbit]
    exact iff_of_true rfl fun ht => absurd ht.2.2.1 (by rw [hbit]; decide)
  · rw [if_neg hbit]
    have htaken : (i = 5 ∨ baseAddressRegister port device (i + 1) ≠ 0#32) →
        TakenForMemory port device i := fun hseen => ⟨hi, hkind, Bool.not_eq_false _ ▸ hbit, hseen⟩
    by_cases hfive : 5 ≤ i
    · rw [if_pos hfive]
      refine iff_of_false (fun heq => ?_) fun hn => hn (htaken (.inl (by omega)))
      exact nomatch (Prod.mk.inj heq).2
    · rw [if_neg hfive, Prod.mk.injEq, append_eq_setWidth_iff]
      constructor
      · rintro ⟨hzero, _⟩ ⟨_, _, _, hseen⟩
        exact hseen.elim (by omega) fun hne => hne hzero
      · intro hn
        exact ⟨Decidable.not_not.mp fun hne => hn (htaken (.inr hne)), rfl⟩

/-- A memory address is decoded. -/
theorem decodes_readRegister_memory (hi : i < 6)
    (hkind : barKind (baseAddressRegister port device i) = some .memory32 ∨
      barKind (baseAddressRegister port device i) = some .memory64) :
    Decodes port device i (readRegister port device i) := by
  unfold readRegister
  rcases hkind with h32 | h64
  · rw [decodes_iff_single hi (.inr h32), if_pos (getLsbD_two_of_memory.1 h32)]
  · rw [if_neg (by rw [getLsbD_two_of_memory.2 h64]; decide)]
    by_cases hfive : 5 ≤ i
    · rw [if_pos hfive, decodes_iff_outOfRange (.inr ⟨by omega, h64⟩)]
    · rw [if_neg hfive, decodes_iff_double (by omega) h64]

/-- **When `ReadBar` decodes the register.**  Through either port, it does
unless it takes an I/O address for the lower half of a memory address, and
the upper half shows. -/
theorem readBar_decodes_iff (port : Port) (device : Device) (barIndex : BitVec 32)
    (h : barIndex.toNat < 6 →
      (barKind (baseAddressRegister port device barIndex.toNat)).isSome) :
    Decodes port device barIndex.toNat (readBar port device barIndex) ↔
      ¬ TakenForMemory port device barIndex.toNat := by
  rw [readBar_eq]
  generalize barIndex.toNat = i at h ⊢
  by_cases hge : 6 ≤ i
  · rw [if_pos hge, decodes_iff_outOfRange (.inl hge)]
    exact iff_of_true rfl fun ht => absurd ht.1 (Nat.not_lt.mpr hge)
  · have hi : i < 6 := Nat.not_le.mp hge
    obtain ⟨kind, hkind⟩ := Option.isSome_iff_exists.mp (h hi)
    rw [if_neg hge]
    cases kind with
    | io => exact decodes_readRegister_io hi hkind
    | memory32 =>
        exact iff_of_true (decodes_readRegister_memory hi (.inl hkind))
          fun ht => absurd (hkind.symm.trans ht.2.1) (by decide)
    | memory64 =>
        exact iff_of_true (decodes_readRegister_memory hi (.inr hkind))
          fun ht => absurd (hkind.symm.trans ht.2.1) (by decide)

/-- An I/O address and, after it, a memory address of 32 bits. -/
def ioThenMemory (regAddr : BitVec 8) : BitVec 32 :=
  if regAddr = 0x10#8 then 0xc005#32 else if regAddr = 0x14#8 then 0xfebc0000#32 else 0#32

/-- These registers, in memory-mapped configuration space. -/
def ecamSample : Port := .aarch64 fun adrs => ioThenMemory (adrs.setWidth 8)

/-- These registers, behind the I/O ports. -/
def ioPortSample : Port := .x8664 fun adrs => ioThenMemory (adrs.setWidth 8)

def sampleDevice : Device := ⟨0#8, 4#8, 0#8, 0#8, ⟨0x0c#8, 0x03#8, 0x30#8⟩⟩

/-- The memory address is decoded. -/
theorem readBar_decodes_sample :
    Decodes ecamSample sampleDevice (1#32).toNat (readBar ecamSample sampleDevice 1#32) ↔
      ¬ TakenForMemory ecamSample sampleDevice (1#32).toNat :=
  readBar_decodes_iff ecamSample sampleDevice 1#32 (by decide)

theorem not_decodes_of_io {result : BitVec 64 × Error}
    (hio : baseAddressRegister port device 0 = 0xc005#32)
    (hresult : result = (0xfebc00000000c005#64, .kSuccess)) : ¬ Decodes port device 0 result := by
  intro h
  have hvalue := h.io (by decide) (by rw [hio]; decide)
  rw [hresult, hio] at hvalue
  exact absurd hvalue (by decide)

/-- The I/O address is not, through either port. -/
theorem readBar_ioThenMemory :
    ((∀ i < 6, (barKind (baseAddressRegister ecamSample sampleDevice i)).isSome) ∧
        readBar ecamSample sampleDevice 0#32 = (0xfebc00000000c005#64, .kSuccess) ∧
        ¬ Decodes ecamSample sampleDevice 0 (readBar ecamSample sampleDevice 0#32)) ∧
      (∀ i < 6, (barKind (baseAddressRegister ioPortSample sampleDevice i)).isSome) ∧
        readBar ioPortSample sampleDevice 0#32 = (0xfebc00000000c005#64, .kSuccess) ∧
        ¬ Decodes ioPortSample sampleDevice 0 (readBar ioPortSample sampleDevice 0#32) :=
  ⟨⟨by decide, by decide, not_decodes_of_io (by decide) (by decide)⟩, by decide, by decide,
    not_decodes_of_io (by decide) (by decide)⟩

end MikanOs.Pci
