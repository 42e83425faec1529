/-!
# MikanOs.Pci.ConfigSpace

Reading PCI configuration space (`pci.cpp`).  A function is addressed by bus,
device and function number; the two ports of the kernel turn these and a
register into an address in different ways, `MakeEcamAddress` for
memory-mapped configuration space and `MakeAddress` for the I/O ports.  All
that is read through them goes by the same functions, so these work on a
`ConfigSpace`; `exists_ecam` and `exists_ioPort` say that neither port
narrows down what it can hold.
-/

namespace MikanOs.Pci

/-- What is read at a bus, device, function and register. -/
abbrev ConfigSpace := BitVec 8 → BitVec 8 → BitVec 8 → BitVec 8 → BitVec 32

/-! ## the two ports -/

/-- `EcamBaseAddress`. -/
def EcamBaseAddress : BitVec 64 := 0x4010000000#64

/-- `MakeEcamAddress`. -/
def makeEcamAddress (base : BitVec 64) (bus device function : BitVec 8) (regAddr : BitVec 16) :
    BitVec 64 :=
  base ||| ((bus &&& 0xff#8).setWidth 64 <<< 20) ||| ((device &&& 0x1f#8).setWidth 64 <<< 15) |||
    ((function &&& 0x07#8).setWidth 64 <<< 12) ||| (regAddr &&& 0xfff#16).setWidth 64

/-- `ReadEcamConfig` of the address of a register; `ioRead32` is the memory
the configuration space is mapped to. -/
def ecam (ioRead32 : BitVec 64 → BitVec 32) : ConfigSpace := fun bus device function regAddr =>
  ioRead32 (makeEcamAddress EcamBaseAddress bus device function (regAddr.setWidth 16))

/-- `MakeAddress`. -/
def makeAddress (bus device function regAddr : BitVec 8) : BitVec 32 :=
  (1#32 <<< 31) ||| (bus.setWidth 32 <<< 16) ||| (device.setWidth 32 <<< 11) |||
    (function.setWidth 32 <<< 8) ||| (regAddr &&& 0xfc#8).setWidth 32

/-- `WriteAddress` and then `ReadData`; `ioIn32` is what the data port reads
as, for each value of the address port. -/
def ioPort (ioIn32 : BitVec 32 → BitVec 32) : ConfigSpace := fun bus device function regAddr =>
  ioIn32 (makeAddress bus device function regAddr)

/-! ## registers -/

/-- `struct ClassCode`. -/
structure ClassCode where
  base : BitVec 8
  sub : BitVec 8
  interface : BitVec 8
  deriving DecidableEq, Repr

/-- `Match(b, s)`. -/
def ClassCode.matches (cc : ClassCode) (b s : BitVec 8) : Bool := b = cc.base ∧ s = cc.sub

variable (cs : ConfigSpace) (bus device function : BitVec 8)

/-- `ReadVendorId`. -/
def readVendorId : BitVec 16 := (cs bus device function 0x00#8).setWidth 16

/-- `ReadHeaderType`. -/
def readHeaderType : BitVec 8 := (cs bus device function 0x0c#8 >>> 16).setWidth 8

/-- `ReadClassCode`. -/
def readClassCode : ClassCode :=
  let reg := cs bus device function 0x08#8
  { base := (reg >>> 24).setWidth 8, sub := (reg >>> 16).setWidth 8,
    interface := (reg >>> 8).setWidth 8 }

/-- `ReadBusNumbers`. -/
def readBusNumbers : BitVec 32 := cs bus device function 0x18#8

/-- `IsSingleFunctionDevice`. -/
def isSingleFunctionDevice (headerType : BitVec 8) : Bool := headerType &&& 0x80#8 = 0#8

/-! ## the fields of an address -/

/-- Widening past a mask that covers the number. -/
theorem setWidth_masked {w v n : Nat} (x : BitVec w) (mask : BitVec v) (fits : w ≤ v)
    (covered : ∀ i < w, mask.getLsbD i = true) :
    (x.setWidth v &&& mask).setWidth n = x.setWidth n := by
  apply BitVec.eq_of_getLsbD_eq
  intro i hi
  by_cases h : i < w
  · simp [covered i h, hi, Nat.lt_of_lt_of_le h fits]
  · simp [BitVec.getLsbD_of_ge x i (Nat.le_of_not_lt h)]

/-- A number is read back from where it is placed. -/
theorem extractLsb_placed {w n : Nat} (x : BitVec w) {s : Nat} (fits : s + w ≤ n) :
    (x.setWidth n <<< s).extractLsb' s w = x := by
  apply BitVec.eq_of_getLsbD_eq
  intro i hi
  simp [hi, show s + i < n by omega]

/-- It leaves the bits elsewhere clear. -/
theorem extractLsb_placed_of_disjoint {w n : Nat} (x : BitVec w) {s k len : Nat}
    (disjoint : s + w ≤ k ∨ k + len ≤ s) :
    (x.setWidth n <<< s).extractLsb' k len = .ofNat len 0 := by
  apply BitVec.eq_of_getLsbD_eq
  intro i hi
  rcases disjoint with below | above
  · simp [BitVec.getLsbD_of_ge x (k + i - s) (by omega)]
  · simp [show k + i < s by omega]

section

variable (bus : BitVec 8) (device : BitVec 5) (function : BitVec 3)

/-- Numbers and register can be read off an ECAM address. -/
theorem makeEcamAddress_fields (regAddr : BitVec 8) :
    let adrs := makeEcamAddress EcamBaseAddress bus (device.setWidth 8) (function.setWidth 8)
      (regAddr.setWidth 16)
    adrs.extractLsb' 20 8 = bus ∧ adrs.extractLsb' 15 5 = device ∧
      adrs.extractLsb' 12 3 = function ∧ adrs.extractLsb' 0 8 = regAddr := by
  have hbus : bus &&& 0xff#8 = bus := BitVec.and_allOnes
  have hbase : EcamBaseAddress = (0x401#36).setWidth 64 <<< 28 := by decide
  have hadrs : makeEcamAddress EcamBaseAddress bus (device.setWidth 8) (function.setWidth 8)
      (regAddr.setWidth 16) = (0x401#36).setWidth 64 <<< 28 ||| bus.setWidth 64 <<< 20 |||
        device.setWidth 64 <<< 15 ||| function.setWidth 64 <<< 12 |||
        regAddr.setWidth 64 <<< 0 := by
    rw [makeEcamAddress, hbus, hbase, setWidth_masked device _ (by decide) (by decide),
      setWidth_masked function _ (by decide) (by decide),
      setWidth_masked regAddr _ (by decide) (by decide), BitVec.shiftLeft_zero]
  rw [hadrs]
  refine ⟨?_, ?_, ?_, ?_⟩ <;>
    simp (disch := omega) only [BitVec.extractLsb'_or, extractLsb_placed,
      extractLsb_placed_of_disjoint, BitVec.or_zero, BitVec.zero_or]

/-- Numbers and register can be read off the address port. -/
theorem makeAddress_fields (reg : BitVec 6) :
    let adrs := makeAddress bus (device.setWidth 8) (function.setWidth 8) (reg.setWidth 8 <<< 2)
    adrs.extractLsb' 16 8 = bus ∧ adrs.extractLsb' 11 5 = device ∧
      adrs.extractLsb' 8 3 = function ∧ adrs.extractLsb' 2 6 = reg := by
  have henabled : 1#32 <<< 31 = (1#1).setWidth 32 <<< 31 := by decide
  have hreg : (reg.setWidth 8 <<< 2 &&& 0xfc#8).setWidth 32 = reg.setWidth 32 <<< 2 := by
    decide +revert
  have hadrs : makeAddress bus (device.setWidth 8) (function.setWidth 8) (reg.setWidth 8 <<< 2) =
      (1#1).setWidth 32 <<< 31 ||| bus.setWidth 32 <<< 16 ||| device.setWidth 32 <<< 11 |||
        function.setWidth 32 <<< 8 ||| reg.setWidth 32 <<< 2 := by
    rw [makeAddress, henabled, hreg, BitVec.setWidth_setWidth (by decide),
      BitVec.setWidth_setWidth (by decide)]
  rw [hadrs]
  refine ⟨?_, ?_, ?_, ?_⟩ <;>
    simp (disch := omega) only [BitVec.extractLsb'_or, extractLsb_placed,
      extractLsb_placed_of_disjoint, BitVec.or_zero, BitVec.zero_or]

/-- Memory-mapped configuration space can hold anything. -/
theorem exists_ecam (cs : ConfigSpace) : ∃ ioRead32, ∀ bus (device : BitVec 5)
    (function : BitVec 3) regAddr,
      ecam ioRead32 bus (device.setWidth 8) (function.setWidth 8) regAddr =
        cs bus (device.setWidth 8) (function.setWidth 8) regAddr := by
  refine ⟨fun adrs => cs (adrs.extractLsb' 20 8) ((adrs.extractLsb' 15 5).setWidth 8)
    ((adrs.extractLsb' 12 3).setWidth 8) (adrs.extractLsb' 0 8), ?_⟩
  intro bus device function regAddr
  obtain ⟨hbus, hdevice, hfunction, hreg⟩ := makeEcamAddress_fields bus device function regAddr
  simp only [ecam, hbus, hdevice, hfunction, hreg]

/-- Configuration space behind the ports can hold anything, word by word. -/
theorem exists_ioPort (cs : ConfigSpace) : ∃ ioIn32, ∀ bus (device : BitVec 5)
    (function : BitVec 3) (reg : BitVec 6),
      ioPort ioIn32 bus (device.setWidth 8) (function.setWidth 8) (reg.setWidth 8 <<< 2) =
        cs bus (device.setWidth 8) (function.setWidth 8) (reg.setWidth 8 <<< 2) := by
  refine ⟨fun adrs => cs (adrs.extractLsb' 16 8) ((adrs.extractLsb' 11 5).setWidth 8)
    ((adrs.extractLsb' 8 3).setWidth 8) ((adrs.extractLsb' 2 6).setWidth 8 <<< 2), ?_⟩
  intro bus device function reg
  obtain ⟨hbus, hdevice, hfunction, hreg⟩ := makeAddress_fields bus device function reg
  simp only [ioPort, hbus, hdevice, hfunction, hreg]

end

end MikanOs.Pci
