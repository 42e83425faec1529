import Mathlib.Algebra.Group.Nat.Defs

/-!
# MikanOs.Lib.ByteMemory

The memory of a 64-bit machine, byte by byte, and what `memmove` and `memset`
make of it.  Addresses are machine words, so that a block may run over the
end of the address space; `contains_iff` says where it lies when it does not.

`view m p` is what a pointer `p` points to, by offset: whatever is read
through a pointer is a function of the view.
-/

/-- The byte at each address. -/
abbrev ByteMemory := BitVec 64 → BitVec 8

namespace ByteMemory

/-- `length` bytes from `start` on. -/
structure Block where
  start : BitVec 64
  length : BitVec 64

namespace Block

/-- An address within the block. -/
def Contains (b : Block) (a : BitVec 64) : Prop := a - b.start < b.length

instance (b : Block) (a : BitVec 64) : Decidable (b.Contains a) :=
  inferInstanceAs (Decidable (_ < _))

/-- The block does not run over the end of the address space. -/
def Fits (b : Block) : Prop := b.start.toNat + b.length.toNat ≤ 2 ^ 64

/-- A block that fits is an interval. -/
theorem contains_iff {b : Block} (h : b.Fits) {a : BitVec 64} :
    b.Contains a ↔ b.start.toNat ≤ a.toNat ∧ a.toNat < b.start.toNat + b.length.toNat := by
  unfold Fits at h
  unfold Contains
  rw [BitVec.lt_def, BitVec.toNat_sub]
  omega

/-- The addresses of a block are `start`, `start + 1` and so on. -/
theorem contains_add {b : Block} {k : Nat} (h : k < b.length.toNat) :
    b.Contains (b.start + BitVec.ofNat 64 k) := by
  unfold Contains
  rw [BitVec.add_comm, BitVec.add_sub_cancel, BitVec.lt_def, BitVec.toNat_ofNat]
  omega

end Block

/-- What `p` points to. -/
def view (m : ByteMemory) (p : BitVec 64) (off : Nat) : BitVec 8 := m (p + BitVec.ofNat 64 off)

/-- Copy `length` bytes from `source` to `destination`, which may overlap. -/
def copyMem (m : ByteMemory) (destination source length : BitVec 64) : ByteMemory := fun a =>
  if a - destination < length then m (source + (a - destination)) else m a

/-- Set `length` bytes to `value`. -/
def setMem (m : ByteMemory) (buffer length : BitVec 64) (value : BitVec 8) : ByteMemory := fun a =>
  if a - buffer < length then value else m a

variable {m : ByteMemory} {a : BitVec 64}

theorem copyMem_of_contains {b : Block} (h : b.Contains a) (source : BitVec 64) :
    m.copyMem b.start source b.length a = m (source + (a - b.start)) := if_pos h

theorem copyMem_of_not_contains {b : Block} (h : ¬ b.Contains a) (source : BitVec 64) :
    m.copyMem b.start source b.length a = m a := if_neg h

theorem setMem_of_contains {b : Block} (h : b.Contains a) (value : BitVec 8) :
    m.setMem b.start b.length value a = value := if_pos h

theorem setMem_of_not_contains {b : Block} (h : ¬ b.Contains a) (value : BitVec 8) :
    m.setMem b.start b.length value a = m a := if_neg h

/-- A view is a view of the bytes further on. -/
theorem view_add (m : ByteMemory) (p : BitVec 64) (i j : Nat) :
    m.view (p + BitVec.ofNat 64 i) j = m.view p (i + j) := by
  unfold view
  rw [BitVec.add_assoc, BitVec.ofNat_add]

end ByteMemory
