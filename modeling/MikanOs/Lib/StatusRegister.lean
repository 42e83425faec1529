/-!
# MikanOs.Lib.StatusRegister

Hardware registers whose bits answer a write in different ways: some take
what is written, some are cleared by a 1, some are set by a 1, and the rest
take no notice.  `RegisterBits` says which are which, for a word of any
width.

* `write_eq_of_kept` — a write that gives back the plain bits as they are
  clears and sets what it has a 1 for, and does nothing else;
* `and_or_and_of_disjoint` — a value read, masked and completed with constant
  bits has in a set of bits outside the mask the constants alone.

This module depends only on the Lean 4 core library.
-/

/-- How the bits of a register answer a write. -/
structure RegisterBits (w : Nat) where
  /-- take what is written -/
  plain : BitVec w
  /-- cleared by writing 1 -/
  clearedByOne : BitVec w
  /-- set by writing 1 -/
  setByOne : BitVec w

namespace RegisterBits

/-- The content `c` after `v` has been written. -/
def write (b : RegisterBits w) (c v : BitVec w) : BitVec w :=
  (v &&& b.plain) ||| (c &&& ~~~(b.plain ||| (v &&& b.clearedByOne))) ||| (v &&& b.setByOne)

/-- A write that leaves the plain bits as they are. -/
theorem write_eq_of_kept (b : RegisterBits w) {c v : BitVec w}
    (h : v &&& b.plain = c &&& b.plain) (hdisjoint : b.plain &&& b.clearedByOne = 0#w) :
    b.write c v = (c &&& ~~~(v &&& b.clearedByOne)) ||| (v &&& b.setByOne) := by
  unfold write
  rw [h]
  apply BitVec.eq_of_getLsbD_eq
  intro i hi
  have hbit := congrArg (fun x => x.getLsbD i) hdisjoint
  revert hbit
  simp only [BitVec.getLsbD_and, BitVec.getLsbD_or, BitVec.getLsbD_not, BitVec.getLsbD_zero,
    hi, decide_true, Bool.true_and]
  cases b.plain.getLsbD i <;> cases b.clearedByOne.getLsbD i <;> cases c.getLsbD i <;> simp

theorem and_or_and_of_disjoint {m s : BitVec w} (h : m &&& s = 0#w) (r k : BitVec w) :
    ((r &&& m) ||| k) &&& s = k &&& s := by
  have hmask : r &&& m &&& s = 0#w := by rw [BitVec.and_assoc, h, BitVec.and_zero]
  rw [BitVec.and_or_distrib_right, hmask, BitVec.zero_or]

end RegisterBits
