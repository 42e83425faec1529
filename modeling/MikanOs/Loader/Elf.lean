import MikanOs.Lib.ByteMemory

/-!
# MikanOs.Loader.Elf

ELF64 headers (`elf.hpp`) as the loader reads them: little-endian fields of
the file, which is in memory from the file header on.  Only the fields the
loader reads are listed.
-/

namespace MikanOs.Loader

open ByteMemory

/-! ## integers -/

def uint16 (b : Nat → BitVec 8) (off : Nat) : BitVec 16 := b (off + 1) ++ b off

def uint32 (b : Nat → BitVec 8) (off : Nat) : BitVec 32 := uint16 b (off + 2) ++ uint16 b off

def uint64 (b : Nat → BitVec 8) (off : Nat) : BitVec 64 := uint32 b (off + 4) ++ uint32 b off

/-! ## headers -/

/-- `Elf64_Ehdr`. -/
structure Elf64Ehdr where
  ePhoff : BitVec 64
  ePhnum : BitVec 16
  deriving DecidableEq

/-- `Elf64_Phdr`. -/
structure Elf64Phdr where
  pType : BitVec 32
  pOffset : BitVec 64
  pVaddr : BitVec 64
  pFilesz : BitVec 64
  pMemsz : BitVec 64
  deriving DecidableEq

/-- `PT_LOAD`. -/
def PT_LOAD : BitVec 32 := 1#32

/-- `sizeof(Elf64_Ehdr)`. -/
def sizeofEhdr : Nat := 64

/-- `sizeof(Elf64_Phdr)`. -/
def sizeofPhdr : Nat := 56

/-- The file header in the bytes it is made of. -/
def Elf64Ehdr.ofBytes (b : Nat → BitVec 8) : Elf64Ehdr where
  ePhoff := uint64 b 32
  ePhnum := uint16 b 56

/-- A program header in the bytes it is made of. -/
def Elf64Phdr.ofBytes (b : Nat → BitVec 8) : Elf64Phdr where
  pType := uint32 b 0
  pOffset := uint64 b 8
  pVaddr := uint64 b 16
  pFilesz := uint64 b 32
  pMemsz := uint64 b 40

/-- `*ehdr`. -/
def ehdrAt (m : ByteMemory) (ehdr : BitVec 64) : Elf64Ehdr := .ofBytes (m.view ehdr)

/-- The address of `phdr[i]`, where `phdr` is the program header table of the
file at `ehdr`. -/
def phdrPtr (ehdr ePhoff : BitVec 64) (i : Nat) : BitVec 64 :=
  ehdr + ePhoff + BitVec.ofNat 64 (sizeofPhdr * i)

/-- `*phdr`. -/
def phdrAt (m : ByteMemory) (phdr : BitVec 64) : Elf64Phdr := .ofBytes (m.view phdr)

/-! ## what a header depends on -/

theorem Elf64Ehdr.ofBytes_congr {b b' : Nat → BitVec 8} (h : ∀ k < sizeofEhdr, b k = b' k) :
    ofBytes b = ofBytes b' := by
  unfold sizeofEhdr at h
  simp [ofBytes, uint64, uint32, uint16, h]

theorem Elf64Phdr.ofBytes_congr {b b' : Nat → BitVec 8} (h : ∀ k < sizeofPhdr, b k = b' k) :
    ofBytes b = ofBytes b' := by
  unfold sizeofPhdr at h
  simp [ofBytes, uint64, uint32, uint16, h]

/-! ## segments -/

namespace Elf64Phdr

/-- The memory a segment takes up. -/
def block (p : Elf64Phdr) : Block := ⟨p.pVaddr, p.pMemsz⟩

/-- The part of it that comes from the file. -/
def fileBlock (p : Elf64Phdr) : Block := ⟨p.pVaddr, p.pFilesz⟩

/-- The rest of it. -/
def zeroBlock (p : Elf64Phdr) : Block := ⟨p.pVaddr + p.pFilesz, p.pMemsz - p.pFilesz⟩

/-- What a segment says the byte at an offset is: what the file has there,
and zero after that. -/
def image (p : Elf64Phdr) (file : Nat → BitVec 8) (k : Nat) : BitVec 8 :=
  if k < p.pFilesz.toNat then file (p.pOffset.toNat + k) else 0#8

theorem block_contains_of_fileBlock {p : Elf64Phdr} (h : p.pFilesz ≤ p.pMemsz) {a : BitVec 64}
    (ha : p.fileBlock.Contains a) : p.block.Contains a := by
  unfold Block.Contains fileBlock at ha
  unfold Block.Contains block
  rw [BitVec.lt_def] at ha ⊢
  exact Nat.lt_of_lt_of_le ha (BitVec.le_def.mp h)

/-- The two parts make up the block. -/
theorem zeroBlock_contains_iff {p : Elf64Phdr} (h : p.pFilesz ≤ p.pMemsz) {a : BitVec 64} :
    p.zeroBlock.Contains a ↔ p.block.Contains a ∧ ¬ p.fileBlock.Contains a := by
  unfold Block.Contains zeroBlock block fileBlock
  rw [← BitVec.sub_sub]
  generalize a - p.pVaddr = d
  bv_omega

end Elf64Phdr

/-- The `PT_LOAD` headers among the first `n` of the file at `ehdr`. -/
def segmentsUpTo (m : ByteMemory) (ehdr : BitVec 64) (n : Nat) : List Elf64Phdr :=
  ((List.range n).map fun i => phdrAt m (phdrPtr ehdr (ehdrAt m ehdr).ePhoff i)).filter
    fun p => p.pType = PT_LOAD

/-- The `PT_LOAD` headers of the file at `ehdr`. -/
def segments (m : ByteMemory) (ehdr : BitVec 64) : List Elf64Phdr :=
  segmentsUpTo m ehdr (ehdrAt m ehdr).ePhnum.toNat

theorem segmentsUpTo_succ (m : ByteMemory) (ehdr : BitVec 64) (n : Nat) :
    segmentsUpTo m ehdr (n + 1) = segmentsUpTo m ehdr n ++
      (if (phdrAt m (phdrPtr ehdr (ehdrAt m ehdr).ePhoff n)).pType = PT_LOAD then
        [phdrAt m (phdrPtr ehdr (ehdrAt m ehdr).ePhoff n)] else []) := by
  unfold segmentsUpTo
  rw [List.range_succ, List.map_append, List.filter_append, List.map_singleton, List.filter_cons,
    List.filter_nil]
  simp only [decide_eq_true_eq]

/-- The same headers are the same segments. -/
theorem segmentsUpTo_congr {m m' : ByteMemory} {ehdr ehdr' : BitVec 64} {n : Nat}
    (h : ∀ i < n, phdrAt m (phdrPtr ehdr (ehdrAt m ehdr).ePhoff i) =
      phdrAt m' (phdrPtr ehdr' (ehdrAt m' ehdr').ePhoff i)) :
    segmentsUpTo m ehdr n = segmentsUpTo m' ehdr' n := by
  unfold segmentsUpTo
  rw [List.map_congr_left fun i hi => h i (List.mem_range.mp hi)]

/-- The segments up to some header are segments. -/
theorem segmentsUpTo_sublist (m : ByteMemory) (ehdr : BitVec 64) {n : Nat}
    (h : n ≤ (ehdrAt m ehdr).ePhnum.toNat) : (segmentsUpTo m ehdr n).Sublist (segments m ehdr) :=
  ((List.range_sublist.mpr h).map _).filter _

end MikanOs.Loader
