import Mathlib.Tactic.IntervalCases
import MikanOs.Loader.KernelImage

/-!
# MikanOs.Loader.EntryPoint

Where the boot loader starts the kernel (`UefiMain` of
`MikanLoaderPkg/Main.c`).  It reads the address from the memory the kernel has
been loaded to, at the offset that `e_entry` has in the file header, and
whether that is the file header depends on what the file says is to be loaded
there.

`entryAddr_eq_iff` says for which files the two addresses are the same.
-/

namespace MikanOs.Loader

open ByteMemory

/-! ## the code -/

/-- `e_entry` of the file at `ehdr`. -/
def eEntry (m : ByteMemory) (ehdr : BitVec 64) : BitVec 64 := uint64 (m.view ehdr) 24

/-- `entry_addr`, read after `CopyLoadSegments`. -/
def entryAddr (m : ByteMemory) (ehdr : BitVec 64) : BitVec 64 :=
  let kernelFirstAddr := (calcLoadAddressRange m ehdr).1
  let s := copyLoadSegments ehdr ⟨m, []⟩
  uint64 (s.mem.view (kernelFirstAddr + 24#64)) 0

/-! ## what is to be loaded -/

/-- The byte that an address has once the kernel is loaded: that of the
segment it is in, or what has been there before. -/
def byteToLoad (m : ByteMemory) (ehdr a : BitVec 64) : BitVec 8 :=
  match (segments m ehdr).find? fun p => p.block.Contains a with
  | some p => p.image (m.view ehdr) (a - p.pVaddr).toNat
  | none => m a

/-- The eight bytes 24 bytes on from an address are to be those of `e_entry`. -/
def LoadsEntry (m : ByteMemory) (ehdr first : BitVec 64) : Prop :=
  ∀ j < 8, byteToLoad m ehdr (first + BitVec.ofNat 64 (24 + j)) = m.view ehdr (24 + j)

/-- No segment has a lower address. -/
def Lowest (m : ByteMemory) (ehdr : BitVec 64) (p : Elf64Phdr) : Prop :=
  p ∈ segments m ehdr ∧ ∀ q ∈ segments m ehdr, p.pVaddr.toNat ≤ q.pVaddr.toNat

/-! ## words -/

/-- Words are equal when their halves are. -/
theorem append_inj_iff {a b : BitVec w} {c d : BitVec v} : a ++ c = b ++ d ↔ a = b ∧ c = d := by
  constructor
  · intro h
    have hupper := congrArg (BitVec.extractLsb' v w) h
    have hlower := congrArg (BitVec.setWidth v) h
    rw [BitVec.extractLsb'_append_eq_left, BitVec.extractLsb'_append_eq_left] at hupper
    rw [BitVec.setWidth_append_eq_right, BitVec.setWidth_append_eq_right] at hlower
    exact ⟨hupper, hlower⟩
  · rintro ⟨rfl, rfl⟩
    rfl

section

variable {b b' : Nat → BitVec 8} {i i' : Nat}

theorem uint16_eq_iff :
    uint16 b i = uint16 b' i' ↔ b (i + 1) = b' (i' + 1) ∧ b i = b' i' := append_inj_iff

theorem uint32_eq_iff : uint32 b i = uint32 b' i' ↔
    uint16 b (i + 2) = uint16 b' (i' + 2) ∧ uint16 b i = uint16 b' i' := append_inj_iff

/-- Integers of eight bytes are equal when the bytes are. -/
theorem uint64_eq_iff : uint64 b i = uint64 b' i' ↔ ∀ j < 8, b (i + j) = b' (i' + j) := by
  have hhalves : uint64 b i = uint64 b' i' ↔
      uint32 b (i + 4) = uint32 b' (i' + 4) ∧ uint32 b i = uint32 b' i' := append_inj_iff
  simp only [hhalves, uint32_eq_iff, uint16_eq_iff, Nat.add_assoc, Nat.reduceAdd]
  constructor
  · rintro ⟨⟨⟨h7, h6⟩, h5, h4⟩, ⟨h3, h2⟩, h1, h0⟩ j hj
    interval_cases j <;> assumption
  · intro h
    exact ⟨⟨⟨h 7 (by decide), h 6 (by decide)⟩, h 5 (by decide), h 4 (by decide)⟩,
      ⟨h 3 (by decide), h 2 (by decide)⟩, h 1 (by decide), h 0 (by decide)⟩

end

/-! ## the memory -/

variable {m : ByteMemory} {ehdr : BitVec 64} {size : Nat} {p : Elf64Phdr} {s : Machine}

/-- All of the memory, once the kernel is loaded. -/
theorem Loaded.mem_eq (h : Loaded m ehdr (segments m ehdr) s) (a : BitVec 64) :
    s.mem a = byteToLoad m ehdr a := by
  unfold byteToLoad
  cases hfind : (segments m ehdr).find? fun p => p.block.Contains a with
  | none =>
      rw [List.find?_eq_none] at hfind
      exact h.frame a fun p hp hcontains => hfind p hp (decide_eq_true hcontains)
  | some p =>
      have hcontains : p.block.Contains a := 
        of_decide_eq_true (List.find?_some (p := fun p : Elf64Phdr => p.block.Contains a) hfind)
      have himage := h.image p (List.mem_of_find?_eq_some hfind) (a - p.pVaddr).toNat
        (BitVec.lt_def.mp hcontains)
      rw [BitVec.ofNat_toNat, BitVec.setWidth_eq, BitVec.add_comm, BitVec.sub_add_cancel] at himage
      exact himage

/-- The first address is that of some segment, if there is one. -/
theorem foldl_extend_fst (ps : List Elf64Phdr) (range : BitVec 64 × BitVec 64) :
    (ps.foldl extend range).1 = range.1 ∨ ∃ q ∈ ps, (ps.foldl extend range).1 = q.pVaddr := by
  induction ps generalizing range with
  | nil => exact .inl rfl
  | cons q ps ih =>
      rcases ih (extend range q) with hfirst | ⟨r, hr, heq⟩
      · have hmin : (extend range q).1 = range.1 ∨ (extend range q).1 = q.pVaddr := by
          unfold extend MIN
          split
          · exact .inl rfl
          · exact .inr rfl
        exact hmin.imp hfirst.trans fun hq => ⟨q, List.mem_cons_self, hfirst.trans hq⟩
      · exact .inr ⟨r, List.mem_cons_of_mem q hr, heq⟩

/-- The first address is that of the lowest segment. -/
theorem Lowest.calcLoadAddressRange_fst (h : Lowest m ehdr p) (hl : Loadable m ehdr size) :
    (calcLoadAddressRange m ehdr).1 = p.pVaddr := by
  obtain ⟨hp, hlowest⟩ := h
  have hspans := spans_foldl (fun q hq => by have := hl.noWrap_page q hq; omega)
    (BitVec.allOnes 64, 0#64) p hp
  rw [calcLoadAddressRange_eq]
  apply BitVec.eq_of_toNat_eq
  refine Nat.le_antisymm hspans.1 ?_
  rcases foldl_extend_fst (segments m ehdr) (BitVec.allOnes 64, 0#64) with hnone | ⟨q, hq, heq⟩
  · rw [hnone, BitVec.toNat_allOnes]
    have hlt := p.pVaddr.isLt
    omega
  · rw [heq]
    exact hlowest q hq

/-! ## the entry point -/

/-- **When the kernel starts at its entry point.**  It does if and only if the
eight bytes that are to be loaded 24 bytes after the start of the lowest
segment are those of `e_entry`. -/
theorem entryAddr_eq_iff (hl : Loadable m ehdr size)
    (hbuf : ∀ k < size, ¬ Allocated (calcLoadAddressRange m ehdr) (ehdr + BitVec.ofNat 64 k))
    (hp : Lowest m ehdr p) :
    entryAddr m ehdr = eEntry m ehdr ↔ LoadsEntry m ehdr p.pVaddr := by
  have hbyte : ∀ j, (copyLoadSegments ehdr ⟨m, []⟩).mem.view
      ((calcLoadAddressRange m ehdr).1 + 24#64) (0 + j) =
        byteToLoad m ehdr (p.pVaddr + BitVec.ofNat 64 (24 + j)) := by
    intro j
    rw [hp.calcLoadAddressRange_fst hl, view_add, Nat.zero_add]
    exact (hl.loaded hbuf).mem_eq _
  unfold entryAddr eEntry LoadsEntry
  rw [uint64_eq_iff]
  simp only [hbyte]

/-- A kernel whose lowest segment begins with the file header. -/
theorem entryAddr_of_header (hl : Loadable m ehdr size)
    (hbuf : ∀ k < size, ¬ Allocated (calcLoadAddressRange m ehdr) (ehdr + BitVec.ofNat 64 k))
    (hp : Lowest m ehdr p) (hoffset : p.pOffset = 0#64) (hfilesz : 32 ≤ p.pFilesz.toNat) :
    entryAddr m ehdr = eEntry m ehdr := by
  refine (entryAddr_eq_iff hl hbuf hp).mpr fun j hj => ?_
  have hsz := BitVec.le_def.mp (hl.filesz_le p hp.1)
  rw [← (hl.loaded hbuf).mem_eq, (hl.loaded hbuf).image p hp.1 _ (by omega), Elf64Phdr.image,
    if_pos (by omega), hoffset, BitVec.toNat_zero, Nat.zero_add]

/-- A file of 160 bytes: the file header, one program header and 40 bytes of
code.  What is loaded, from 2 MiB on, is the file from `offset` on, and the
entry point is the first byte of the code. -/
def kernelFile (offset : BitVec 8) (k : Nat) : BitVec 8 :=
  if k = 24 then 120#8 - offset else if k = 26 then 0x20#8
  else if k = 32 then 64#8 else if k = 56 then 1#8
  else if k = 64 then 1#8 else if k = 72 then offset else if k = 82 then 0x20#8
  else if k = 96 then 160#8 - offset else if k = 104 then 160#8 - offset
  else if 120 ≤ k ∧ k < 160 then 0x90#8 else 0#8

/-- The file in memory from 1 MiB on. -/
def kernelMemory (offset : BitVec 8) : ByteMemory := fun a => kernelFile offset (a.toNat - 0x100000)

/-- Its segment. -/
def kernelSegment (offset : BitVec 8) : Elf64Phdr where
  pType := PT_LOAD
  pOffset := offset.setWidth 64
  pVaddr := 0x200000#64
  pFilesz := (160#8 - offset).setWidth 64
  pMemsz := (160#8 - offset).setWidth 64

/-- With the headers or without. -/
theorem segments_kernel : ∀ offset ∈ [0#8, 120#8],
    segments (kernelMemory offset) 0x100000#64 = [kernelSegment offset] := by
  decide +kernel

theorem loadable_kernel : ∀ offset ∈ [0#8, 120#8],
    Loadable (kernelMemory offset) 0x100000#64 160 := by
  intro offset hoffset
  have hsegments := segments_kernel offset hoffset
  have hfields : (kernelSegment offset).pFilesz ≤ (kernelSegment offset).pMemsz ∧
      (kernelSegment offset).pOffset.toNat + (kernelSegment offset).pFilesz.toNat ≤ 160 ∧
      roundUp 4096 ((kernelSegment offset).pVaddr.toNat + (kernelSegment offset).pMemsz.toNat) <
        2 ^ 64 := by
    revert offset
    decide +kernel
  refine ⟨by decide, ?_, ?_, ?_, ?_, ?_⟩
  · revert offset
    decide +kernel
  all_goals rw [hsegments]
  · exact List.forall_mem_singleton.mpr hfields.1
  · exact List.forall_mem_singleton.mpr hfields.2.1
  · exact List.forall_mem_singleton.mpr hfields.2.2
  · exact List.pairwise_singleton _ _

/-- The file does not lie where the kernel is loaded. -/
theorem not_allocated_kernel : ∀ offset ∈ [0#8, 120#8], ∀ k < 160,
    ¬ Allocated (calcLoadAddressRange (kernelMemory offset) 0x100000#64)
      (0x100000#64 + BitVec.ofNat 64 k) := by
  intro offset hoffset k hk
  have hfirst : (calcLoadAddressRange (kernelMemory offset) 0x100000#64).1 = 0x200000#64 := by
    revert offset
    decide +kernel
  unfold Allocated
  rw [hfirst, BitVec.toNat_add, BitVec.toNat_ofNat, BitVec.toNat_ofNat, BitVec.toNat_ofNat]
  omega

theorem lowest_kernel {offset : BitVec 8} (h : offset ∈ [0#8, 120#8]) :
    Lowest (kernelMemory offset) 0x100000#64 (kernelSegment offset) := by
  unfold Lowest
  rw [segments_kernel offset h]
  exact ⟨List.mem_singleton_self _, List.forall_mem_singleton.mpr (Nat.le_refl _)⟩

/-- The kernel with its headers. -/
theorem entryAddr_eq_iff_kernel :
    entryAddr (kernelMemory 0#8) 0x100000#64 = eEntry (kernelMemory 0#8) 0x100000#64 ↔
      LoadsEntry (kernelMemory 0#8) 0x100000#64 (kernelSegment 0#8).pVaddr :=
  entryAddr_eq_iff (loadable_kernel 0#8 (by decide)) (not_allocated_kernel 0#8 (by decide))
    (lowest_kernel (by decide))

example : entryAddr (kernelMemory 0#8) 0x100000#64 = 0x200078#64 := by decide +kernel

/-- The kernel without them is started at what its code happens to be. -/
theorem entryAddr_codeOnly :
    Loadable (kernelMemory 120#8) 0x100000#64 160 ∧
      (∀ k < 160, ¬ Allocated (calcLoadAddressRange (kernelMemory 120#8) 0x100000#64)
        (0x100000#64 + BitVec.ofNat 64 k)) ∧
      eEntry (kernelMemory 120#8) 0x100000#64 = 0x200000#64 ∧
      entryAddr (kernelMemory 120#8) 0x100000#64 = 0x9090909090909090#64 :=
  ⟨loadable_kernel 120#8 (by decide), not_allocated_kernel 120#8 (by decide), by decide +kernel,
    by decide +kernel⟩

end MikanOs.Loader
