import MikanOs.Lib.RoundUp
import MikanOs.Loader.Elf

/-!
# MikanOs.Loader.KernelImage

How the boot loader puts the kernel into memory (`MikanLoaderPkg/Main.c`):
one loop over the program headers finds the range of addresses to allocate,
another copies the segments.

The second loop reads the headers while it writes memory, and the model does
too.  `writes` is not part of the program: it records which blocks have been
written.
-/

namespace MikanOs.Loader

open ByteMemory

/-! ## the code -/

/-- `MIN`. -/
def MIN (a b : BitVec 64) : BitVec 64 := if a < b then a else b

/-- `MAX`. -/
def MAX (a b : BitVec 64) : BitVec 64 := if b < a then a else b

/-- `*first` and `*last` with one more segment. -/
def extend (range : BitVec 64 × BitVec 64) (p : Elf64Phdr) : BitVec 64 × BitVec 64 :=
  (MIN range.1 p.pVaddr, MAX range.2 (p.pVaddr + p.pMemsz))

/-- `CalcLoadAddressRange`: `*first` and `*last`. -/
def calcLoadAddressRange (m : ByteMemory) (ehdr : BitVec 64) : BitVec 64 × BitVec 64 :=
  let e := ehdrAt m ehdr
  (List.range e.ePhnum.toNat).foldl (fun range i =>
    let p := phdrAt m (phdrPtr ehdr e.ePhoff i)
    if p.pType ≠ PT_LOAD then range else extend range p) (BitVec.allOnes 64, 0#64)

/-- Memory, and the blocks written so far. -/
structure Machine where
  mem : ByteMemory
  writes : List Block

/-- `CopyMem`. -/
def Machine.copyMem (s : Machine) (destination source length : BitVec 64) : Machine where
  mem := s.mem.copyMem destination source length
  writes := s.writes ++ [⟨destination, length⟩]

/-- `SetMem`. -/
def Machine.setMem (s : Machine) (buffer length : BitVec 64) (value : BitVec 8) : Machine where
  mem := s.mem.setMem buffer length value
  writes := s.writes ++ [⟨buffer, length⟩]

/-- The body of the loop of `CopyLoadSegments`. -/
def copySegment (ehdr phdr : BitVec 64) (s : Machine) : Machine :=
  if (phdrAt s.mem phdr).pType ≠ PT_LOAD then s
  else
    let p := phdrAt s.mem phdr
    let s := s.copyMem p.pVaddr (ehdr + p.pOffset) p.pFilesz
    let p := phdrAt s.mem phdr
    s.setMem (p.pVaddr + p.pFilesz) (p.pMemsz - p.pFilesz) 0#8

/-- The loop of `CopyLoadSegments` from header `i` on; `n` is more than the
values that are left for the 16-bit counter. -/
def copyFrom (ehdr ePhoff : BitVec 64) : Nat → Nat → Machine → Machine
  | 0, _, s => s
  | n + 1, i, s =>
      if i < (ehdrAt s.mem ehdr).ePhnum.toNat then
        copyFrom ehdr ePhoff n (i + 1) (copySegment ehdr (phdrPtr ehdr ePhoff i) s)
      else s

/-- `CopyLoadSegments`. -/
def copyLoadSegments (ehdr : BitVec 64) (s : Machine) : Machine :=
  copyFrom ehdr (ehdrAt s.mem ehdr).ePhoff (2 ^ 16) 0 s

/-- `num_pages`. -/
def numPages (range : BitVec 64 × BitVec 64) : BitVec 64 :=
  (range.2 - range.1 + 0xfff#64) / 0x1000#64

/-! ## the range -/

/-- The range is that of the segments. -/
theorem calcLoadAddressRange_eq (m : ByteMemory) (ehdr : BitVec 64) :
    calcLoadAddressRange m ehdr = (segments m ehdr).foldl extend (BitVec.allOnes 64, 0#64) := by
  unfold calcLoadAddressRange segments segmentsUpTo
  rw [List.foldl_filter, List.foldl_map]
  simp only [ne_eq, ite_not, decide_eq_true_eq]

/-- A range takes in a segment. -/
def Spans (range : BitVec 64 × BitVec 64) (p : Elf64Phdr) : Prop :=
  range.1.toNat ≤ p.pVaddr.toNat ∧ p.pVaddr.toNat + p.pMemsz.toNat ≤ range.2.toNat

theorem MIN_le (a b : BitVec 64) : (MIN a b).toNat ≤ a.toNat ∧ (MIN a b).toNat ≤ b.toNat := by
  unfold MIN
  split <;> rw [BitVec.lt_def] at * <;> omega

theorem le_MAX (a b : BitVec 64) : a.toNat ≤ (MAX a b).toNat ∧ b.toNat ≤ (MAX a b).toNat := by
  unfold MAX
  split <;> rw [BitVec.lt_def] at * <;> omega

theorem extend_fst_le (range : BitVec 64 × BitVec 64) (p : Elf64Phdr) :
    (extend range p).1.toNat ≤ range.1.toNat ∧ range.2.toNat ≤ (extend range p).2.toNat :=
  ⟨(MIN_le _ _).1, (le_MAX _ _).1⟩

/-- A segment that does not wrap lies in the range it has been added to. -/
theorem spans_extend {p : Elf64Phdr} (h : p.pVaddr.toNat + p.pMemsz.toNat < 2 ^ 64)
    (range : BitVec 64 × BitVec 64) : Spans (extend range p) p := by
  refine ⟨(MIN_le _ _).2, ?_⟩
  have hend := (le_MAX range.2 (p.pVaddr + p.pMemsz)).2
  rw [BitVec.toNat_add, Nat.mod_eq_of_lt h] at hend
  exact hend

theorem Spans.extend {range : BitVec 64 × BitVec 64} {p : Elf64Phdr} (h : Spans range p)
    (q : Elf64Phdr) : Spans (extend range q) p := by
  obtain ⟨hfirst, hlast⟩ := h
  have hle := extend_fst_le range q
  exact ⟨Nat.le_trans hle.1 hfirst, Nat.le_trans hlast hle.2⟩

theorem Spans.foldl {range : BitVec 64 × BitVec 64} {p : Elf64Phdr} (h : Spans range p)
    (ps : List Elf64Phdr) : Spans (ps.foldl Loader.extend range) p := by
  induction ps generalizing range with
  | nil => exact h
  | cons q ps ih => exact ih (h.extend q)

/-- The range of some segments spans each of them. -/
theorem spans_foldl {ps : List Elf64Phdr} (h : ∀ p ∈ ps, p.pVaddr.toNat + p.pMemsz.toNat < 2 ^ 64)
    (range : BitVec 64 × BitVec 64) : ∀ p ∈ ps, Spans (ps.foldl extend range) p := by
  induction ps generalizing range with
  | nil => intro p hp; contradiction
  | cons q ps ih =>
      intro p hp
      cases List.mem_cons.mp hp with
      | inl heq =>
          subst heq
          exact (spans_extend (h p List.mem_cons_self) range).foldl ps
      | inr hmem => exact ih (fun p hp => h p (List.mem_cons_of_mem q hp)) _ p hmem

/-! ## what is loaded -/

/-- An ELF64 file of `size` bytes at `ehdr` that can be loaded. -/
structure Loadable (m : ByteMemory) (ehdr : BitVec 64) (size : Nat) : Prop where
  header : sizeofEhdr ≤ size
  table : (ehdrAt m ehdr).ePhoff.toNat + sizeofPhdr * (ehdrAt m ehdr).ePhnum.toNat ≤ size
  filesz_le : ∀ p ∈ segments m ehdr, p.pFilesz ≤ p.pMemsz
  inFile : ∀ p ∈ segments m ehdr, p.pOffset.toNat + p.pFilesz.toNat ≤ size
  noWrap : ∀ p ∈ segments m ehdr, roundUp 4096 (p.pVaddr.toNat + p.pMemsz.toNat) < 2 ^ 64
  disjoint : (segments m ehdr).Pairwise fun p q => ∀ a, p.block.Contains a → ¬ q.block.Contains a

/-- The pages `AllocatePages` is asked for. -/
def Allocated (range : BitVec 64 × BitVec 64) (a : BitVec 64) : Prop :=
  range.1.toNat ≤ a.toNat ∧ a.toNat < range.1.toNat + 4096 * (numPages range).toNat

/-- The segments `ps` have been loaded, and nothing else has been written. -/
structure Loaded (m : ByteMemory) (ehdr : BitVec 64) (ps : List Elf64Phdr) (s : Machine) :
    Prop where
  frame : ∀ a, (∀ p ∈ ps, ¬ p.block.Contains a) → s.mem a = m a
  image : ∀ p ∈ ps, ∀ k < p.pMemsz.toNat,
    s.mem (p.pVaddr + BitVec.ofNat 64 k) = p.image (m.view ehdr) k
  writes : ∀ w ∈ s.writes, ∀ a, w.Contains a → ∃ p ∈ ps, p.block.Contains a

variable {m : ByteMemory} {ehdr : BitVec 64} {size : Nat} {ps : List Elf64Phdr} {s : Machine}

/-! ## the headers stay as they are -/

/-- What a file of `size` bytes at `ehdr` reads as. -/
def SameFile (m m' : ByteMemory) (ehdr : BitVec 64) (size : Nat) : Prop :=
  ∀ k < size, m'.view ehdr k = m.view ehdr k

theorem SameFile.ehdrAt_eq {m' : ByteMemory} (h : SameFile m m' ehdr size)
    (hsize : sizeofEhdr ≤ size) : ehdrAt m' ehdr = ehdrAt m ehdr :=
  Elf64Ehdr.ofBytes_congr fun k hk => h k (Nat.lt_of_lt_of_le hk hsize)

theorem phdrPtr_eq (ehdr ePhoff : BitVec 64) (i : Nat) :
    phdrPtr ehdr ePhoff i = ehdr + BitVec.ofNat 64 (ePhoff.toNat + sizeofPhdr * i) := by
  rw [phdrPtr, BitVec.ofNat_add, BitVec.ofNat_toNat, BitVec.setWidth_eq, BitVec.add_assoc]

theorem SameFile.phdrAt_eq {m' : ByteMemory} (h : SameFile m m' ehdr size) {ePhoff : BitVec 64}
    {i : Nat} (hsize : ePhoff.toNat + sizeofPhdr * (i + 1) ≤ size) :
    phdrAt m' (phdrPtr ehdr ePhoff i) = phdrAt m (phdrPtr ehdr ePhoff i) := by
  refine Elf64Phdr.ofBytes_congr fun k hk => ?_
  rw [phdrPtr_eq, view_add, view_add]
  exact h _ (by unfold sizeofPhdr at *; omega)

/-- Writing outside the file leaves it as it is. -/
theorem Loaded.sameFile (h : Loaded m ehdr ps s)
    (hout : ∀ k < size, ∀ p ∈ ps, ¬ p.block.Contains (ehdr + BitVec.ofNat 64 k)) :
    SameFile m s.mem ehdr size := fun k hk => h.frame _ (hout k hk)

/-! ## one segment -/

/-- A segment copied and filled up. -/
def Machine.load (s : Machine) (ehdr : BitVec 64) (p : Elf64Phdr) : Machine :=
  (s.copyMem p.fileBlock.start (ehdr + p.pOffset) p.fileBlock.length).setMem
    p.zeroBlock.start p.zeroBlock.length 0#8

/-- Outside its block a segment changes nothing. -/
theorem load_frame {p : Elf64Phdr} (hsz : p.pFilesz ≤ p.pMemsz) {a : BitVec 64}
    (ha : ¬ p.block.Contains a) : (s.load ehdr p).mem a = s.mem a := by
  have hfile : ¬ p.fileBlock.Contains a := fun h => ha (p.block_contains_of_fileBlock hsz h)
  have hzero : ¬ p.zeroBlock.Contains a := fun h => ha ((p.zeroBlock_contains_iff hsz).mp h).1
  exact (setMem_of_not_contains hzero _).trans (copyMem_of_not_contains hfile _)

/-- Inside its block a segment leaves its image. -/
theorem load_image {p : Elf64Phdr} (hsz : p.pFilesz ≤ p.pMemsz)
    (hfile : SameFile m s.mem ehdr size) (hin : p.pOffset.toNat + p.pFilesz.toNat ≤ size)
    {k : Nat} (hk : k < p.pMemsz.toNat) :
    (s.load ehdr p).mem (p.pVaddr + BitVec.ofNat 64 k) = p.image (m.view ehdr) k := by
  have hoff : p.pVaddr + BitVec.ofNat 64 k - p.pVaddr = BitVec.ofNat 64 k := by
    rw [BitVec.add_comm, BitVec.add_sub_cancel]
  have hblock : p.block.Contains (p.pVaddr + BitVec.ofNat 64 k) := Block.contains_add hk
  have hcontains : p.fileBlock.Contains (p.pVaddr + BitVec.ofNat 64 k) ↔ k < p.pFilesz.toNat := by
    unfold Block.Contains Elf64Phdr.fileBlock
    rw [hoff, BitVec.lt_def, BitVec.toNat_ofNat, Nat.mod_eq_of_lt (by omega)]
  unfold Elf64Phdr.image
  by_cases hlt : k < p.pFilesz.toNat
  · have hcopied := hcontains.mpr hlt
    have hzero : ¬ p.zeroBlock.Contains (p.pVaddr + BitVec.ofNat 64 k) :=
      fun h => ((p.zeroBlock_contains_iff hsz).mp h).2 hcopied
    have hsource : ehdr + p.pOffset + BitVec.ofNat 64 k =
        ehdr + BitVec.ofNat 64 (p.pOffset.toNat + k) := by
      rw [BitVec.ofNat_add, BitVec.ofNat_toNat, BitVec.setWidth_eq, BitVec.add_assoc]
    rw [if_pos hlt, ← hfile (p.pOffset.toNat + k) (by omega), view, ← hsource]
    refine (setMem_of_not_contains hzero _).trans ((copyMem_of_contains hcopied _).trans ?_)
    show s.mem (ehdr + p.pOffset + (p.pVaddr + BitVec.ofNat 64 k - p.pVaddr)) = _
    rw [hoff]
  · rw [if_neg hlt]
    have hzero : p.zeroBlock.Contains (p.pVaddr + BitVec.ofNat 64 k) :=
      (p.zeroBlock_contains_iff hsz).mpr ⟨hblock, fun h => hlt (hcontains.mp h)⟩
    exact setMem_of_contains hzero _

/-- One more segment, away from those loaded and from the file. -/
theorem Loaded.load (h : Loaded m ehdr ps s) (hfile : SameFile m s.mem ehdr size) {p : Elf64Phdr}
    (hsz : p.pFilesz ≤ p.pMemsz) (hin : p.pOffset.toNat + p.pFilesz.toNat ≤ size)
    (hdisj : ∀ q ∈ ps, ∀ a, q.block.Contains a → ¬ p.block.Contains a) :
    Loaded m ehdr (ps ++ [p]) (s.load ehdr p) where
  frame := by
    intro a ha
    rw [load_frame hsz (ha p (by simp))]
    exact h.frame a fun q hq => ha q (by simp [hq])
  image := by
    intro q hq k hk
    rw [List.mem_append, List.mem_singleton] at hq
    cases hq with
    | inl hold =>
        have hcontains : q.block.Contains (q.pVaddr + BitVec.ofNat 64 k) := Block.contains_add hk
        rw [load_frame hsz (hdisj q hold _ hcontains)]
        exact h.image q hold k hk
    | inr hnew =>
        subst hnew
        exact load_image hsz hfile hin hk
  writes := by
    intro w hw a ha
    have hw : w ∈ s.writes ++ [p.fileBlock] ++ [p.zeroBlock] := hw
    rw [List.mem_append, List.mem_append, List.mem_singleton, List.mem_singleton] at hw
    rcases hw with (hold | rfl) | rfl
    · obtain ⟨q, hq, hcontains⟩ := h.writes w hold a ha
      exact ⟨q, by simp [hq], hcontains⟩
    · exact ⟨p, by simp, p.block_contains_of_fileBlock hsz ha⟩
    · exact ⟨p, by simp, ((p.zeroBlock_contains_iff hsz).mp ha).1⟩

/-! ## the loop -/

/-- A header of another type is skipped. -/
theorem copySegment_of_ne {phdr : BitVec 64} (h : (phdrAt s.mem phdr).pType ≠ PT_LOAD) :
    copySegment ehdr phdr s = s := if_pos h

/-- A `PT_LOAD` header that the copy does not overwrite is loaded. -/
theorem copySegment_of_eq {phdr : BitVec 64} {p : Elf64Phdr} (hp : phdrAt s.mem phdr = p)
    (htype : p.pType = PT_LOAD)
    (hstays : phdrAt (s.mem.copyMem p.pVaddr (ehdr + p.pOffset) p.pFilesz) phdr = p) :
    copySegment ehdr phdr s = s.load ehdr p := by
  subst hp
  unfold copySegment
  rw [if_neg fun hne => hne htype]
  unfold Machine.copyMem
  simp only [hstays]
  rfl

/-- A round of the loop loads the segment of its header, if it has one. -/
theorem Loaded.copySegment (hl : Loadable m ehdr size)
    (hout : ∀ k < size, ∀ p ∈ segments m ehdr, ¬ p.block.Contains (ehdr + BitVec.ofNat 64 k))
    {i : Nat} (hi : i < (ehdrAt m ehdr).ePhnum.toNat)
    (h : Loaded m ehdr (segmentsUpTo m ehdr i) s) :
    Loaded m ehdr (segmentsUpTo m ehdr (i + 1))
      (Loader.copySegment ehdr (phdrPtr ehdr (ehdrAt m ehdr).ePhoff i) s) := by
  have hsub := segmentsUpTo_sublist m ehdr (Nat.succ_le_of_lt hi)
  have hfile : SameFile m s.mem ehdr size := h.sameFile fun k hk p hp =>
    hout k hk p ((segmentsUpTo_sublist m ehdr (Nat.le_of_lt hi)).subset hp)
  have htable : (ehdrAt m ehdr).ePhoff.toNat + sizeofPhdr * (i + 1) ≤ size :=
    Nat.le_trans (Nat.add_le_add_left (Nat.mul_le_mul_left _ hi) _) hl.table
  have hphdr := hfile.phdrAt_eq htable
  rw [segmentsUpTo_succ] at hsub ⊢
  generalize hp : phdrAt m (phdrPtr ehdr (ehdrAt m ehdr).ePhoff i) = p at hphdr hsub ⊢
  by_cases htype : p.pType = PT_LOAD
  · rw [if_pos htype] at hsub ⊢
    have hmem : p ∈ segments m ehdr := hsub.subset (by simp)
    have hsz := hl.filesz_le p hmem
    have hcopied : SameFile m (s.mem.copyMem p.pVaddr (ehdr + p.pOffset) p.pFilesz) ehdr size := by
      intro k hk
      have hcontains : ¬ p.fileBlock.Contains (ehdr + BitVec.ofNat 64 k) :=
        fun ha => hout k hk p hmem (p.block_contains_of_fileBlock hsz ha)
      exact (copyMem_of_not_contains hcontains _).trans (hfile k hk)
    have hstays := (hcopied.phdrAt_eq htable).trans hp
    rw [copySegment_of_eq hphdr htype hstays]
    refine h.load hfile hsz (hl.inFile p hmem) fun q hq => ?_
    have hpair := hl.disjoint.sublist hsub
    exact (List.pairwise_append.mp hpair).2.2 q hq p (List.mem_singleton.mpr rfl)
  · rw [if_neg htype, List.append_nil, copySegment_of_ne (hphdr ▸ htype)]
    exact h

/-- The loop loads the remaining segments. -/
theorem Loaded.copyFrom (hl : Loadable m ehdr size)
    (hout : ∀ k < size, ∀ p ∈ segments m ehdr, ¬ p.block.Contains (ehdr + BitVec.ofNat 64 k))
    (n : Nat) {i : Nat} (hi : i ≤ (ehdrAt m ehdr).ePhnum.toNat)
    (hn : (ehdrAt m ehdr).ePhnum.toNat < n + i) (h : Loaded m ehdr (segmentsUpTo m ehdr i) s) :
    Loaded m ehdr (segments m ehdr)
      (Loader.copyFrom ehdr (ehdrAt m ehdr).ePhoff n i s) := by
  induction n generalizing i s with
  | zero => omega
  | succ n ih =>
      have hfile : SameFile m s.mem ehdr size := h.sameFile fun k hk p hp =>
        hout k hk p ((segmentsUpTo_sublist m ehdr hi).subset hp)
      unfold Loader.copyFrom
      rw [hfile.ehdrAt_eq hl.header]
      by_cases hlt : i < (ehdrAt m ehdr).ePhnum.toNat
      · rw [if_pos hlt]
        exact ih hlt (by omega) (Loaded.copySegment hl hout hlt h)
      · rw [if_neg hlt]
        have heq : i = (ehdrAt m ehdr).ePhnum.toNat := by omega
        subst heq
        exact h

/-! ## the whole image -/

/-- The last address stays a page below the end of the address space. -/
theorem foldl_extend_snd_le (h : ∀ p ∈ ps, p.pVaddr.toNat + p.pMemsz.toNat + 4096 ≤ 2 ^ 64)
    {range : BitVec 64 × BitVec 64} (hr : range.2.toNat + 4096 ≤ 2 ^ 64) :
    (ps.foldl extend range).2.toNat + 4096 ≤ 2 ^ 64 := by
  induction ps generalizing range with
  | nil => exact hr
  | cons p ps ih =>
      refine ih (fun q hq => h q (List.mem_cons_of_mem p hq)) ?_
      have hp := h p List.mem_cons_self
      show (MAX range.2 (p.pVaddr + p.pMemsz)).toNat + 4096 ≤ 2 ^ 64
      unfold MAX
      split
      · exact hr
      · rw [BitVec.toNat_add, Nat.mod_eq_of_lt (by omega)]
        exact hp

/-- The pages take in a segment that the range does. -/
theorem allocated_of_spans {range : BitVec 64 × BitVec 64} {p : Elf64Phdr} (h : Spans range p)
    (hlast : range.2.toNat + 4096 ≤ 2 ^ 64) {a : BitVec 64} (ha : p.block.Contains a) :
    Allocated range a := by
  obtain ⟨hfirst, hend⟩ := h
  have hfits : p.block.Fits := by
    show p.pVaddr.toNat + p.pMemsz.toNat ≤ 2 ^ 64
    omega
  have hin : p.pVaddr.toNat ≤ a.toNat ∧ a.toNat < p.pVaddr.toNat + p.pMemsz.toNat :=
    (Block.contains_iff hfits).mp ha
  have hpages : (numPages range).toNat = (range.2.toNat - range.1.toNat + 4095) / 4096 := by
    unfold numPages
    rw [BitVec.toNat_udiv, BitVec.toNat_add, BitVec.toNat_sub_of_le (by rw [BitVec.le_def]; omega),
      BitVec.toNat_ofNat, BitVec.toNat_ofNat, Nat.mod_eq_of_lt (by omega)]
  unfold Allocated
  rw [hpages]
  omega

theorem Loadable.noWrap_page (hl : Loadable m ehdr size) :
    ∀ p ∈ segments m ehdr, p.pVaddr.toNat + p.pMemsz.toNat + 4096 ≤ 2 ^ 64 := by
  intro p hp
  have hlt := hl.noWrap p hp
  have hle := le_roundUp (a := 4096) (by decide) (p.pVaddr.toNat + p.pMemsz.toNat)
  obtain ⟨k, hk⟩ := dvd_roundUp 4096 (p.pVaddr.toNat + p.pMemsz.toNat)
  omega

/-- The kernel has been loaded as the file says: every byte written is in the
pages allocated for it, and every segment is in its place. -/
structure LoadedExactly (m : ByteMemory) (ehdr : BitVec 64) : Prop where
  allocated : ∀ w ∈ (copyLoadSegments ehdr ⟨m, []⟩).writes, ∀ a, w.Contains a →
    Allocated (calcLoadAddressRange m ehdr) a
  file : ∀ p ∈ segments m ehdr, ∀ k < p.pFilesz.toNat,
    (copyLoadSegments ehdr ⟨m, []⟩).mem (p.pVaddr + BitVec.ofNat 64 k) =
      m.view ehdr (p.pOffset.toNat + k)
  zero : ∀ p ∈ segments m ehdr, ∀ k, p.pFilesz.toNat ≤ k → k < p.pMemsz.toNat →
    (copyLoadSegments ehdr ⟨m, []⟩).mem (p.pVaddr + BitVec.ofNat 64 k) = 0#8

/-- The pages take in every segment. -/
theorem Loadable.allocated (hl : Loadable m ehdr size) : ∀ p ∈ segments m ehdr, ∀ a,
    p.block.Contains a → Allocated (calcLoadAddressRange m ehdr) a := by
  have hpage := hl.noWrap_page
  intro p hp a ha
  rw [calcLoadAddressRange_eq]
  refine allocated_of_spans (spans_foldl (fun q hq => ?_) _ p hp)
    (foldl_extend_snd_le hpage (by decide)) ha
  have hq := hpage q hq
  omega

/-- A file that does not lie in the pages allocated for the kernel is loaded. -/
theorem Loadable.loaded (hl : Loadable m ehdr size)
    (hbuf : ∀ k < size, ¬ Allocated (calcLoadAddressRange m ehdr) (ehdr + BitVec.ofNat 64 k)) :
    Loaded m ehdr (segments m ehdr) (copyLoadSegments ehdr ⟨m, []⟩) := by
  have hout : ∀ k < size, ∀ p ∈ segments m ehdr, ¬ p.block.Contains (ehdr + BitVec.ofNat 64 k) :=
    fun k hk p hp ha => hbuf k hk (hl.allocated p hp _ ha)
  have hstart : Loaded m ehdr (segmentsUpTo m ehdr 0) ⟨m, []⟩ := by
    refine ⟨fun _ _ => rfl, fun p hp => ?_, fun w hw => ?_⟩ <;> contradiction
  exact Loaded.copyFrom hl hout (2 ^ 16) (Nat.zero_le _) (BitVec.isLt _) hstart

/-- **The kernel image is loaded exactly.**  When the file can be loaded and
does not lie in the pages allocated for the kernel, what `CopyLoadSegments`
writes is in these pages, and every `PT_LOAD` segment is in memory as the
file has it, filled up with zeros.  That the first address is the start of a
page is something only `AllocatePages` asks for. -/
theorem copyLoadSegments_exact (hl : Loadable m ehdr size)
    (hbuf : ∀ k < size, ¬ Allocated (calcLoadAddressRange m ehdr) (ehdr + BitVec.ofNat 64 k)) :
    LoadedExactly m ehdr := by
  have hend := hl.loaded hbuf
  refine ⟨fun w hw a ha => ?_, fun p hp k hk => ?_, fun p hp k hk hk' => ?_⟩
  · obtain ⟨p, hp, hcontains⟩ := hend.writes w hw a ha
    exact hl.allocated p hp a hcontains
  · have hle := BitVec.le_def.mp (hl.filesz_le p hp)
    rw [hend.image p hp k (Nat.lt_of_lt_of_le hk hle), Elf64Phdr.image, if_pos hk]
  · rw [hend.image p hp k hk', Elf64Phdr.image, if_neg (Nat.not_lt_of_le hk)]

/-- The bytes of the headers that are not 0: the file header, and the program
headers of a segment, of a note in that segment, and of another segment. -/
def sampleHeaders : List (Nat × BitVec 8) :=
  [(32, 64#8), (56, 3#8),
    (64, 1#8), (72, 232#8), (82, 0x20#8), (96, 4#8), (104, 8#8),
    (120, 4#8), (128, 232#8), (138, 0x20#8), (152, 4#8), (160, 4#8),
    (176, 1#8), (184, 236#8), (193, 0x10#8), (194, 0x20#8), (208, 2#8), (216, 16#8)]

/-- A file of 238 bytes: the headers, four bytes of one segment and two of the
other. -/
def sampleFile (k : Nat) : BitVec 8 :=
  if 232 ≤ k ∧ k < 238 then 0x5a#8 else (sampleHeaders.lookup k).getD 0#8

/-- The file in memory from 1 MiB on. -/
def sampleMemory : ByteMemory := fun a => sampleFile (a.toNat - 0x100000)

theorem segments_sample : segments sampleMemory 0x100000#64 =
    [⟨PT_LOAD, 232#64, 0x200000#64, 4#64, 8#64⟩, ⟨PT_LOAD, 236#64, 0x201000#64, 2#64, 16#64⟩] := by
  decide +kernel

theorem loadable_sample : Loadable sampleMemory 0x100000#64 238 where
  header := by decide
  table := by decide +kernel
  filesz_le := by rw [segments_sample]; decide
  inFile := by rw [segments_sample]; decide
  noWrap := by rw [segments_sample]; decide
  disjoint := by
    rw [segments_sample]
    refine List.pairwise_pair.mpr fun a ha ha' => ?_
    have hbelow : a.toNat < 0x200000 + 8 :=
      ((Block.contains_iff (by unfold Block.Fits; decide)).mp ha).2
    have habove : 0x201000 ≤ a.toNat :=
      ((Block.contains_iff (by unfold Block.Fits; decide)).mp ha').1
    omega

theorem calcLoadAddressRange_sample :
    calcLoadAddressRange sampleMemory 0x100000#64 = (0x200000#64, 0x201010#64) := by
  decide +kernel

theorem copyLoadSegments_exact_sample : LoadedExactly sampleMemory 0x100000#64 := by
  refine copyLoadSegments_exact loadable_sample fun k hk => ?_
  rw [calcLoadAddressRange_sample]
  unfold Allocated
  rw [BitVec.toNat_add, BitVec.toNat_ofNat, BitVec.toNat_ofNat, BitVec.toNat_ofNat]
  omega

end MikanOs.Loader
