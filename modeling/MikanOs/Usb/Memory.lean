import MikanOs.Lib.RoundUp
import MikanOs.Lib.BumpAllocator

/-!
# MikanOs.Usb.Memory

The USB driver's memory pool (`usb/memory.cpp`): `AllocMem` rounds
`alloc_ptr` up to the alignment, then past the next boundary if the block
would straddle it, and hands out what follows; `FreeMem` does nothing.

The code works on 64-bit addresses with masks.  `allocMem_refines` connects
it to the bump allocator `poolAllocator` over natural numbers, for as long as
the cursor stays at or below `MemoryPool.top`, where no rounding can wrap;
what holds of every run of calls (`allocMem_run_sound`) is then read off the
general allocator.
-/

namespace MikanOs.Usb

/-! ## the code -/

/-- Size of the memory pool in bytes. -/
def kMemoryPoolSize : Nat := 4096 * 32

/-- Where `memory_pool` lies: a 64-byte aligned object, not at the null
address, and far enough from the end of the address space that rounding an
address of the pool up to any 32-bit alignment does not wrap. -/
structure MemoryPool where
  base : BitVec 64
  aligned : 64 ∣ base.toNat
  nonnull : base ≠ 0
  room : base.toNat + kMemoryPoolSize + 2 ^ 32 ≤ 2 ^ 64

/-- `Ceil` at `T = uintptr_t`. -/
def ceil (value : BitVec 64) (alignment : BitVec 32) : BitVec 64 :=
  (value + alignment.setWidth 64 - 1#64) &&& ~~~((alignment - 1#32).setWidth 64)

/-- `alloc_ptr` after `AllocMem`'s two adjustments. -/
def placed (allocPtr size : BitVec 64) (alignment boundary : BitVec 32) : BitVec 64 :=
  let p := if alignment > 0#32 then ceil allocPtr alignment else allocPtr
  if boundary > 0#32 then
    let nextBoundary := ceil p boundary
    if nextBoundary < p + size then nextBoundary else p
  else p

/-- `AllocMem`: the block (null if refused) and the new `alloc_ptr`. -/
def allocMem (pool : MemoryPool) (allocPtr size : BitVec 64) (alignment boundary : BitVec 32) :
    BitVec 64 × BitVec 64 :=
  let p := placed allocPtr size alignment boundary
  if pool.base + BitVec.ofNat 64 kMemoryPoolSize < p + size then (0#64, p)
  else (p, p + size)

/-- `FreeMem` has an empty body. -/
def freeMem (allocPtr _p : BitVec 64) : BitVec 64 := allocPtr

/-- `AllocArray<T>`: `sizeof(T) * num_obj` is computed in `size_t`. -/
def allocArray (pool : MemoryPool) (allocPtr : BitVec 64) (sizeofT : Nat) (numObj : BitVec 64)
    (alignment boundary : BitVec 32) : BitVec 64 × BitVec 64 :=
  allocMem pool allocPtr (BitVec.ofNat 64 sizeofT * numObj) alignment boundary

/-! ## requests and runs -/

/-- The arguments of one `AllocMem` call. -/
structure Request where
  size : BitVec 64
  alignment : BitVec 32
  boundary : BitVec 32

/-- Zero (no constraint) or a power of two. -/
def ZeroOrPowerOfTwo (a : BitVec 32) : Prop := a = 0#32 ∨ ∃ k, a.toNat = 2 ^ k

/-- The call of `AllocMem` a request stands for. -/
def Request.serve (r : Request) (pool : MemoryPool) (p : BitVec 64) : BitVec 64 × BitVec 64 :=
  allocMem pool p r.size r.alignment r.boundary

/-- The requests the pool is meant to serve: of any size up to
`kMemoryPoolSize`, and far beyond it, so that what is too large is seen to be
refused. -/
structure Request.Valid (r : Request) : Prop where
  size_le : r.size.toNat ≤ 2 ^ 31
  alignment : ZeroOrPowerOfTwo r.alignment
  boundary : ZeroOrPowerOfTwo r.boundary

/-- A call of the pool's interface. -/
inductive Call
  | allocMem (r : Request)
  | freeMem (p : BitVec 64)

/-- An answered request: the address is null if the request was refused. -/
structure Block where
  request : Request
  ptr : BitVec 64

namespace Block

theorem mk_ptr (r : Request) (ptr : BitVec 64) : (Block.mk r ptr).ptr = ptr := rfl

/-- First address past the block. -/
def stop (b : Block) : Nat := b.ptr.toNat + b.request.size.toNat

/-- Two blocks without a common address. -/
def Disjoint (a b : Block) : Prop := a.stop ≤ b.ptr.toNat ∨ b.stop ≤ a.ptr.toNat

/-- What a block handed out owes to its request. -/
structure Sound (pool : MemoryPool) (b : Block) : Prop where
  inside : pool.base.toNat ≤ b.ptr.toNat ∧ b.stop ≤ pool.base.toNat + kMemoryPoolSize
  aligned : 0 < b.request.alignment.toNat → b.request.alignment.toNat ∣ b.ptr.toNat
  within : 0 < b.request.boundary.toNat →
    b.request.size.toNat ≤ b.request.boundary.toNat →
    ¬ Straddles b.request.boundary.toNat b.ptr.toNat b.request.size.toNat

end Block

/-- A run of calls from the cursor `p`: every answered request, in order. -/
def runCalls (pool : MemoryPool) (p : BitVec 64) : List Call → List Block
  | [] => []
  | .allocMem r :: cs => ⟨r, (r.serve pool p).1⟩ :: runCalls pool (r.serve pool p).2 cs
  | .freeMem q :: cs => runCalls pool (freeMem p q) cs

/-- The allocation requests among the calls. -/
def requests : List Call → List Request
  | [] => []
  | .allocMem r :: cs => r :: requests cs
  | .freeMem _ :: cs => requests cs

/-! ## the abstract allocator -/

/-- Round `p` up to `a`, if `a` constrains it. -/
def alignTo (a p : Nat) : Nat := if 0 < a then roundUp a p else p

/-- Move `p` to the next multiple of `b`, if `[p, p + size)` reaches past
it. -/
def skipTo (b p size : Nat) : Nat :=
  if 0 < b ∧ roundUp b p < p + size then roundUp b p else p

theorem le_alignTo (a p : Nat) : p ≤ alignTo a p := by
  unfold alignTo
  split
  · next h => exact le_roundUp h p
  · exact Nat.le_refl p

theorem le_skipTo (b p size : Nat) : p ≤ skipTo b p size := by
  unfold skipTo
  split
  · next h => exact le_roundUp h.1 p
  · exact Nat.le_refl p

/-- What the pool does, over natural-number addresses: align, then skip the
boundary. -/
def poolAllocator : BumpAllocator Request where
  size r := r.size.toNat
  place p r := skipTo r.boundary.toNat (alignTo r.alignment.toNat p) r.size.toNat
  le_place p _ := Nat.le_trans (le_alignTo _ p) (le_skipTo _ _ _)

/-! ## placement keeps both constraints -/

/-- Of two powers of two the smaller divides the larger. -/
theorem dvd_or_dvd_of_pow {a b i j : Nat} (ha : a = 2 ^ i) (hb : b = 2 ^ j) : a ∣ b ∨ b ∣ a := by
  cases Nat.le_total i j with
  | inl h => exact .inl (ha ▸ hb ▸ Nat.pow_dvd_pow 2 h)
  | inr h => exact .inr (ha ▸ hb ▸ Nat.pow_dvd_pow 2 h)

theorem ZeroOrPowerOfTwo.pow_of_pos {a : BitVec 32} (h : ZeroOrPowerOfTwo a)
    (hpos : 0 < a.toNat) : ∃ k, a.toNat = 2 ^ k := by
  cases h with
  | inl h0 => subst h0; exact absurd hpos (by decide)
  | inr hk => exact hk

/-- A power of two of 32 bits divides `2 ^ 31`. -/
theorem dvd_two_pow_31 {a : BitVec 32} (h : a.toNat = 2 ^ k) : a.toNat ∣ 2 ^ 31 := by
  have hk : k < 32 := (Nat.pow_lt_pow_iff_right (by decide)).mp (h ▸ a.isLt)
  rw [h]
  exact Nat.pow_dvd_pow 2 (by omega)

theorem ZeroOrPowerOfTwo.le {a : BitVec 32} (h : ZeroOrPowerOfTwo a) : a.toNat ≤ 2 ^ 31 := by
  rcases h with rfl | ⟨k, hk⟩
  · decide
  · exact Nat.le_of_dvd (Nat.two_pow_pos 31) (dvd_two_pow_31 hk)

/-- Skipping the boundary keeps the alignment: either the boundary is a
multiple of the alignment, or an aligned address is already a multiple of
the boundary. -/
theorem dvd_skipTo {a b : Nat} (ha : a = 2 ^ i) (hb : 0 < b → ∃ j, b = 2 ^ j) (hp : a ∣ p)
    (size : Nat) : a ∣ skipTo b p size := by
  unfold skipTo
  split
  · next h =>
    obtain ⟨j, hj⟩ := hb h.1
    cases dvd_or_dvd_of_pow ha hj with
    | inl hab => exact Nat.dvd_trans hab (dvd_roundUp b p)
    | inr hba => rwa [roundUp_eq_of_dvd h.1 (Nat.dvd_trans hba hp)]
  · exact hp

/-- The placement is a multiple of the alignment. -/
theorem dvd_place {r : Request} (hr : r.Valid) (hpos : 0 < r.alignment.toNat) (p : Nat) :
    r.alignment.toNat ∣ poolAllocator.place p r := by
  obtain ⟨k, hk⟩ := hr.alignment.pow_of_pos hpos
  refine dvd_skipTo hk hr.boundary.pow_of_pos ?_ _
  rw [alignTo, if_pos hpos]
  exact dvd_roundUp _ p

/-- A block no longer than the boundary straddles none of its multiples. -/
theorem not_straddles_skipTo {b : Nat} (hb : 0 < b) (hsize : size ≤ b) (p : Nat) :
    ¬ Straddles b (skipTo b p size) size := by
  unfold skipTo
  split
  · exact not_straddles_of_dvd (dvd_roundUp b p) hsize
  · next h => exact not_straddles_of_le_roundUp hb (by omega)

/-! ## the code refines the abstract allocator -/

namespace MemoryPool

/-- First address past the pool. -/
def limit (pool : MemoryPool) : Nat := pool.base.toNat + kMemoryPoolSize

/-- How far refused requests can move the cursor. -/
def top (pool : MemoryPool) : Nat := roundUp (2 ^ 31) pool.limit

theorem limit_le_top (pool : MemoryPool) : pool.limit ≤ pool.top := le_roundUp (by decide) _

/-- From `top` on there is still room for one more rounding. -/
theorem top_lt (pool : MemoryPool) : pool.top + 2 ^ 31 < 2 ^ 64 := by
  have hlt := roundUp_lt (a := 2 ^ 31) (by decide) pool.limit
  have hroom := pool.room
  unfold top limit at *
  omega

theorem base_pos (pool : MemoryPool) : 0 < pool.base.toNat :=
  Nat.pos_of_ne_zero fun h => pool.nonnull (BitVec.eq_of_toNat_eq h)

end MemoryPool

/-- `Ceil` rounds up to a power of two, if the sum does not wrap. -/
theorem toNat_ceil {a : BitVec 32} (ha : a.toNat = 2 ^ k) (v : BitVec 64)
    (hv : v.toNat + a.toNat ≤ 2 ^ 64) : (ceil v a).toNat = roundUp a.toNat v.toNat := by
  have hpos : 0 < 2 ^ k := Nat.two_pow_pos k
  have hlt := a.isLt
  have hmask : (a - 1#32).setWidth 64 = BitVec.ofNat 64 (2 ^ k - 1) := by
    apply BitVec.eq_of_toNat_eq
    simp only [BitVec.toNat_setWidth, BitVec.toNat_sub, BitVec.toNat_ofNat, ha]
    omega
  have hsum : (v + a.setWidth 64 - 1#64).toNat = v.toNat + (2 ^ k - 1) := by
    simp only [BitVec.toNat_sub, BitVec.toNat_add, BitVec.toNat_setWidth, BitVec.toNat_ofNat, ha]
    omega
  rw [ceil, hmask, toNat_and_not_mask, hsum, roundUp, ha]

/-- No rounding of a cursor at or below `top` passes `top`. -/
theorem roundUp_le_top {a : BitVec 32} (ha : a.toNat = 2 ^ k) (pool : MemoryPool)
    (hp : p ≤ pool.top) : roundUp a.toNat p ≤ pool.top := by
  have hpos : 0 < a.toNat := ha ▸ Nat.two_pow_pos k
  exact roundUp_le_of_dvd hpos hp (Nat.dvd_trans (dvd_two_pow_31 ha) (dvd_roundUp _ _))

theorem alignTo_le_top {a : BitVec 32} (ha : ZeroOrPowerOfTwo a) (pool : MemoryPool)
    (hp : p ≤ pool.top) : alignTo a.toNat p ≤ pool.top := by
  unfold alignTo
  split
  · next h =>
    obtain ⟨k, hk⟩ := ha.pow_of_pos h
    exact roundUp_le_top hk pool hp
  · exact hp

theorem skipTo_le_top {b : BitVec 32} (hb : ZeroOrPowerOfTwo b) (pool : MemoryPool)
    (hp : p ≤ pool.top) (size : Nat) : skipTo b.toNat p size ≤ pool.top := by
  unfold skipTo
  split
  · next h =>
    obtain ⟨k, hk⟩ := hb.pow_of_pos h.1
    exact roundUp_le_top hk pool hp
  · exact hp

/-- The first adjustment of `AllocMem`, if it does not wrap. -/
theorem toNat_align {a : BitVec 32} (ha : ZeroOrPowerOfTwo a) {v : BitVec 64}
    (hv : v.toNat + a.toNat ≤ 2 ^ 64) :
    (if a > 0#32 then ceil v a else v).toNat = alignTo a.toNat v.toNat := by
  by_cases hpos : 0 < a.toNat
  · obtain ⟨k, hk⟩ := ha.pow_of_pos hpos
    have hgt : a > 0#32 := hpos
    rw [if_pos hgt, alignTo, if_pos hpos, toNat_ceil hk v hv]
  · have hgt : ¬ a > 0#32 := hpos
    rw [if_neg hgt, alignTo, if_neg hpos]

/-- Where `AllocMem` places a block, if no rounding wraps; the end it compares
with the boundary may. -/
theorem toNat_placed {a b : BitVec 32} (ha : ZeroOrPowerOfTwo a) (hb : ZeroOrPowerOfTwo b)
    {p : BitVec 64} (size : BitVec 64) (hp : p.toNat + a.toNat ≤ 2 ^ 64)
    (hq : alignTo a.toNat p.toNat + b.toNat ≤ 2 ^ 64) : (placed p size a b).toNat =
      skipTo b.toNat (alignTo a.toNat p.toNat)
        ((alignTo a.toNat p.toNat + size.toNat) % 2 ^ 64 - alignTo a.toNat p.toNat) := by
  have halign := toNat_align ha hp
  unfold placed
  rw [← halign] at hq ⊢
  generalize (if a > 0#32 then ceil p a else p) = q at hq
  by_cases hpos : 0 < b.toNat
  · obtain ⟨k, hk⟩ := hb.pow_of_pos hpos
    have hgt : b > 0#32 := hpos
    have hnext := toNat_ceil hk q hq
    have hle := le_roundUp hpos q.toNat
    have hskip : ceil q b < q + size ↔
        roundUp b.toNat q.toNat < q.toNat + ((q.toNat + size.toNat) % 2 ^ 64 - q.toNat) := by
      rw [BitVec.lt_def, hnext, BitVec.toNat_add]
      omega
    simp only [hgt, if_true, skipTo, hpos, true_and, hskip]
    split
    · exact hnext
    · rfl
  · have hgt : ¬ b > 0#32 := hpos
    simp only [hgt, if_false, skipTo, hpos, false_and]

/-- No sum that `AllocMem` forms for a request wraps. -/
structure NoWrap (p : Nat) (r : Request) : Prop where
  align : p + r.alignment.toNat ≤ 2 ^ 64
  boundary : alignTo r.alignment.toNat p + r.boundary.toNat ≤ 2 ^ 64
  stop : poolAllocator.place p r + r.size.toNat < 2 ^ 64

/-- Then the code places a request where the abstract allocator does. -/
theorem NoWrap.toNat_placed {r : Request} {p : BitVec 64} (h : NoWrap p.toNat r)
    (ha : ZeroOrPowerOfTwo r.alignment) (hb : ZeroOrPowerOfTwo r.boundary) :
    (placed p r.size r.alignment r.boundary).toNat = poolAllocator.place p.toNat r := by
  have hle := le_skipTo r.boundary.toNat (alignTo r.alignment.toNat p.toNat) r.size.toNat
  have hstop := Nat.lt_of_le_of_lt (Nat.add_le_add_right hle r.size.toNat) h.stop
  rw [Usb.toNat_placed ha hb r.size h.align h.boundary, Nat.mod_eq_of_lt hstop,
    Nat.add_sub_cancel_left]
  rfl

/-- The end of the pool, as the code computes it. -/
theorem MemoryPool.toNat_limit (pool : MemoryPool) :
    (pool.base + BitVec.ofNat 64 kMemoryPoolSize).toNat = pool.limit := by
  have hroom := pool.room
  rw [BitVec.toNat_add, BitVec.toNat_ofNat, limit]
  unfold kMemoryPoolSize at hroom ⊢
  omega

/-- What a returned address means to the abstract allocator. -/
def blockAt (ptr : BitVec 64) : Option Nat := if ptr = 0#64 then none else some ptr.toNat

theorem isSome_blockAt {ptr : BitVec 64} : (blockAt ptr).isSome ↔ ptr ≠ 0#64 := by
  unfold blockAt
  split <;> simp_all

theorem blockAt_eq_some {ptr : BitVec 64} (h : ptr ≠ 0#64) : blockAt ptr = some ptr.toNat :=
  if_neg h

/-- **One call** that does not wrap: `AllocMem` answers as the abstract
allocator does and leaves the cursor where it does. -/
theorem NoWrap.serve {r : Request} {p : BitVec 64} (h : NoWrap p.toNat r)
    (ha : ZeroOrPowerOfTwo r.alignment) (hb : ZeroOrPowerOfTwo r.boundary) (hp : p ≠ 0#64)
    (pool : MemoryPool) :
    blockAt (r.serve pool p).1 = (poolAllocator.step pool.limit p.toNat r).1 ∧
      (r.serve pool p).2.toNat = (poolAllocator.step pool.limit p.toNat r).2 := by
  have hplace := h.toNat_placed ha hb
  have hle := poolAllocator.le_place p.toNat r
  have hstop := h.stop
  unfold Request.serve allocMem BumpAllocator.step
  generalize placed p r.size r.alignment r.boundary = q at hplace
  have hsum : (q + r.size).toNat = poolAllocator.place p.toNat r + poolAllocator.size r := by
    rw [BitVec.toNat_add, hplace]
    exact Nat.mod_eq_of_lt hstop
  have hfit : pool.base + BitVec.ofNat 64 kMemoryPoolSize < q + r.size ↔
      ¬ poolAllocator.place p.toNat r + poolAllocator.size r ≤ pool.limit := by
    rw [BitVec.lt_def, pool.toNat_limit, hsum, Nat.not_le]
  by_cases hroom : poolAllocator.place p.toNat r + poolAllocator.size r ≤ pool.limit
  · have hlt : ¬ pool.base + BitVec.ofNat 64 kMemoryPoolSize < q + r.size := by
      rw [hfit]; exact not_not_intro hroom
    have hq : q ≠ 0#64 := by
      intro h0
      rw [h0, BitVec.toNat_zero] at hplace
      exact hp (BitVec.eq_of_toNat_eq (Nat.le_zero.mp (hplace ▸ hle)))
    simp only [hlt, hroom, if_false, if_true, blockAt_eq_some hq, hplace, hsum, and_self]
  · have hlt := hfit.mpr hroom
    simp only [hlt, hroom, if_false, if_true, hplace, and_true]
    rfl

/-- A cursor the pool can reach. -/
structure CursorOk (pool : MemoryPool) (p : BitVec 64) : Prop where
  base_le : pool.base.toNat ≤ p.toNat
  le_top : p.toNat ≤ pool.top

theorem cursorOk_base (pool : MemoryPool) : CursorOk pool pool.base where
  base_le := Nat.le_refl _
  le_top := Nat.le_trans (Nat.le_add_right _ _) pool.limit_le_top

theorem CursorOk.ne_zero {pool : MemoryPool} {p : BitVec 64} (hp : CursorOk pool p) :
    p ≠ 0#64 := by
  rintro rfl
  exact absurd (Nat.lt_of_lt_of_le pool.base_pos hp.base_le) (Nat.lt_irrefl 0)

/-- At or below `top` nothing wraps. -/
theorem noWrap_of_le_top {r : Request} (hr : r.Valid) (pool : MemoryPool) {p : Nat}
    (hp : p ≤ pool.top) : NoWrap p r := by
  have ha := hr.alignment.le
  have hb := hr.boundary.le
  have hq := alignTo_le_top hr.alignment pool hp
  have hplace : poolAllocator.place p r ≤ pool.top := skipTo_le_top hr.boundary pool hq _
  have hsize := hr.size_le
  have htop := pool.top_lt
  exact ⟨by omega, by omega, by omega⟩

/-- An answered request as the abstract allocator answers it. -/
def Block.answer (b : Block) : Request × Option Nat := (b.request, blockAt b.ptr)

theorem Block.answer_mk (r : Request) (ptr : BitVec 64) :
    Block.answer ⟨r, ptr⟩ = (r, blockAt ptr) := rfl

/-- **One call**: from a cursor the pool can reach, `AllocMem` answers as
the abstract allocator does and leaves the cursor where it does. -/
theorem allocMem_refines {r : Request} (hr : r.Valid) {pool : MemoryPool} {p : BitVec 64}
    (hp : CursorOk pool p) :
    blockAt (r.serve pool p).1 = (poolAllocator.step pool.limit p.toNat r).1 ∧
      (r.serve pool p).2.toNat = (poolAllocator.step pool.limit p.toNat r).2 ∧
      CursorOk pool (r.serve pool p).2 := by
  have hwrap := noWrap_of_le_top hr pool hp.le_top
  obtain ⟨hblock, hcursor⟩ := hwrap.serve hr.alignment hr.boundary hp.ne_zero pool
  have hplace : poolAllocator.place p.toNat r ≤ pool.top :=
    skipTo_le_top hr.boundary pool (alignTo_le_top hr.alignment pool hp.le_top) _
  refine ⟨hblock, hcursor, ?_, ?_⟩
  · rw [hcursor]
    exact Nat.le_trans hp.base_le (poolAllocator.le_step pool.limit p.toNat r)
  · rw [hcursor]
    exact BumpAllocator.step_le hplace pool.limit_le_top

/-- A block the abstract allocator would place is sound. -/
theorem Block.sound_of_place {pool : MemoryPool} {b : Block} (hr : b.request.Valid)
    (hbase : pool.base.toNat ≤ b.ptr.toNat) (hend : b.stop ≤ pool.limit)
    (hq : b.ptr.toNat = poolAllocator.place q b.request) : b.Sound pool where
  inside := ⟨hbase, hend⟩
  aligned ha := hq ▸ dvd_place hr ha q
  within _ hsize := by
    rw [hq]
    exact not_straddles_skipTo (by omega) hsize _

/-- A block the abstract allocator grants is sound. -/
theorem Block.sound_of_granted {r : Request} (hr : r.Valid) {pool : MemoryPool} {p ptr : BitVec 64}
    (hp : CursorOk pool p)
    (hgrant : (poolAllocator.step pool.limit p.toNat r).1 = some ptr.toNat) :
    Block.Sound pool ⟨r, ptr⟩ := by
  obtain ⟨hplace, hend, _⟩ := BumpAllocator.step_granted hgrant
  refine Block.sound_of_place hr ?_ hend hplace
  exact Nat.le_trans hp.base_le (hplace ▸ poolAllocator.le_place _ r)

/-- A block handed out by one call is sound. -/
theorem serve_sound {r : Request} (hr : r.Valid) {pool : MemoryPool} {p ptr : BitVec 64}
    (hp : CursorOk pool p) (hptr : (r.serve pool p).1 = ptr) (hnull : ptr ≠ 0#64) :
    Block.Sound pool ⟨r, ptr⟩ := by
  have hgrant := (allocMem_refines hr hp).1
  rw [hptr, blockAt_eq_some hnull] at hgrant
  exact Block.sound_of_granted hr hp hgrant.symm

/-- A block is granted where the request is placed, and the cursor moves to its
end. -/
theorem serve_granted {r : Request} (hr : r.Valid) {pool : MemoryPool} {p : BitVec 64}
    (hp : CursorOk pool p) (hnull : (r.serve pool p).1 ≠ 0#64) :
    (r.serve pool p).1.toNat = poolAllocator.place p.toNat r ∧
      (r.serve pool p).2.toNat = poolAllocator.place p.toNat r + r.size.toNat := by
  obtain ⟨hblock, hcursor, _⟩ := allocMem_refines hr hp
  rw [blockAt_eq_some hnull] at hblock
  obtain ⟨hplace, _, hstop⟩ := BumpAllocator.step_granted hblock.symm
  exact ⟨hplace, hcursor.trans (hplace ▸ hstop)⟩

/-- A request is granted just when its block ends inside the pool. -/
theorem serve_ne_null_iff {r : Request} (hr : r.Valid) {pool : MemoryPool} {p : BitVec 64}
    (hp : CursorOk pool p) : (r.serve pool p).1 ≠ 0#64 ↔
      poolAllocator.place p.toNat r + poolAllocator.size r ≤ pool.limit := by
  have hblock := (allocMem_refines hr hp).1
  constructor
  · intro hnull
    rw [blockAt_eq_some hnull] at hblock
    obtain ⟨hplace, hlimit, _⟩ := BumpAllocator.step_granted hblock.symm
    exact hplace ▸ hlimit
  · intro hfit hnull
    rw [BumpAllocator.step_of_fits hfit, hnull] at hblock
    contradiction

/-- The pool can grant some requests, all of them, one after another. -/
def HasRoom (pool : MemoryPool) (p : BitVec 64) (rs : List Request) : Prop :=
  poolAllocator.Fits pool.limit p.toNat rs

instance (pool : MemoryPool) (p : BitVec 64) (rs : List Request) : Decidable (HasRoom pool p rs) :=
  inferInstanceAs (Decidable (poolAllocator.Fits _ _ _))

/-- Then it grants the first, and has room for the others. -/
theorem hasRoom_cons {r : Request} (hr : r.Valid) {pool : MemoryPool} {p : BitVec 64}
    (hp : CursorOk pool p) (rs : List Request) : HasRoom pool p (r :: rs) ↔
      (r.serve pool p).1 ≠ 0#64 ∧ HasRoom pool (r.serve pool p).2 rs := by
  unfold HasRoom
  rw [BumpAllocator.Fits, ← serve_ne_null_iff hr hp]
  refine and_congr_right fun hnull => ?_
  rw [(serve_granted hr hp hnull).2]
  rfl

/-! ## whole runs -/

/-- A call of the interface the pool is meant to serve. -/
def Call.Valid : Call → Prop
  | .allocMem r => r.Valid
  | .freeMem _ => True

/-- **A run of calls** answers as a run of the abstract allocator on the
allocation requests among them. -/
theorem runCalls_refines (pool : MemoryPool) {p : BitVec 64} (hp : CursorOk pool p)
    (calls : List Call) (h : ∀ c ∈ calls, c.Valid) :
    (runCalls pool p calls).map Block.answer =
      poolAllocator.run pool.limit p.toNat (requests calls) := by
  induction calls generalizing p with
  | nil => rfl
  | cons c cs ih =>
      have hcs : ∀ c ∈ cs, c.Valid := fun c hc => h c (List.mem_cons_of_mem _ hc)
      cases c with
      | allocMem r =>
          have hr : r.Valid := h (.allocMem r) List.mem_cons_self
          obtain ⟨hans, hcur, hok⟩ := allocMem_refines hr hp
          rw [runCalls, requests, BumpAllocator.run, List.map_cons, Block.answer_mk, ih hok hcs,
            hans, hcur]
      | freeMem q =>
          rw [runCalls, requests, freeMem]
          exact ih hp hcs

theorem valid_of_mem_requests {calls : List Call} (h : ∀ c ∈ calls, c.Valid) {r : Request}
    (hr : r ∈ requests calls) : r.Valid := by
  induction calls with
  | nil => exact (List.not_mem_nil hr).elim
  | cons c cs ih =>
      have hcs : ∀ c ∈ cs, c.Valid := fun c hc => h c (List.mem_cons_of_mem _ hc)
      cases c with
      | allocMem r' =>
          cases List.mem_cons.mp hr with
          | inl heq => exact heq ▸ h (.allocMem r') List.mem_cons_self
          | inr htail => exact ih hcs htail
      | freeMem q => exact ih hcs hr

theorem request_mem_of_mem_runCalls {calls : List Call} {p : BitVec 64} {b : Block}
    (hb : b ∈ runCalls pool p calls) : b.request ∈ requests calls := by
  induction calls generalizing p with
  | nil => exact (List.not_mem_nil hb).elim
  | cons c cs ih =>
      cases c with
      | allocMem r =>
          cases List.mem_cons.mp hb with
          | inl heq => exact heq ▸ List.mem_cons_self
          | inr htail => exact List.mem_cons_of_mem _ (ih htail)
      | freeMem q => exact ih hb

/-- From any cursor the pool can reach, the blocks handed out are sound and lie
apart. -/
theorem runCalls_sound {pool : MemoryPool} {p : BitVec 64} (hp : CursorOk pool p)
    {calls : List Call} (h : ∀ c ∈ calls, c.Valid) :
    (∀ b ∈ runCalls pool p calls, b.ptr ≠ 0#64 → b.Sound pool) ∧
      (runCalls pool p calls).Pairwise
        (fun a b => a.ptr ≠ 0#64 → b.ptr ≠ 0#64 → a.Disjoint b) := by
  have hrun := runCalls_refines pool hp calls h
  constructor
  · intro b hb hnull
    have hmem : (b.request, some b.ptr.toNat) ∈
        poolAllocator.run pool.limit p.toNat (requests calls) := by
      rw [← hrun, ← blockAt_eq_some hnull]
      exact List.mem_map_of_mem hb
    have hr : b.request.Valid := valid_of_mem_requests h (request_mem_of_mem_runCalls hb)
    obtain ⟨hle, hend, q, hq⟩ := BumpAllocator.run_granted hmem
    exact Block.sound_of_place hr (Nat.le_trans hp.base_le hle) hend hq
  · have hord := poolAllocator.run_ordered pool.limit p.toNat (requests calls)
    rw [← hrun, List.pairwise_map] at hord
    refine hord.imp ?_
    intro a b hab ha hb
    exact .inl (hab _ _ (blockAt_eq_some ha) (blockAt_eq_some hb))

theorem length_runCalls (pool : MemoryPool) (p : BitVec 64) (rs : List Request) :
    (runCalls pool p (rs.map .allocMem)).length = rs.length := by
  induction rs generalizing p with
  | nil => rfl
  | cons r rs ih => rw [List.map_cons, runCalls, List.length_cons, ih, List.length_cons]

theorem requests_map_allocMem (rs : List Request) : requests (rs.map .allocMem) = rs := by
  induction rs with
  | nil => rfl
  | cons r rs ih => rw [List.map_cons, requests, ih]

/-- Requests are granted, all of them, just when there is room. -/
theorem runCalls_granted_iff {pool : MemoryPool} {p : BitVec 64} (hp : CursorOk pool p)
    {rs : List Request} (h : ∀ r ∈ rs, r.Valid) :
    (∀ b ∈ runCalls pool p (rs.map .allocMem), b.ptr ≠ 0#64) ↔ HasRoom pool p rs := by
  have hvalid : ∀ c ∈ rs.map Call.allocMem, c.Valid := List.forall_mem_map.mpr h
  have hgranted : (∀ x ∈ poolAllocator.run pool.limit p.toNat rs, x.2.isSome) ↔
      HasRoom pool p rs := BumpAllocator.run_granted_iff
  have hrun := runCalls_refines pool hp _ hvalid
  rw [requests_map_allocMem] at hrun
  rw [← hrun, List.forall_mem_map] at hgranted
  refine Iff.trans ?_ hgranted
  exact forall₂_congr fun b _ => isSome_blockAt.symm

/-- **Pool allocations are sound over whole runs**: every block handed out
lies in the pool, meets its alignment and boundary, and is disjoint from
every other block ever handed out. -/
theorem allocMem_run_sound (pool : MemoryPool) (calls : List Call) (h : ∀ c ∈ calls, c.Valid) :
    (∀ b ∈ runCalls pool pool.base calls, b.ptr ≠ 0#64 → b.Sound pool) ∧
      (runCalls pool pool.base calls).Pairwise
        (fun a b => a.ptr ≠ 0#64 → b.ptr ≠ 0#64 → a.Disjoint b) :=
  runCalls_sound (cursorOk_base pool) h

/-- A pool at 1 MiB. -/
def poolAtMiB : MemoryPool where
  base := 0x100000#64
  aligned := by decide
  nonnull := by decide
  room := by decide

/-- A transfer ring, a release, and a block longer than its boundary. -/
def sampleCalls : List Call :=
  [.allocMem ⟨512#64, 64#32, 65536#32⟩, .freeMem 0x100000#64, .allocMem ⟨8192#64, 64#32, 4096#32⟩]

theorem sampleCalls_valid : ∀ c ∈ sampleCalls, c.Valid := by
  intro c hc
  simp only [sampleCalls, List.mem_cons, List.not_mem_nil, or_false] at hc
  rcases hc with rfl | rfl | rfl
  · exact ⟨by decide, .inr ⟨6, rfl⟩, .inr ⟨16, rfl⟩⟩
  · trivial
  · exact ⟨by decide, .inr ⟨6, rfl⟩, .inr ⟨12, rfl⟩⟩

/-- The run of `sampleCalls` grants both blocks, the second at the next
boundary. -/
theorem allocMem_run_sound_sample :
    (runCalls poolAtMiB poolAtMiB.base sampleCalls).map Block.ptr = [0x100000#64, 0x101000#64] ∧
      (∀ b ∈ runCalls poolAtMiB poolAtMiB.base sampleCalls, b.ptr ≠ 0#64 → b.Sound poolAtMiB) ∧
      (runCalls poolAtMiB poolAtMiB.base sampleCalls).Pairwise
        (fun a b => a.ptr ≠ 0#64 → b.ptr ≠ 0#64 → a.Disjoint b) :=
  ⟨by decide, allocMem_run_sound poolAtMiB sampleCalls sampleCalls_valid⟩

end MikanOs.Usb
