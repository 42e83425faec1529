import Mathlib.Order.Bounds.Basic
import MikanOs.Usb.Memory

/-!
# MikanOs.Usb.PoolRequests

What a caller of `AllocMem` gets.

* A request that nothing wraps for gets the least address that will do
  (`allocMem_exact`).
* A refused request may have moved `alloc_ptr` all the same; `noEffect_iff`
  says when that is seen in later requests.
* Sizes are 64-bit numbers, and so are the sums and products made of them;
  `oversized_iff` says when one that wraps is taken for a small one.
-/

namespace MikanOs.Usb

/-- A request of a size the pool could serve at all. -/
structure Request.Ordinary (r : Request) : Prop where
  size_le : r.size.toNat ≤ kMemoryPoolSize
  alignment : ZeroOrPowerOfTwo r.alignment
  boundary : ZeroOrPowerOfTwo r.boundary

theorem Request.Ordinary.valid {r : Request} (h : r.Ordinary) : r.Valid :=
  ⟨Nat.le_trans h.size_le (by decide), h.alignment, h.boundary⟩

/-! ## the least address that will do -/

/-- A request for some bytes, no more than may lie between two boundaries. -/
structure Request.Placeable (r : Request) : Prop extends r.Ordinary where
  pos : 0 < r.size.toNat
  within : r.boundary = 0#32 ∨ r.size.toNat ≤ r.boundary.toNat

/-- An address that will do for a request, from the cursor on. -/
structure Usable (r : Request) (p a : Nat) : Prop where
  le : p ≤ a
  aligned : r.alignment ≠ 0#32 → r.alignment.toNat ∣ a
  within : r.boundary ≠ 0#32 → ¬ Straddles r.boundary.toNat a r.size.toNat

theorem toNat_pos_iff {a : BitVec 32} : 0 < a.toNat ↔ a ≠ 0#32 := by
  rw [Nat.pos_iff_ne_zero, ne_eq, ne_eq, ← BitVec.toNat_inj, BitVec.toNat_zero]

/-- The placement will do. -/
theorem usable_place {r : Request} (hr : r.Placeable) (p : Nat) :
    Usable r p (poolAllocator.place p r) where
  le := poolAllocator.le_place p r
  aligned ha := dvd_place hr.valid (toNat_pos_iff.mpr ha) p
  within hb := not_straddles_skipTo (toNat_pos_iff.mpr hb) (hr.within.resolve_left hb) _

/-- And nothing before it will. -/
theorem place_le_of_usable {r : Request} {p a : Nat} (ha : Usable r p a) :
    poolAllocator.place p r ≤ a := by
  have halign : alignTo r.alignment.toNat p ≤ a := by
    unfold alignTo
    split
    · next hpos => exact roundUp_le_of_dvd hpos ha.le (ha.aligned (toNat_pos_iff.mp hpos))
    · exact ha.le
  show skipTo _ _ _ ≤ a
  unfold skipTo
  split
  · next hcross =>
    exact roundUp_le_of_not_straddles halign hcross.2 (ha.within (toNat_pos_iff.mp hcross.1))
  · exact halign

/-- The later the cursor, the later the placement. -/
theorem place_mono {r : Request} (hr : r.Placeable) {p q : Nat} (h : p ≤ q) :
    poolAllocator.place p r ≤ poolAllocator.place q r := by
  have husable := usable_place hr q
  exact place_le_of_usable ⟨Nat.le_trans h husable.le, husable.aligned, husable.within⟩

theorem isLeast_place {r : Request} (hr : r.Placeable) (p : Nat) :
    IsLeast {a | Usable r p a} (poolAllocator.place p r) :=
  ⟨usable_place hr p, fun _ ha => place_le_of_usable ha⟩

/-- **`AllocMem` is exact**: it hands out the least address that will do, and
refuses a request just when the block would end past the pool there. -/
theorem allocMem_exact (pool : MemoryPool) {p : BitVec 64} (hp : p ≠ 0#64) {r : Request}
    (hr : r.Placeable) (hwrap : NoWrap p.toNat r) : ∃ a, IsLeast {a | Usable r p.toNat a} a ∧
      ((r.serve pool p).1 = 0#64 ↔ pool.limit < a + r.size.toNat) ∧
      ((r.serve pool p).1 ≠ 0#64 → (r.serve pool p).1.toNat = a ∧
        (r.serve pool p).2.toNat = a + r.size.toNat) := by
  refine ⟨_, isLeast_place hr p.toNat, ?_⟩
  obtain ⟨hblock, hcursor⟩ := hwrap.serve hr.alignment hr.boundary hp pool
  have hsize : poolAllocator.size r = r.size.toNat := rfl
  unfold BumpAllocator.step at hblock hcursor
  rw [hsize] at hblock hcursor
  by_cases hnull : (r.serve pool p).1 = 0#64
  · rw [hnull, blockAt, if_pos rfl] at hblock
    split at hblock
    · contradiction
    · next hfull =>
      exact ⟨⟨fun _ => Nat.lt_of_not_le hfull, fun _ => hnull⟩, fun h => absurd hnull h⟩
  · rw [blockAt_eq_some hnull] at hblock
    split at hblock
    · next hfit =>
      rw [if_pos hfit] at hcursor
      exact ⟨⟨fun h => absurd h hnull, fun h => absurd hfit (Nat.not_le_of_lt h)⟩,
        fun _ => ⟨Option.some.inj hblock, hcursor⟩⟩
    · contradiction

/-- A block of 6000 bytes that must not cross a boundary of 8192. -/
theorem allocMem_exact_sample : ∃ a,
    IsLeast {a | Usable ⟨6000#64, 64#32, 8192#32⟩ 0x100800 a} a ∧
      ((Request.serve ⟨6000#64, 64#32, 8192#32⟩ poolAtMiB 0x100800#64).1 = 0#64 ↔
        poolAtMiB.limit < a + 6000) ∧
      ((Request.serve ⟨6000#64, 64#32, 8192#32⟩ poolAtMiB 0x100800#64).1 ≠ 0#64 →
        (Request.serve ⟨6000#64, 64#32, 8192#32⟩ poolAtMiB 0x100800#64).1.toNat = a ∧
          (Request.serve ⟨6000#64, 64#32, 8192#32⟩ poolAtMiB 0x100800#64).2.toNat = a + 6000) :=
  allocMem_exact poolAtMiB (p := 0x100800#64) (by decide)
    ⟨⟨by decide, .inr ⟨6, rfl⟩, .inr ⟨13, rfl⟩⟩, by decide, .inr (by decide)⟩
    ⟨by decide, by decide, by decide⟩

/-! ## refused requests -/

/-- What a sequence of requests is answered with. -/
def answers (pool : MemoryPool) (p : BitVec 64) : List Request → List (BitVec 64)
  | [] => []
  | r :: rs => (r.serve pool p).1 :: answers pool (r.serve pool p).2 rs

/-- Later requests do not tell whether `alloc_ptr` is at one place or at
another. -/
def SameAnswers (pool : MemoryPool) (p q : BitVec 64) : Prop :=
  ∀ rs : List Request, (∀ r ∈ rs, r.Ordinary) → answers pool q rs = answers pool p rs

/-- An address where the placement of a request stays. -/
def Settled (r : Request) (p : Nat) : Prop :=
  (r.alignment = 0#32 ∨ r.alignment.toNat ∣ p) ∧
    (r.boundary = 0#32 ∨ r.boundary.toNat ∣ p ∨ ¬ Straddles r.boundary.toNat p r.size.toNat)

theorem alignTo_eq_self_iff (a : BitVec 32) (p : Nat) :
    alignTo a.toNat p = p ↔ a = 0#32 ∨ a.toNat ∣ p := by
  by_cases ha : a = 0#32
  · subst ha
    exact ⟨fun _ => .inl rfl, fun _ => rfl⟩
  · have hpos := toNat_pos_iff.mpr ha
    rw [alignTo, if_pos hpos, or_iff_right ha]
    exact ⟨fun heq => heq ▸ dvd_roundUp _ _, roundUp_eq_of_dvd hpos⟩

theorem skipTo_eq_self_iff (b : BitVec 32) (p size : Nat) : skipTo b.toNat p size = p ↔
    b = 0#32 ∨ b.toNat ∣ p ∨ ¬ Straddles b.toNat p size := by
  by_cases hb : b = 0#32
  · subst hb
    exact ⟨fun _ => .inl rfl, fun _ => rfl⟩
  have hpos := toNat_pos_iff.mpr hb
  rw [or_iff_right hb]
  unfold skipTo
  split
  · next hcross =>
    refine ⟨fun heq => .inl (heq ▸ dvd_roundUp _ _), ?_⟩
    rintro (hdvd | hnot)
    · exact roundUp_eq_of_dvd hpos hdvd
    · exact Nat.le_antisymm (roundUp_le_of_not_straddles (Nat.le_refl p) hcross.2 hnot)
        (le_roundUp hpos p)
  · next hcross =>
    exact ⟨fun _ => .inr (not_straddles_of_le_roundUp hpos (by omega)), fun _ => rfl⟩

/-- The placement moves the cursor unless it stays for both reasons. -/
theorem place_eq_self_iff (r : Request) (p : Nat) :
    poolAllocator.place p r = p ↔ Settled r p := by
  have hle := le_alignTo r.alignment.toNat p
  have hle' := le_skipTo r.boundary.toNat (alignTo r.alignment.toNat p) r.size.toNat
  show skipTo _ (alignTo _ _) _ = p ↔ _
  rw [Settled, ← alignTo_eq_self_iff, ← skipTo_eq_self_iff]
  constructor
  · intro heq
    have halign : alignTo r.alignment.toNat p = p := by omega
    exact ⟨halign, by rwa [halign] at heq⟩
  · rintro ⟨halign, hskip⟩
    rwa [halign]

/-- A refused request leaves the cursor where it would have been placed. -/
theorem serve_refused {pool : MemoryPool} {p : BitVec 64} (hp : CursorOk pool p) {r : Request}
    (hr : r.Valid) (hnull : (r.serve pool p).1 = 0#64) :
    (r.serve pool p).2.toNat = poolAllocator.place p.toNat r := by
  obtain ⟨hblock, hcursor, _⟩ := allocMem_refines hr hp
  rw [hcursor]
  rw [hnull, blockAt, if_pos rfl] at hblock
  unfold BumpAllocator.step at hblock ⊢
  split at hblock
  · contradiction
  · next hfull => rw [if_neg hfull]

/-- Past the end of the pool nothing is granted. -/
theorem answers_of_limit_lt {pool : MemoryPool} {p : BitVec 64} (hp : CursorOk pool p)
    (hend : pool.limit < p.toNat) {rs : List Request} (hrs : ∀ r ∈ rs, r.Ordinary) :
    answers pool p rs = rs.map fun _ => 0#64 := by
  induction rs generalizing p with
  | nil => rfl
  | cons r rs ih =>
      obtain ⟨hr, hrs⟩ := List.forall_mem_cons.mp hrs
      obtain ⟨hblock, hcursor, hok⟩ := allocMem_refines hr.valid hp
      have hfull : ¬ poolAllocator.place p.toNat r + poolAllocator.size r ≤ pool.limit := by
        have hle := poolAllocator.le_place p.toNat r
        omega
      have hlater := Nat.lt_of_lt_of_le hend (poolAllocator.le_step pool.limit p.toNat r)
      rw [← hcursor] at hlater
      rw [BumpAllocator.step, if_neg hfull] at hblock
      have hnull : (r.serve pool p).1 = 0#64 := by
        by_contra hne
        rw [blockAt_eq_some hne] at hblock
        contradiction
      rw [answers, List.map_cons, ih hok hlater hrs, hnull]

/-- A request for nothing is granted where the cursor is. -/
theorem serve_nothing {pool : MemoryPool} {p : BitVec 64} (hp : CursorOk pool p) :
    blockAt (Request.serve ⟨0#64, 0#32, 0#32⟩ pool p).1 =
      if p.toNat ≤ pool.limit then some p.toNat else none := by
  have hr : Request.Ordinary ⟨0#64, 0#32, 0#32⟩ := ⟨by decide, .inl rfl, .inl rfl⟩
  rw [(allocMem_refines hr.valid hp).1]
  show (if p.toNat + 0 ≤ pool.limit then (some p.toNat, p.toNat + 0) else (none, p.toNat)).1 = _
  rw [Nat.add_zero]
  split <;> rfl

/-- **A refused request has no effect** on any later one just when it did not
move `alloc_ptr`, or `alloc_ptr` was past the end of the pool already. -/
theorem noEffect_iff {pool : MemoryPool} {p : BitVec 64} (hp : CursorOk pool p) {r : Request}
    (hr : r.Ordinary) (hnull : (r.serve pool p).1 = 0#64) :
    SameAnswers pool p (r.serve pool p).2 ↔ Settled r p.toNat ∨ pool.limit < p.toNat := by
  have hcursor := serve_refused hp hr.valid hnull
  have hok := (allocMem_refines hr.valid hp).2.2
  have hle := poolAllocator.le_place p.toNat r
  generalize (r.serve pool p).2 = q at hcursor hok
  rw [← place_eq_self_iff, ← hcursor]
  constructor
  · intro hsame
    by_cases hend : pool.limit < p.toNat
    · exact .inr hend
    have hanswer := hsame [⟨0#64, 0#32, 0#32⟩] fun _ hx =>
      List.mem_singleton.mp hx ▸ ⟨by decide, .inl rfl, .inl rfl⟩
    have hblock := congrArg blockAt (List.cons.inj hanswer).1
    rw [serve_nothing hok, serve_nothing hp, if_pos (Nat.le_of_not_lt hend)] at hblock
    split at hblock
    · exact .inl (Option.some.inj hblock)
    · contradiction
  · rintro (heq | hend) rs hrs
    · rw [BitVec.eq_of_toNat_eq heq]
    · rw [answers_of_limit_lt hp hend hrs, answers_of_limit_lt hok (by omega) hrs]

/-- A request for the whole pool, once nothing of it is left. -/
theorem noEffect_exhausted : SameAnswers poolAtMiB 0x120000#64
      (Request.serve ⟨0x20000#64, 4096#32, 4096#32⟩ poolAtMiB 0x120000#64).2 :=
  have cursor : CursorOk poolAtMiB 0x120000#64 := ⟨by decide, by decide⟩
  (noEffect_iff cursor ⟨by decide, .inr ⟨12, rfl⟩, .inr ⟨12, rfl⟩⟩ (by decide)).mpr
    (.inl ⟨.inr (by decide), .inr (.inl (by decide))⟩)

/-- A page-aligned request for the whole pool, after one of eight bytes: it is
refused, and the next eight bytes are a page further on. -/
theorem not_sameAnswers : CursorOk poolAtMiB 0x100008#64 ∧
    (Request.serve ⟨0x20000#64, 4096#32, 4096#32⟩ poolAtMiB 0x100008#64).1 = 0#64 ∧
    ¬ SameAnswers poolAtMiB 0x100008#64
      (Request.serve ⟨0x20000#64, 4096#32, 4096#32⟩ poolAtMiB 0x100008#64).2 := by
  refine ⟨⟨by decide, by decide⟩, by decide, fun hsame => ?_⟩
  have hanswer := hsame [⟨8#64, 0#32, 0#32⟩] fun _ hx =>
    List.mem_singleton.mp hx ▸ ⟨by decide, .inl rfl, .inl rfl⟩
  exact absurd hanswer (by decide)

/-! ## requests for too much -/

/-- What a call owes to a request for exactly so many bytes: nothing, if that
is more than is left of the pool, and in no case does `alloc_ptr` go back. -/
def RefusesTooMuch (pool : MemoryPool) (p : BitVec 64) (exact : Nat)
    (a : BitVec 64 × BitVec 64) : Prop :=
  (pool.limit - p.toNat < exact → a.1 = 0#64) ∧ p.toNat ≤ a.2.toNat

/-- Where a block of so many bytes is placed; an end past the last address is
taken for one below the boundary. -/
def startOf (a b p size : Nat) : Nat :=
  if alignTo a p + size < 2 ^ 64 then skipTo b (alignTo a p) size else alignTo a p

/-- The product and the end of the block are 64-bit numbers; or the end, cut to
64 bits, is past the pool all the same; or there is no telling the block from a
refusal. -/
def NotMistaken (pool : MemoryPool) (a b p exact size : Nat) : Prop :=
  (exact < 2 ^ 64 ∧ startOf a b p size + size < 2 ^ 64) ∨
    pool.limit < (startOf a b p size + size) % 2 ^ 64 ∨ p = 0

theorem le_startOf (a b p size : Nat) : p ≤ startOf a b p size := by
  have hle := le_alignTo a p
  unfold startOf
  split
  · exact Nat.le_trans hle (le_skipTo _ _ _)
  · exact hle

/-- Each of the two adjustments moves the cursor by less than its
constraint. -/
theorem startOf_le (a b p size : Nat) : startOf a b p size ≤ p + (a - 1) + (b - 1) := by
  have halign : alignTo a p ≤ p + (a - 1) := by
    unfold alignTo
    split
    · next hpos =>
      have hlt := roundUp_lt hpos p
      omega
    · exact Nat.le_add_right p _
  have hskip : skipTo b (alignTo a p) size ≤ alignTo a p + (b - 1) := by
    unfold skipTo
    split
    · next hcross =>
      have hlt := roundUp_lt hcross.1 (alignTo a p)
      omega
    · exact Nat.le_add_right _ _
  unfold startOf
  split <;> omega

theorem startOf_zero (a b size : Nat) : startOf a b 0 size = 0 := by
  have halign : alignTo a 0 = 0 := by
    unfold alignTo
    split
    · next hpos => exact roundUp_eq_of_dvd hpos (Nat.dvd_zero a)
    · rfl
  unfold startOf skipTo
  rw [halign]
  split
  · split
    · next hcross => exact roundUp_eq_of_dvd hcross.1 (Nat.dvd_zero b)
    · rfl
  · rfl

/-- The code places a block of any 64-bit size there. -/
theorem toNat_placed_eq_startOf {pool : MemoryPool} {a b : BitVec 32} (ha : ZeroOrPowerOfTwo a)
    (hb : ZeroOrPowerOfTwo b) {p : BitVec 64} (hp : p.toNat ≤ pool.top) (size : BitVec 64) :
    (placed p size a b).toNat = startOf a.toNat b.toNat p.toNat size.toNat := by
  have hwrap := noWrap_of_le_top (r := ⟨0#64, a, b⟩) ⟨Nat.zero_le _, ha, hb⟩ pool hp
  have hlt : alignTo a.toNat p.toNat < 2 ^ 64 :=
    Nat.lt_of_le_of_lt (le_skipTo _ _ _) (Nat.lt_of_add_right_lt hwrap.stop)
  have hsize := size.isLt
  rw [toNat_placed ha hb size hwrap.align hwrap.boundary, startOf]
  split
  · next hend => rw [Nat.mod_eq_of_lt hend, Nat.add_sub_cancel_left]
  · next hend =>
    -- the comparison with the boundary is with what is left of the end
    have hsub : (alignTo a.toNat p.toNat + size.toNat) % 2 ^ 64 - alignTo a.toNat p.toNat = 0 := by
      omega
    rw [hsub]
    unfold skipTo
    split
    · next hcross =>
      exact absurd (le_roundUp hcross.1 (alignTo a.toNat p.toNat)) (Nat.not_le_of_lt hcross.2)
    · rfl

/-- `AllocMem` of any size, in numbers. -/
theorem allocMem_toNat {pool : MemoryPool} {a b : BitVec 32} (ha : ZeroOrPowerOfTwo a)
    (hb : ZeroOrPowerOfTwo b) {p : BitVec 64} (hp : p.toNat ≤ pool.top) (size : BitVec 64) :
    let start := startOf a.toNat b.toNat p.toNat size.toNat
    let stop := (start + size.toNat) % 2 ^ 64
    ((allocMem pool p size a b).1.toNat, (allocMem pool p size a b).2.toNat) =
      if pool.limit < stop then (0, start) else (start, stop) := by
  have hstart := toNat_placed_eq_startOf ha hb hp size
  unfold allocMem
  generalize placed p size a b = q at hstart
  have hfull : pool.base + BitVec.ofNat 64 kMemoryPoolSize < q + size ↔
      pool.limit < (startOf a.toNat b.toNat p.toNat size.toNat + size.toNat) % 2 ^ 64 := by
    rw [BitVec.lt_def, pool.toNat_limit, BitVec.toNat_add, hstart]
  simp only [hfull]
  split
  · rw [hstart]
    rfl
  · rw [BitVec.toNat_add, hstart]

/-- A call of `AllocMem` for a size that stands for so many bytes. -/
theorem refusesTooMuch_iff {pool : MemoryPool} {a b : BitVec 32} (ha : ZeroOrPowerOfTwo a)
    (hb : ZeroOrPowerOfTwo b) {p : BitVec 64} (hp : p.toNat ≤ pool.top) {exact : Nat}
    {size : BitVec 64} (hsize : size.toNat = exact % 2 ^ 64) :
    RefusesTooMuch pool p exact (allocMem pool p size a b) ↔
      NotMistaken pool a.toNat b.toNat p.toNat exact size.toNat := by
  have hcall := allocMem_toNat ha hb hp size
  have hle := le_startOf a.toNat b.toNat p.toNat size.toNat
  have hmax := startOf_le a.toNat b.toNat p.toNat size.toNat
  have hzero : p.toNat = 0 → startOf a.toNat b.toNat p.toNat size.toNat = 0 := by
    intro h0
    rw [h0]
    exact startOf_zero _ _ _
  have ha31 := ha.le
  have hb31 := hb.le
  have hlt := size.isLt
  have hroom : pool.limit + 2 ^ 32 ≤ 2 ^ 64 := pool.room
  have hnull : (allocMem pool p size a b).1 = 0#64 ↔ (allocMem pool p size a b).1.toNat = 0 := by
    rw [← BitVec.toNat_inj, BitVec.toNat_zero]
  unfold RefusesTooMuch NotMistaken
  rw [hnull]
  generalize startOf a.toNat b.toNat p.toNat size.toNat = start at *
  simp only at hcall
  split at hcall
  · next hfull =>
    obtain ⟨hptr, hcursor⟩ := Prod.mk.inj hcall
    rw [hptr, hcursor]
    exact ⟨fun _ => .inr (.inl hfull), fun _ => ⟨fun _ => rfl, hle⟩⟩
  · next hfull =>
    obtain ⟨hptr, hcursor⟩ := Prod.mk.inj hcall
    rw [hptr, hcursor]
    clear hcall hnull hptr hcursor
    constructor
    · rintro ⟨hrefuse, hback⟩
      by_cases h0 : p.toNat = 0
      · exact .inr (.inr h0)
      -- granted: the bytes asked for are no more than are left, so no sum wrapped
      have hexact : ¬ pool.limit - p.toNat < exact := fun hmany => by
        have hstart := hrefuse hmany
        omega
      exact .inl ⟨by omega, by omega⟩
    · rintro (⟨hfits, hstop⟩ | hover | h0)
      · rw [Nat.mod_eq_of_lt hstop] at hfull ⊢
        exact ⟨fun hmany => by omega, by omega⟩
      · exact absurd hover hfull
      · exact ⟨fun _ => hzero h0, by omega⟩

/-- The values `alloc_ptr` takes over any calls whatever of the pool's
interface. -/
inductive AllocPtr (pool : MemoryPool) : BitVec 64 → Prop
  | initial : AllocPtr pool pool.base
  | call {p : BitVec 64} (h : AllocPtr pool p) (size : BitVec 64) {a b : BitVec 32}
      (ha : ZeroOrPowerOfTwo a) (hb : ZeroOrPowerOfTwo b) :
      AllocPtr pool (allocMem pool p size a b).2

/-- Wraps or not, `alloc_ptr` stays at or below `top`. -/
theorem AllocPtr.le_top {pool : MemoryPool} {p : BitVec 64} (h : AllocPtr pool p) :
    p.toNat ≤ pool.top := by
  induction h with
  | initial => exact (cursorOk_base pool).le_top
  | @call p _ size a b ha hb ih =>
      have hcall := allocMem_toNat ha hb ih size
      have halign := alignTo_le_top ha pool ih
      have hstart : startOf a.toNat b.toNat p.toNat size.toNat ≤ pool.top := by
        unfold startOf
        split
        · exact skipTo_le_top hb pool halign _
        · exact halign
      have hlimit := pool.limit_le_top
      simp only at hcall
      split at hcall
      · exact (Prod.mk.inj hcall).2 ▸ hstart
      · rw [(Prod.mk.inj hcall).2]
        omega

/-- **Oversized requests**, of `AllocArray` and of `AllocMem`: they are refused
and leave `alloc_ptr` no lower just when no sum and no product that wraps is
taken for a small one. -/
theorem oversized_iff {pool : MemoryPool} {p : BitVec 64} (hp : AllocPtr pool p) {a b : BitVec 32}
    (ha : ZeroOrPowerOfTwo a) (hb : ZeroOrPowerOfTwo b) (sizeofT numObj size : BitVec 64) :
    (RefusesTooMuch pool p (sizeofT.toNat * numObj.toNat)
        (allocArray pool p sizeofT.toNat numObj a b) ↔
      NotMistaken pool a.toNat b.toNat p.toNat (sizeofT.toNat * numObj.toNat)
        (sizeofT.toNat * numObj.toNat % 2 ^ 64)) ∧
      (RefusesTooMuch pool p size.toNat (allocMem pool p size a b) ↔
        NotMistaken pool a.toNat b.toNat p.toNat size.toNat size.toNat) := by
  have hprod : (BitVec.ofNat 64 sizeofT.toNat * numObj).toNat =
      sizeofT.toNat * numObj.toNat % 2 ^ 64 := by
    rw [BitVec.toNat_mul, BitVec.toNat_ofNat, Nat.mod_mul_mod]
  constructor
  · rw [← hprod]
    exact refusesTooMuch_iff ha hb hp.le_top hprod
  · exact refusesTooMuch_iff ha hb hp.le_top (Nat.mod_eq_of_lt size.isLt).symm

/-- 1 TiB at once, and 2 ^ 40 objects of 1 MiB, from the initial `alloc_ptr`. -/
theorem oversized_refused :
    RefusesTooMuch poolAtMiB poolAtMiB.base (0x100000 * 0x10000000000)
        (allocArray poolAtMiB poolAtMiB.base 0x100000 0x10000000000#64 64#32 4096#32) ∧
      RefusesTooMuch poolAtMiB poolAtMiB.base 0x10000000000
        (allocMem poolAtMiB poolAtMiB.base 0x10000000000#64 64#32 4096#32) :=
  have start : AllocPtr poolAtMiB poolAtMiB.base := .initial
  have h := oversized_iff start (a := 64#32) (b := 4096#32) (.inr ⟨6, rfl⟩) (.inr ⟨12, rfl⟩)
    0x100000#64 0x10000000000#64 0x10000000000#64
  ⟨h.1.mpr (.inl ⟨by decide, by decide⟩), h.2.mpr (.inl ⟨by decide, by decide⟩)⟩

/-- 2 ^ 60 contexts of 16 bytes are no bytes at all, and are granted; a block
that ends past the last address is granted and takes `alloc_ptr` back to its
first value, where the next block is the one already given out. -/
theorem not_refusesTooMuch :
    ¬ RefusesTooMuch poolAtMiB poolAtMiB.base (16 * 2 ^ 60)
        (allocArray poolAtMiB poolAtMiB.base 16 0x1000000000000000#64 64#32 4096#32) ∧
      allocMem poolAtMiB poolAtMiB.base 512#64 64#32 0#32 = (0x100000#64, 0x100200#64) ∧
      allocMem poolAtMiB 0x100200#64 0xFFFFFFFFFFFFFE00#64 64#32 0#32 =
        (0x100200#64, 0x100000#64) ∧
      ¬ RefusesTooMuch poolAtMiB 0x100200#64 0xFFFFFFFFFFFFFE00
        (allocMem poolAtMiB 0x100200#64 0xFFFFFFFFFFFFFE00#64 64#32 0#32) := by
  refine ⟨?_, by decide, by decide, ?_⟩
  · rintro ⟨h, -⟩
    exact absurd (h (by decide)) (by decide)
  · rintro ⟨h, -⟩
    exact absurd (h (by decide)) (by decide)

end MikanOs.Usb
