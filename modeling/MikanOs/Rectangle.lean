import Mathlib.Order.BooleanAlgebra.Set
import MikanOs.Graphics

/-!
# MikanOs.Rectangle

Rectangles (`graphics.cpp`).  `FillRectangle` writes all the pixels from
`pos` up to but not including `pos + size`, and `DrawRectangle` those on the
four sides.

`drawsOutline_iff` says for which sizes the two agree on what the rectangle
is.
-/

namespace MikanOs

/-! ## the code -/

/-- What `i` goes through in `for (int i = first; i < last; ++i)`. -/
def counts (first : Nat) (last : BitVec 32) : List (BitVec 32) :=
  (List.range' first (last.toInt.toNat - first)).map (BitVec.ofNat 32)

/-- `writer.Write(x, y, c)`. -/
def writePixel (x y : BitVec 32) (c : PixelColor) : Write := (⟨x.toInt, y.toInt⟩, c)

/-- `DrawRectangle`. -/
def drawRectangle (pos size : Vector2D (BitVec 32)) (c : PixelColor) : List Write :=
  ((counts 0 size.x).flatMap fun dx =>
    [writePixel (pos.x + dx) pos.y c, writePixel (pos.x + dx) (pos.y + size.y - 1#32) c]) ++
  (counts 1 (size.y - 1#32)).flatMap fun dy =>
    [writePixel pos.x (pos.y + dy) c, writePixel (pos.x + size.x - 1#32) (pos.y + dy) c]

/-- `FillRectangle`. -/
def fillRectangle (pos size : Vector2D (BitVec 32)) (c : PixelColor) : List Write :=
  (counts 0 size.y).flatMap fun dy =>
    (counts 0 size.x).map fun dx => writePixel (pos.x + dx) (pos.y + dy) c

/-! ## rectangles -/

/-- The pixels from `pos` up to but not including `pos + size`. -/
def rectangle (pos size : Vector2D Int) : Set (Vector2D Int) :=
  {p | (pos.x ≤ p.x ∧ p.x < pos.x + size.x) ∧ pos.y ≤ p.y ∧ p.y < pos.y + size.y}

/-- The pixels that are written. -/
def pixels (ws : List Write) : Set (Vector2D Int) := {p | p ∈ Canvas.touched ws}

/-- The corner of a rectangle without the pixels on its sides. -/
def shrunkPos (pos : Vector2D (BitVec 32)) : Vector2D (BitVec 32) := ⟨pos.x + 1#32, pos.y + 1#32⟩

/-- The size of a rectangle without the pixels on its sides. -/
def shrunkSize (size : Vector2D (BitVec 32)) : Vector2D (BitVec 32) :=
  ⟨size.x - 2#32, size.y - 2#32⟩

/-- `DrawRectangle` writes the pixels of a rectangle that are on its sides,
and no others. -/
structure DrawsOutline (pos size : Vector2D (BitVec 32)) (c : PixelColor) : Prop where
  outline : pixels (drawRectangle pos size c) =
    pixels (fillRectangle pos size c) \ pixels (fillRectangle (shrunkPos pos) (shrunkSize size) c)
  inside : pixels (drawRectangle pos size c) ⊆ rectangle (exact pos) (exact size)
  empty : size.x = 0 ∨ size.y = 0 → drawRectangle pos size c = []

/-! ## the loops -/

variable {first : Nat} {last : BitVec 32}

theorem counts_eq_nil_iff : counts first last = [] ↔ last.toInt.toNat ≤ first := by
  rw [counts, List.map_eq_nil_iff, List.range'_eq_nil_iff, Nat.sub_eq_zero_iff_le]

theorem mem_counts {d : BitVec 32} :
    d ∈ counts first last ↔ first ≤ d.toInt ∧ d.toInt < last.toInt := by
  have hlast := BitVec.toInt_lt (x := last)
  unfold counts
  rw [List.mem_map]
  constructor
  · rintro ⟨k, hk, rfl⟩
    rw [List.mem_range'_1] at hk
    rw [toInt_ofNat_of_lt (by omega)]
    omega
  · rintro ⟨hle, hlt⟩
    refine ⟨d.toInt.toNat, List.mem_range'_1.mpr (by omega), ?_⟩
    apply BitVec.eq_of_toInt_eq
    rw [toInt_ofNat_of_lt (by omega)]
    omega

/-- The coordinates a loop goes through, if they can be counted. -/
theorem exists_counts {pos : BitVec 32} (h : pos.toInt + last.toInt ≤ 2 ^ 31) {z : Int} :
    (∃ d ∈ counts first last, z = (pos + d).toInt) ↔
      pos.toInt + first ≤ z ∧ z < pos.toInt + last.toInt := by
  have hpos := BitVec.le_toInt (x := pos)
  simp only [mem_counts]
  constructor
  · rintro ⟨d, ⟨hle, hlt⟩, rfl⟩
    rw [toInt_add_of_range (by omega) (by omega)]
    omega
  · rintro ⟨hle, hlt⟩
    have hlast := BitVec.toInt_lt (x := last)
    have hd : (BitVec.ofNat 32 (z - pos.toInt).toNat).toInt = (z - pos.toInt).toNat :=
      toInt_ofNat_of_lt (by omega)
    refine ⟨BitVec.ofNat 32 (z - pos.toInt).toNat, by omega, ?_⟩
    rw [toInt_add_of_range (by omega) (by omega)]
    omega

/-- A length made shorter, which may leave it negative. -/
theorem toInt_sub_ofNat {size : BitVec 32} (h : 0 ≤ size.toInt) {n : Nat} (hn : n < 2 ^ 31) :
    (size - BitVec.ofNat 32 n).toInt = size.toInt - n := by
  have hsize := BitVec.toInt_lt (x := size)
  rw [BitVec.toInt_sub, toInt_ofNat_of_lt hn]
  exact Int.bmod_eq_of_le (by omega) (by omega)

/-- The last coordinate, as `DrawRectangle` computes it. -/
theorem toInt_last {pos size : BitVec 32} (hsize : 0 < size.toInt)
    (h : pos.toInt + size.toInt ≤ 2 ^ 31) :
    (pos + size - 1#32).toInt = pos.toInt + size.toInt - 1 := by
  have hpos := BitVec.le_toInt (x := pos)
  have hlast := toInt_sub_ofNat (Int.le_of_lt hsize) (n := 1) (by omega)
  rw [BitVec.sub_eq_add_neg, BitVec.add_assoc, ← BitVec.sub_eq_add_neg,
    toInt_add_of_range] <;> omega

/-! ## the pixels of each routine -/

variable {pos size : Vector2D (BitVec 32)} {c : PixelColor} {p : Vector2D Int}

theorem mem_rectangle {pos size : Vector2D Int} : p ∈ rectangle pos size ↔
    (pos.x ≤ p.x ∧ p.x < pos.x + size.x) ∧ pos.y ≤ p.y ∧ p.y < pos.y + size.y := Iff.rfl

theorem mem_pixels {ws : List Write} : p ∈ pixels ws ↔ p ∈ Canvas.touched ws := Iff.rfl

theorem pixels_nil : pixels [] = ∅ := Set.eq_empty_of_forall_notMem fun _ => List.not_mem_nil

theorem mem_fillRectangle : p ∈ pixels (fillRectangle pos size c) ↔
    (∃ dx ∈ counts 0 size.x, p.x = (pos.x + dx).toInt) ∧
      ∃ dy ∈ counts 0 size.y, p.y = (pos.y + dy).toInt := by
  obtain ⟨x, y⟩ := p
  unfold fillRectangle writePixel
  simp only [mem_pixels, Canvas.touched, List.mem_map, List.mem_flatMap]
  constructor
  · rintro ⟨_, ⟨dy, hdy, dx, hdx, rfl⟩, heq⟩
    rw [Vector2D.mk.injEq] at heq
    exact ⟨⟨dx, hdx, heq.1.symm⟩, dy, hdy, heq.2.symm⟩
  · rintro ⟨⟨dx, hdx, rfl⟩, dy, hdy, rfl⟩
    exact ⟨_, ⟨dy, hdy, dx, hdx, rfl⟩, rfl⟩

theorem mem_drawRectangle : p ∈ pixels (drawRectangle pos size c) ↔
    ((∃ dx ∈ counts 0 size.x, p.x = (pos.x + dx).toInt) ∧
        (p.y = pos.y.toInt ∨ p.y = (pos.y + size.y - 1#32).toInt)) ∨
      (p.x = pos.x.toInt ∨ p.x = (pos.x + size.x - 1#32).toInt) ∧
        ∃ dy ∈ counts 1 (size.y - 1#32), p.y = (pos.y + dy).toInt := by
  obtain ⟨x, y⟩ := p
  unfold drawRectangle writePixel
  simp only [mem_pixels, Canvas.touched, List.mem_map, List.mem_append, List.mem_flatMap,
    List.mem_cons, List.not_mem_nil, or_false]
  constructor
  · rintro ⟨_, ⟨dx, hdx, rfl | rfl⟩ | ⟨dy, hdy, rfl | rfl⟩, heq⟩ <;>
      rw [Vector2D.mk.injEq] at heq <;> obtain ⟨rfl, rfl⟩ := heq
    · exact .inl ⟨⟨dx, hdx, rfl⟩, .inl rfl⟩
    · exact .inl ⟨⟨dx, hdx, rfl⟩, .inr rfl⟩
    · exact .inr ⟨.inl rfl, dy, hdy, rfl⟩
    · exact .inr ⟨.inr rfl, dy, hdy, rfl⟩
  · rintro (⟨⟨dx, hdx, rfl⟩, rfl | rfl⟩ | ⟨rfl | rfl, dy, hdy, rfl⟩)
    · exact ⟨_, .inl ⟨dx, hdx, .inl rfl⟩, rfl⟩
    · exact ⟨_, .inl ⟨dx, hdx, .inr rfl⟩, rfl⟩
    · exact ⟨_, .inr ⟨dy, hdy, .inl rfl⟩, rfl⟩
    · exact ⟨_, .inr ⟨dy, hdy, .inr rfl⟩, rfl⟩

/-- **`FillRectangle` fills the rectangle.** -/
theorem pixels_fillRectangle (hx : pos.x.toInt + size.x.toInt ≤ 2 ^ 31)
    (hy : pos.y.toInt + size.y.toInt ≤ 2 ^ 31) :
    pixels (fillRectangle pos size c) = rectangle (exact pos) (exact size) := by
  ext p
  rw [mem_fillRectangle, exists_counts hx, exists_counts hy, Int.natCast_zero, Int.add_zero,
    Int.add_zero]
  rfl

/-- Without a width or a height there is nothing to fill. -/
theorem fillRectangle_eq_nil (h : size.x.toInt ≤ 0 ∨ size.y.toInt ≤ 0) :
    fillRectangle pos size c = [] := by
  unfold fillRectangle
  rcases h with hx | hy
  · have hcounts : counts 0 size.x = [] := counts_eq_nil_iff.mpr (by omega)
    exact List.flatMap_eq_nil_iff.mpr fun _ _ => List.map_eq_nil_iff.mpr hcounts
  · have hcounts : counts 0 size.y = [] := counts_eq_nil_iff.mpr (by omega)
    exact congrArg (List.flatMap _) hcounts

/-- The rectangle without its sides. -/
def interior (pos size : Vector2D Int) : Set (Vector2D Int) :=
  rectangle ⟨pos.x + 1, pos.y + 1⟩ ⟨size.x - 2, size.y - 2⟩

/-- `FillRectangle` of the shrunk rectangle fills what is inside the sides. -/
theorem pixels_shrunk (hx : 0 ≤ size.x.toInt) (hy : 0 ≤ size.y.toInt)
    (hx' : pos.x.toInt + size.x.toInt ≤ 2 ^ 31) (hy' : pos.y.toInt + size.y.toInt ≤ 2 ^ 31) :
    pixels (fillRectangle (shrunkPos pos) (shrunkSize size) c) =
      interior (exact pos) (exact size) := by
  have hw : (shrunkSize size).x.toInt = size.x.toInt - 2 := toInt_sub_ofNat hx (n := 2) (by omega)
  have hh : (shrunkSize size).y.toInt = size.y.toInt - 2 := toInt_sub_ofNat hy (n := 2) (by omega)
  have hone : (1#32).toInt = 1 := by decide
  by_cases hsmall : size.x.toInt ≤ 2 ∨ size.y.toInt ≤ 2
  · rw [fillRectangle_eq_nil (by omega), pixels_nil, eq_comm, Set.eq_empty_iff_forall_notMem]
    intro p
    rw [interior, mem_rectangle]
    simp only [exact]
    omega
  · have hlower := BitVec.le_toInt (x := pos.x)
    have hlower' := BitVec.le_toInt (x := pos.y)
    have hleft : (shrunkPos pos).x.toInt = pos.x.toInt + 1 := by
      rw [← hone]
      exact toInt_add_of_range (by omega) (by omega)
    have htop : (shrunkPos pos).y.toInt = pos.y.toInt + 1 := by
      rw [← hone]
      exact toInt_add_of_range (by omega) (by omega)
    rw [pixels_fillRectangle (by omega) (by omega), exact, exact, hw, hh, hleft, htop]
    rfl

/-- **The sides of a rectangle.**  `DrawRectangle` writes what is not inside
them, as long as there is a pixel in the rectangle. -/
theorem pixels_drawRectangle (hx : 0 < size.x.toInt) (hy : 0 < size.y.toInt)
    (hx' : pos.x.toInt + size.x.toInt ≤ 2 ^ 31) (hy' : pos.y.toInt + size.y.toInt ≤ 2 ^ 31) :
    pixels (drawRectangle pos size c) =
      rectangle (exact pos) (exact size) \ interior (exact pos) (exact size) := by
  have hbottom := toInt_sub_ofNat (Int.le_of_lt hy) (n := 1) (by omega)
  ext p
  rw [mem_drawRectangle, exists_counts hx', exists_counts (by omega), toInt_last hx hx',
    toInt_last hy hy', hbottom, Set.mem_sdiff, interior, mem_rectangle, mem_rectangle]
  simp only [exact]
  omega

/-! ## the outline -/

/-- When `DrawRectangle` writes nothing at all. -/
theorem drawRectangle_eq_nil_iff (hy : 0 ≤ size.y.toInt) :
    drawRectangle pos size c = [] ↔ size.x.toInt ≤ 0 ∧ size.y.toInt ≤ 2 := by
  have hbottom := toInt_sub_ofNat hy (n := 1) (by omega)
  have hnil : ∀ (ds : List (BitVec 32)) (f g : BitVec 32 → Write),
      (ds.flatMap fun d => [f d, g d]) = [] ↔ ds = [] := by
    intro ds f g
    cases ds with
    | nil => simp
    | cons d ds => simp
  rw [drawRectangle, List.append_eq_nil_iff, hnil, hnil, counts_eq_nil_iff, counts_eq_nil_iff]
  omega

/-- Of an empty rectangle there is nothing to draw. -/
theorem drawsOutline_iff_of_empty (hempty : size.x.toInt = 0 ∨ size.y.toInt = 0) :
    DrawsOutline pos size c ↔ drawRectangle pos size c = [] := by
  have hzero : size.x = 0 ∨ size.y = 0 :=
    hempty.imp BitVec.eq_of_toInt_eq BitVec.eq_of_toInt_eq
  constructor
  · exact fun h => h.empty hzero
  · intro h
    have hnone : pixels (drawRectangle pos size c) = ∅ := h ▸ pixels_nil
    refine ⟨?_, hnone ▸ Set.empty_subset _, fun _ => h⟩
    rw [hnone, fillRectangle_eq_nil (by omega), pixels_nil]
    exact (Set.empty_sdiff _).symm

/-- Of a rectangle with a pixel in it `DrawRectangle` draws the outline. -/
theorem drawsOutline_of_pos (hx : 0 < size.x.toInt) (hy : 0 < size.y.toInt)
    (hx' : pos.x.toInt + size.x.toInt ≤ 2 ^ 31) (hy' : pos.y.toInt + size.y.toInt ≤ 2 ^ 31) :
    DrawsOutline pos size c where
  outline := by
    rw [pixels_drawRectangle hx hy hx' hy', pixels_fillRectangle hx' hy',
      pixels_shrunk (Int.le_of_lt hx) (Int.le_of_lt hy) hx' hy']
  inside := by
    rw [pixels_drawRectangle hx hy hx' hy']
    exact Set.sdiff_subset
  empty := by
    rintro (hzero | hzero)
    · exact absurd (congrArg BitVec.toInt hzero) (Int.ne_of_gt hx)
    · exact absurd (congrArg BitVec.toInt hzero) (Int.ne_of_gt hy)

/-- **When `DrawRectangle` draws the outline.**  It does for every rectangle
with a pixel in it.  Of an empty one it still draws the sides that have a
length: top and bottom with any width, left and right with a height of three
or more. -/
theorem drawsOutline_iff (hx : 0 ≤ size.x.toInt) (hy : 0 ≤ size.y.toInt)
    (hrange : ∀ p ∈ rectangle (exact pos) (exact size), p.x < 2 ^ 31 ∧ p.y < 2 ^ 31)
    (c : PixelColor) :
    DrawsOutline pos size c ↔
      (size.y.toInt = 0 → size.x.toInt = 0) ∧ (size.x.toInt = 0 → size.y.toInt ≤ 2) := by
  by_cases hempty : size.x.toInt = 0 ∨ size.y.toInt = 0
  · rw [drawsOutline_iff_of_empty hempty, drawRectangle_eq_nil_iff hy]
    omega
  · have hcorner := hrange ⟨pos.x.toInt + size.x.toInt - 1, pos.y.toInt + size.y.toInt - 1⟩ (by
      rw [mem_rectangle]
      simp only [exact]
      omega)
    have hx' : pos.x.toInt + size.x.toInt ≤ 2 ^ 31 := Int.sub_one_lt_iff.mp hcorner.1
    have hy' : pos.y.toInt + size.y.toInt ≤ 2 ^ 31 := Int.sub_one_lt_iff.mp hcorner.2
    exact iff_of_true (drawsOutline_of_pos (by omega) (by omega) hx' hy')
      ⟨fun h => absurd (.inr h) hempty, fun h => absurd (.inl h) hempty⟩

/-- A square of three pixels a side, at the upper left. -/
theorem drawsOutline_square :
    DrawsOutline ⟨0#32, 0#32⟩ ⟨3#32, 3#32⟩ ⟨0, 0, 0⟩ ↔
      ((3#32).toInt = 0 → (3#32).toInt = 0) ∧ ((3#32).toInt = 0 → (3#32).toInt ≤ 2) := by
  refine drawsOutline_iff (by decide) (by decide) ?_ ⟨0, 0, 0⟩
  rintro p ⟨⟨_, hx⟩, _, hy⟩
  have hx : p.x < 3 := hx
  have hy : p.y < 3 := hy
  omega

/-- A rectangle of no height that leaves two pixels on the screen. -/
theorem not_drawsOutline_flat :
    fillRectangle ⟨10#32, 10#32⟩ ⟨1#32, 0#32⟩ ⟨0, 0, 0⟩ = [] ∧
      drawRectangle ⟨10#32, 10#32⟩ ⟨1#32, 0#32⟩ ⟨0, 0, 0⟩ =
        [(⟨10, 10⟩, ⟨0, 0, 0⟩), (⟨10, 9⟩, ⟨0, 0, 0⟩)] ∧
      ¬ DrawsOutline ⟨10#32, 10#32⟩ ⟨1#32, 0#32⟩ ⟨0, 0, 0⟩ := by
  refine ⟨by decide, by decide, fun h => ?_⟩
  exact absurd (h.empty (.inr rfl)) (by decide)

end MikanOs
