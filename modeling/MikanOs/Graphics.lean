import Mathlib.Algebra.Group.Int.Defs
import Mathlib.Data.List.Nodup
import MikanOs.Lib.ByteMemory
import MikanOs.Lib.Canvas

/-!
# MikanOs.Graphics

Pixels (`graphics.hpp`, `graphics.cpp`).  What draws is modelled by the list of
its calls of `Write`; `PixelWriter.write` is what such a call stores in the
frame buffer.

`pixel_write` connects the two: on the screen, a call of `Write` gives its
pixel the colour and leaves the other pixels alone.
-/

namespace MikanOs

/-- `PixelColor`. -/
structure PixelColor where
  r : BitVec 8
  g : BitVec 8
  b : BitVec 8
  deriving DecidableEq, Repr

/-- `Vector2D`. -/
structure Vector2D (T : Type) where
  x : T
  y : T
  deriving DecidableEq, Repr

/-- A call of `Write`. -/
abbrev Write := Vector2D Int × PixelColor

/-! ## `int`s -/

/-- A position as it is. -/
def exact (position : Vector2D (BitVec 32)) : Vector2D Int := ⟨position.x.toInt, position.y.toInt⟩

/-- The sum of two `int`s, if it is one. -/
theorem toInt_add_of_range {a b : BitVec 32} (hlower : -2 ^ 31 ≤ a.toInt + b.toInt)
    (hupper : a.toInt + b.toInt < 2 ^ 31) : (a + b).toInt = a.toInt + b.toInt := by
  rw [BitVec.toInt_add, Int.bmod_def]
  split <;> omega

/-- The sum of two `int`s that is too large. -/
theorem toInt_add_neg {a b : BitVec 32} (h : 2 ^ 31 ≤ a.toInt + b.toInt) : (a + b).toInt < 0 := by
  have ha := BitVec.toInt_lt (x := a)
  have hb := BitVec.toInt_lt (x := b)
  rw [BitVec.toInt_add, Int.bmod_def]
  split <;> omega

theorem toInt_ofNat_of_lt {n : Nat} (h : n < 2 ^ 31) : (BitVec.ofNat 32 n).toInt = n := by
  have hn : n % 2 ^ 32 = n := Nat.mod_eq_of_lt (by omega)
  rw [BitVec.toInt_eq_toNat_of_lt] <;> rw [BitVec.toNat_ofNat, hn]
  omega

/-! ## the screen as memory -/

/-- `PixelFormat`. -/
inductive PixelFormat
  | kPixelRGBResv8BitPerColor
  | kPixelBGRResv8BitPerColor
  deriving DecidableEq, Repr

/-- `FrameBufferConfig`. -/
structure FrameBufferConfig where
  frameBuffer : BitVec 64
  pixelsPerScanLine : BitVec 32
  horizontalResolution : BitVec 32
  verticalResolution : BitVec 32
  pixelFormat : PixelFormat
  deriving DecidableEq, Repr

namespace FrameBufferConfig

variable (config : FrameBufferConfig)

/-- A pixel of the screen. -/
structure OnScreen (p : Vector2D Int) : Prop where
  x_nonneg : 0 ≤ p.x
  x_lt : p.x < config.horizontalResolution.toNat
  y_nonneg : 0 ≤ p.y
  y_lt : p.y < config.verticalResolution.toNat

/-- The number of bytes of the frame buffer. -/
def size : Nat :=
  4 * (config.pixelsPerScanLine.toNat * config.verticalResolution.toNat)

/-- A byte of the frame buffer. -/
def InFrameBuffer (a : BitVec 64) : Prop :=
  ∃ off < config.size, a = config.frameBuffer + BitVec.ofNat 64 off

/-! ## the code -/

/-- What `PixelAt` adds to `frame_buffer`, in `uint32_t` arithmetic. -/
def pixelOffset (x y : Int) : BitVec 32 :=
  4#32 * (config.pixelsPerScanLine * BitVec.ofInt 32 y + BitVec.ofInt 32 x)

/-- `PixelAt`. -/
def pixelAt (x y : Int) : BitVec 64 :=
  config.frameBuffer + (config.pixelOffset x y).setWidth 64

/-- The bytes of a pixel, in the order of the format. -/
def pixelBytes (c : PixelColor) : List (BitVec 8) :=
  match config.pixelFormat with
  | .kPixelRGBResv8BitPerColor => [c.r, c.g, c.b]
  | .kPixelBGRResv8BitPerColor => [c.b, c.g, c.r]

/-- The bytes that `Write` of either writer stores. -/
def stores (w : Write) : List (BitVec 64 × BitVec 8) :=
  (config.pixelBytes w.2).zipIdx.map fun (byte, k) =>
    (config.pixelAt w.1.x w.1.y + BitVec.ofNat 64 k, byte)

variable {config}

/-! ## addresses on the screen -/

/-- The offset of a pixel, before it is taken modulo `2 ^ 32`. -/
def index (config : FrameBufferConfig) (p : Vector2D Int) : Nat :=
  4 * (config.pixelsPerScanLine.toNat * p.y.toNat + p.x.toNat)

theorem toNat_ofInt_of_nonneg {z : Int} (h : 0 ≤ z) :
    (BitVec.ofInt 32 z).toNat = z.toNat % 2 ^ 32 := by
  rw [BitVec.toNat_ofInt]
  omega

theorem OnScreen.toNat_pixelOffset {p : Vector2D Int} (h : config.OnScreen p) :
    (config.pixelOffset p.x p.y).toNat = config.index p % 2 ^ 32 := by
  rw [pixelOffset, index, BitVec.toNat_mul, BitVec.toNat_add, BitVec.toNat_mul,
    toNat_ofInt_of_nonneg h.x_nonneg, toNat_ofInt_of_nonneg h.y_nonneg]
  simp only [Nat.add_mod, Nat.mul_mod, Nat.mod_mod, BitVec.toNat_ofNat]

/-- The pixels of the screen lie in the frame buffer. -/
theorem OnScreen.index_lt {p : Vector2D Int} (h : config.OnScreen p)
    (hscan : config.horizontalResolution.toNat ≤ config.pixelsPerScanLine.toNat) :
    config.index p + 4 ≤ config.size := by
  obtain ⟨hx, hx', hy, hy'⟩ := h
  have hrow : config.pixelsPerScanLine.toNat * (p.y.toNat + 1) ≤
      config.pixelsPerScanLine.toNat * config.verticalResolution.toNat :=
    Nat.mul_le_mul_left _ (by omega)
  rw [Nat.mul_add, Nat.mul_one] at hrow
  unfold index size
  omega

theorem touched_stores (w : Write) :
    Canvas.touched (config.stores w) =
      (List.range 3).map fun k => config.pixelAt w.1.x w.1.y + BitVec.ofNat 64 k := by
  unfold Canvas.touched stores pixelBytes
  cases config.pixelFormat <;> rfl

/-- **On the screen is in the frame buffer.** -/
theorem OnScreen.inFrameBuffer {w : Write} (h : config.OnScreen w.1)
    (hscan : config.horizontalResolution.toNat ≤ config.pixelsPerScanLine.toNat) :
    ∀ a ∈ Canvas.touched (config.stores w), config.InFrameBuffer a := by
  intro a ha
  rw [touched_stores, List.mem_map] at ha
  obtain ⟨k, hk, rfl⟩ := ha
  rw [List.mem_range] at hk
  have hlt := h.index_lt hscan
  refine ⟨config.index w.1 % 2 ^ 32 + k, ?_, ?_⟩
  · have hle := Nat.mod_le (config.index w.1) (2 ^ 32)
    omega
  · rw [pixelAt, BitVec.add_assoc, BitVec.ofNat_add, ← h.toNat_pixelOffset]
    rw [BitVec.ofNat_toNat]

/-! ## the screen -/

/-- The colour a pixel has in the frame buffer. -/
def pixel (config : FrameBufferConfig) (m : ByteMemory) (p : Vector2D Int) : PixelColor :=
  let byte := m.view (config.pixelAt p.x p.y)
  match config.pixelFormat with
  | .kPixelRGBResv8BitPerColor => ⟨byte 0, byte 1, byte 2⟩
  | .kPixelBGRResv8BitPerColor => ⟨byte 2, byte 1, byte 0⟩

/-- The frame buffer can be addressed by the 32 bits that `PixelAt` counts
with, and its lines are long enough. -/
structure Valid (config : FrameBufferConfig) : Prop where
  scan : config.horizontalResolution.toNat ≤ config.pixelsPerScanLine.toNat
  size : config.size ≤ 2 ^ 32

/-- Different pixels have different offsets. -/
theorem index_inj (valid : config.Valid) {p q : Vector2D Int} (hp : config.OnScreen p)
    (hq : config.OnScreen q) (h : config.index p = config.index q) : p = q := by
  obtain ⟨px, py⟩ := p
  obtain ⟨qx, qy⟩ := q
  obtain ⟨hpx, hpx', hpy, _⟩ := hp
  obtain ⟨hqx, hqx', hqy, _⟩ := hq
  have hscan := valid.scan
  unfold index at h
  simp only at *
  have hx : px.toNat < config.pixelsPerScanLine.toNat := by omega
  have hx' : qx.toNat < config.pixelsPerScanLine.toNat := by omega
  have hsum : config.pixelsPerScanLine.toNat * py.toNat + px.toNat =
      config.pixelsPerScanLine.toNat * qy.toNat + qx.toNat := by omega
  have hmod := congrArg (· % config.pixelsPerScanLine.toNat) hsum
  simp only [Nat.mul_add_mod, Nat.mod_eq_of_lt hx, Nat.mod_eq_of_lt hx'] at hmod
  rw [hmod, Nat.add_right_cancel_iff] at hsum
  have hy := Nat.eq_of_mul_eq_mul_left (by omega) hsum
  rw [Vector2D.mk.injEq]
  omega

/-- Different pixels have no byte in common. -/
theorem pixelAt_add_inj (valid : config.Valid) {p q : Vector2D Int} (hp : config.OnScreen p)
    (hq : config.OnScreen q) {j k : Nat} (hj : j < 3) (hk : k < 3)
    (h : config.pixelAt p.x p.y + BitVec.ofNat 64 j = config.pixelAt q.x q.y + BitVec.ofNat 64 k) :
    p = q ∧ j = k := by
  have hp' := hp.index_lt valid.scan
  have hq' := hq.index_lt valid.scan
  have hsize := valid.size
  rw [pixelAt, pixelAt, BitVec.add_assoc, BitVec.add_assoc, BitVec.add_right_inj] at h
  have hnat := congrArg BitVec.toNat h
  rw [BitVec.toNat_add, BitVec.toNat_add, BitVec.toNat_setWidth, BitVec.toNat_setWidth,
    hp.toNat_pixelOffset, hq.toNat_pixelOffset, BitVec.toNat_ofNat, BitVec.toNat_ofNat] at hnat
  have hp4 : 4 ∣ config.index p := ⟨_, rfl⟩
  have hq4 : 4 ∣ config.index q := ⟨_, rfl⟩
  have heq : config.index p = config.index q := by omega
  exact ⟨index_inj valid hp hq heq, by omega⟩

/-- Another pixel keeps its bytes. -/
theorem view_stores_of_ne (valid : config.Valid) {w : Write} {q : Vector2D Int}
    (hw : config.OnScreen w.1) (hq : config.OnScreen q) (hne : q ≠ w.1) {k : Nat} (hk : k < 3)
    (m : ByteMemory) :
    ByteMemory.view (Canvas.paint m (config.stores w)) (config.pixelAt q.x q.y) k =
      m.view (config.pixelAt q.x q.y) k := by
  refine Canvas.paint_of_not_touched ?_
  rw [touched_stores, List.mem_map]
  rintro ⟨j, hj, heq⟩
  exact hne (pixelAt_add_inj valid hq hw hk (List.mem_range.mp hj) heq.symm).1

/-- The pixel has the bytes it was given. -/
theorem view_stores_self (valid : config.Valid) {w : Write} (hw : config.OnScreen w.1) {k : Nat}
    (hk : k < (config.pixelBytes w.2).length) (m : ByteMemory) :
    ByteMemory.view (Canvas.paint m (config.stores w)) (config.pixelAt w.1.x w.1.y) k =
      (config.pixelBytes w.2)[k] := by
  have hnodup : (Canvas.touched (config.stores w)).Nodup := by
    rw [touched_stores]
    refine List.Nodup.map_on ?_ List.nodup_range
    intro i hi j hj h
    exact (pixelAt_add_inj valid hw hw (List.mem_range.mp hi) (List.mem_range.mp hj) h).2
  have hmem : (config.pixelAt w.1.x w.1.y + BitVec.ofNat 64 k, (config.pixelBytes w.2)[k]) ∈
      config.stores w :=
    List.mem_map.mpr ⟨((config.pixelBytes w.2)[k], k),
      List.mk_mem_zipIdx_iff_getElem?.mpr (List.getElem?_eq_getElem hk), rfl⟩
  exact Canvas.paint_of_mem hnodup hmem

/-- **A call of `Write`.**  It gives its pixel the colour, and no other. -/
theorem pixel_write (valid : config.Valid) {w : Write} {q : Vector2D Int}
    (hw : config.OnScreen w.1) (hq : config.OnScreen q) (m : ByteMemory) :
    config.pixel (Canvas.paint m (config.stores w)) q =
      if q = w.1 then w.2 else config.pixel m q := by
  by_cases heq : q = w.1
  · subst heq
    rw [if_pos rfl]
    have hview := @view_stores_self config valid w hw
    unfold pixel
    unfold pixelBytes at hview
    cases hformat : config.pixelFormat <;> simp only [hformat] at hview ⊢
    all_goals
      rw [hview (show 0 < 3 by decide), hview (show 1 < 3 by decide),
        hview (show 2 < 3 by decide)]
      rfl
  · rw [if_neg heq]
    have hview := fun {k} => @view_stores_of_ne config valid w q hw hq heq k
    unfold pixel
    simp only [hview (show 0 < 3 by decide), hview (show 1 < 3 by decide),
      hview (show 2 < 3 by decide)]

/-- What is drawn on the screen is what the frame buffer shows. -/
theorem pixel_writes (valid : config.Valid) {ws : List Write} {q : Vector2D Int}
    (hws : ∀ w ∈ ws, config.OnScreen w.1) (hq : config.OnScreen q) (m : ByteMemory) :
    config.pixel (Canvas.paint m (ws.flatMap config.stores)) q =
      Canvas.paint (config.pixel m) ws q := by
  induction ws generalizing m with
  | nil => rfl
  | cons w ws ih =>
      rw [List.flatMap_cons, Canvas.paint_append, ih fun v hv => hws v (List.mem_cons_of_mem _ hv)]
      refine Canvas.paint_congr ?_
      rw [pixel_write valid (hws w List.mem_cons_self) hq]
      exact (Function.update_apply ..).symm

end FrameBufferConfig

end MikanOs
