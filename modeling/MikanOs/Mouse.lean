import Mathlib.Order.Basic
import MikanOs.Graphics
import MikanOs.Usb.ClassDriver

/-!
# MikanOs.Mouse

The mouse cursor (`mouse.cpp`) and what moves it: `MouseObserver` of the
kernel, which the mouse driver tells about each report.

A position is a pair of `int`s and is not kept on the screen.
`moves_onScreen_iff` says which sequences of reports draw on the screen only.
-/

namespace MikanOs

/-! ## the code -/

def kMouseCursorWidth : Nat := 15

def kMouseCursorHeight : Nat := 24

/-- `mouse_cursor_shape`. -/
def mouseCursorShape : List String := [
  "@              ",
  "@@             ",
  "@.@            ",
  "@..@           ",
  "@...@          ",
  "@....@         ",
  "@.....@        ",
  "@......@       ",
  "@.......@      ",
  "@........@     ",
  "@.........@    ",
  "@..........@   ",
  "@...........@  ",
  "@............@ ",
  "@......@@@@@@@@",
  "@......@       ",
  "@....@@.@      ",
  "@...@ @.@      ",
  "@..@   @.@     ",
  "@.@    @.@     ",
  "@@      @.@    ",
  "@       @.@    ",
  "         @.@   ",
  "         @@@   "]

/-- `mouse_cursor_shape[dy][dx]`. -/
def shapeAt (dy dx : Nat) : Char := ((mouseCursorShape.getD dy "").toList).getD dx ' '

/-- The two loops over the shape; `color` says what is written for a
character, if anything. -/
def writeShape (color : Char → Option PixelColor) (position : Vector2D (BitVec 32)) :
    List Write :=
  (List.range kMouseCursorHeight).flatMap fun dy =>
    (List.range kMouseCursorWidth).filterMap fun dx =>
      (color (shapeAt dy dx)).map fun c =>
        (⟨(position.x + BitVec.ofNat 32 dx).toInt, (position.y + BitVec.ofNat 32 dy).toInt⟩, c)

/-- `DrawMouseCursor`. -/
def drawMouseCursor (position : Vector2D (BitVec 32)) : List Write :=
  writeShape (fun ch =>
    if ch = '@' then some ⟨0, 0, 0⟩ else if ch = '.' then some ⟨255, 255, 255⟩ else none) position

/-- `EraseMouseCursor`. -/
def eraseMouseCursor (position : Vector2D (BitVec 32)) (eraseColor : PixelColor) : List Write :=
  writeShape (fun ch => if ch ≠ ' ' then some eraseColor else none) position

/-- `MouseCursor`. -/
structure MouseCursor where
  eraseColor : PixelColor
  position : Vector2D (BitVec 32)
  deriving DecidableEq, Repr

namespace MouseCursor

/-- `MouseCursor::MoveRelative`. -/
def moveRelative (c : MouseCursor) (displacement : Vector2D (BitVec 32)) :
    MouseCursor × List Write :=
  let position := ⟨c.position.x + displacement.x, c.position.y + displacement.y⟩
  ({ c with position }, eraseMouseCursor c.position c.eraseColor ++ drawMouseCursor position)

/-- `MouseObserver`. -/
def mouseObserver (c : MouseCursor) (report : Vector2D (BitVec 8)) : MouseCursor × List Write :=
  c.moveRelative ⟨report.x.signExtend 32, report.y.signExtend 32⟩

/-- One report after another. -/
def moves (c : MouseCursor) : List (Vector2D (BitVec 8)) → List Write
  | [] => []
  | report :: reports =>
      let (c, drawn) := c.mouseObserver report
      drawn ++ c.moves reports

end MouseCursor

/-- The reports that a driver has told its observers about. -/
def reportsOf (ios : List Usb.Io) : List (Vector2D (BitVec 8)) :=
  ios.filterMap fun
    | .mouseMove dx dy => some ⟨dx, dy⟩
    | _ => none

/-! ## the pixels of the cursor -/

variable {config : FrameBufferConfig} {color : Char → Option PixelColor}

/-- The shape is drawn with two characters. -/
theorem shapeAt_cases : ∀ dy < kMouseCursorHeight, ∀ dx < kMouseCursorWidth,
    shapeAt dy dx = '@' ∨ shapeAt dy dx = '.' ∨ shapeAt dy dx = ' ' := by
  decide +kernel

/-- A pixel of the shape, with the cursor at `position`. -/
def pixelOf (position : Vector2D (BitVec 32)) (dx dy : Nat) : Vector2D Int :=
  ⟨(position.x + BitVec.ofNat 32 dx).toInt, (position.y + BitVec.ofNat 32 dy).toInt⟩

/-- What is not blank is written. -/
theorem mem_writeShape {position : Vector2D (BitVec 32)}
    (hcolor : ∀ dy < kMouseCursorHeight, ∀ dx < kMouseCursorWidth,
      (color (shapeAt dy dx)).isSome ↔ shapeAt dy dx ≠ ' ') {p : Vector2D Int} :
    p ∈ Canvas.touched (writeShape color position) ↔
      ∃ dy < kMouseCursorHeight, ∃ dx < kMouseCursorWidth, shapeAt dy dx ≠ ' ' ∧
        p = pixelOf position dx dy := by
  unfold Canvas.touched writeShape
  simp only [List.mem_map, List.mem_flatMap, List.mem_filterMap, List.mem_range,
    Option.map_eq_some_iff]
  constructor
  · rintro ⟨_, ⟨dy, hdy, dx, hdx, c, hc, rfl⟩, rfl⟩
    exact ⟨dy, hdy, dx, hdx, (hcolor dy hdy dx hdx).mp (by rw [hc]; rfl), rfl⟩
  · rintro ⟨dy, hdy, dx, hdx, hink, rfl⟩
    obtain ⟨c, hc⟩ := Option.isSome_iff_exists.mp ((hcolor dy hdy dx hdx).mpr hink)
    exact ⟨_, ⟨dy, hdy, dx, hdx, c, hc, rfl⟩, rfl⟩

theorem mem_drawMouseCursor {position : Vector2D (BitVec 32)} {p : Vector2D Int} :
    p ∈ Canvas.touched (drawMouseCursor position) ↔
      ∃ dy < kMouseCursorHeight, ∃ dx < kMouseCursorWidth, shapeAt dy dx ≠ ' ' ∧
        p = pixelOf position dx dy := by
  refine mem_writeShape fun dy hdy dx hdx => ?_
  obtain h | h | h := shapeAt_cases dy hdy dx hdx <;> rw [h] <;> decide

theorem mem_eraseMouseCursor {position : Vector2D (BitVec 32)} {eraseColor : PixelColor}
    {p : Vector2D Int} :
    p ∈ Canvas.touched (eraseMouseCursor position eraseColor) ↔
      ∃ dy < kMouseCursorHeight, ∃ dx < kMouseCursorWidth, shapeAt dy dx ≠ ' ' ∧
        p = pixelOf position dx dy := by
  refine mem_writeShape fun dy hdy dx hdx => ?_
  simp

/-! ## positions on the screen -/

/-- `extent` pixels from `z` on are within `size` pixels, and can be counted. -/
structure FitsIn (extent size : Nat) (z : Int) : Prop where
  nonneg : 0 ≤ z
  le : z + extent ≤ size
  le_int : z + extent ≤ 2 ^ 31

/-- The whole cursor is on the screen. -/
structure Fits (config : FrameBufferConfig) (p : Vector2D Int) : Prop where
  x : FitsIn kMouseCursorWidth config.horizontalResolution.toNat p.x
  y : FitsIn kMouseCursorHeight config.verticalResolution.toNat p.y

/-- Whether the cursor is on the screen shows at its first and its last
pixel. -/
theorem fitsIn_of_ends {extent size : Nat} (hpos : 0 < extent) (hextent : extent < 2 ^ 31)
    {z : BitVec 32} (hfirst : 0 ≤ (z + BitVec.ofNat 32 0).toInt)
    (hlast : 0 ≤ (z + BitVec.ofNat 32 (extent - 1)).toInt)
    (hsize : (z + BitVec.ofNat 32 (extent - 1)).toInt < size) : FitsIn extent size z.toInt := by
  have hz : 0 ≤ z.toInt := by simpa using hfirst
  have hoff : (BitVec.ofNat 32 (extent - 1)).toInt = (extent - 1 : Nat) :=
    toInt_ofNat_of_lt (by omega)
  have hupper : z.toInt + (BitVec.ofNat 32 (extent - 1)).toInt < 2 ^ 31 := by
    by_contra hover
    exact absurd (toInt_add_neg (Int.not_lt.mp hover)) (Int.not_lt.mpr hlast)
  rw [toInt_add_of_range (by omega) hupper] at hsize
  exact ⟨hz, by omega, by omega⟩

/-- Then all that is in between is on the screen. -/
theorem FitsIn.toInt_add {extent size : Nat} {z : BitVec 32} (h : FitsIn extent size z.toInt)
    {d : Nat} (hd : d < extent) :
    0 ≤ (z + BitVec.ofNat 32 d).toInt ∧ (z + BitVec.ofNat 32 d).toInt < size := by
  obtain ⟨hnonneg, hle, hint⟩ := h
  have hoff : (BitVec.ofNat 32 d).toInt = d := toInt_ofNat_of_lt (by omega)
  rw [toInt_add_of_range (by omega) (by omega)]
  omega

/-- The cursor is drawn on the screen if and only if it fits there. -/
theorem fits_iff {position : Vector2D (BitVec 32)} :
    Fits config (exact position) ↔
      ∀ dy < kMouseCursorHeight, ∀ dx < kMouseCursorWidth, shapeAt dy dx ≠ ' ' →
        config.OnScreen (pixelOf position dx dy) := by
  constructor
  · rintro ⟨hx, hy⟩ dy hdy dx hdx _
    obtain ⟨hx, hx'⟩ := hx.toInt_add hdx
    obtain ⟨hy, hy'⟩ := hy.toInt_add hdy
    exact ⟨hx, hx', hy, hy'⟩
  · intro h
    have hcorner := h 0 (by decide) 0 (by decide) (by decide)
    have hright := h 14 (by decide) 14 (by decide) (by decide)
    have hbottom := h 23 (by decide) 9 (by decide) (by decide)
    exact ⟨fitsIn_of_ends (by decide) (by decide) hcorner.x_nonneg hright.x_nonneg hright.x_lt,
      fitsIn_of_ends (by decide) (by decide) hcorner.y_nonneg hbottom.y_nonneg hbottom.y_lt⟩

/-! ## runs -/

/-- Where the reports take the cursor, in integers. -/
def displaced (p : Vector2D Int) (reports : List (Vector2D (BitVec 8))) : Vector2D Int :=
  reports.foldl (fun p report => ⟨p.x + report.x.toInt, p.y + report.y.toInt⟩) p

/-- Coordinates are exact as long as the cursor is on the screen. -/
theorem FitsIn.add {extent size : Nat} (hpos : 0 < extent) {z : BitVec 32}
    (h : FitsIn extent size z.toInt) (d : BitVec 8) :
    (FitsIn extent size (z + d.signExtend 32).toInt ↔ FitsIn extent size (z.toInt + d.toInt)) ∧
      (FitsIn extent size (z.toInt + d.toInt) →
        (z + d.signExtend 32).toInt = z.toInt + d.toInt) := by
  have hd : (d.signExtend 32).toInt = d.toInt := BitVec.toInt_signExtend_of_le (by decide)
  have hlower := BitVec.le_toInt (x := d)
  obtain ⟨hnonneg, _, _⟩ := h
  rcases Int.lt_or_le (z.toInt + d.toInt) (2 ^ 31) with hlt | hge
  · have hadd : (z + d.signExtend 32).toInt = z.toInt + d.toInt := by
      rw [toInt_add_of_range, hd] <;> omega
    rw [hadd]
    exact ⟨Iff.rfl, fun _ => rfl⟩
  · have hneg : (z + d.signExtend 32).toInt < 0 := toInt_add_neg (by omega)
    refine ⟨⟨fun hfits => ?_, fun hfits => ?_⟩, fun hfits => ?_⟩
    · exact absurd hfits.nonneg (Int.not_le.mpr hneg)
    · have hint := hfits.le_int
      omega
    · have hint := hfits.le_int
      omega

theorem Fits.add {position : Vector2D (BitVec 32)} (h : Fits config (exact position))
    (report : Vector2D (BitVec 8)) :
    let moved : Vector2D (BitVec 32) :=
      ⟨position.x + report.x.signExtend 32, position.y + report.y.signExtend 32⟩
    (Fits config (exact moved) ↔ Fits config (displaced (exact position) [report])) ∧
      (Fits config (displaced (exact position) [report]) →
        exact moved = displaced (exact position) [report]) := by
  obtain ⟨hx, hx'⟩ := h.x.add (by decide) report.x
  obtain ⟨hy, hy'⟩ := h.y.add (by decide) report.y
  refine ⟨⟨fun hfits => ⟨hx.mp hfits.x, hy.mp hfits.y⟩,
    fun hfits => ⟨hx.mpr hfits.x, hy.mpr hfits.y⟩⟩, fun hfits => ?_⟩
  exact Vector2D.mk.injEq .. ▸ ⟨hx' hfits.x, hy' hfits.y⟩

/-- What a move draws is on the screen if and only if the cursor is, before
and after. -/
theorem moveRelative_onScreen_iff {c : MouseCursor} {displacement : Vector2D (BitVec 32)} :
    (∀ w ∈ (c.moveRelative displacement).2, config.OnScreen w.1) ↔
      Fits config (exact c.position) ∧
        Fits config (exact (c.moveRelative displacement).1.position) := by
  have htouched : ∀ ws : List Write, (∀ w ∈ ws, config.OnScreen w.1) ↔
      ∀ p ∈ Canvas.touched ws, config.OnScreen p := fun ws => List.forall_mem_map.symm
  unfold MouseCursor.moveRelative
  rw [List.forall_mem_append, htouched, htouched, fits_iff, fits_iff]
  simp only [mem_eraseMouseCursor, mem_drawMouseCursor]
  constructor
  · rintro ⟨herase, hdraw⟩
    exact ⟨fun dy hdy dx hdx hink => herase _ ⟨dy, hdy, dx, hdx, hink, rfl⟩,
      fun dy hdy dx hdx hink => hdraw _ ⟨dy, hdy, dx, hdx, hink, rfl⟩⟩
  · rintro ⟨hbefore, hafter⟩
    refine ⟨?_, ?_⟩
    · rintro _ ⟨dy, hdy, dx, hdx, hink, rfl⟩
      exact hbefore dy hdy dx hdx hink
    · rintro _ ⟨dy, hdy, dx, hdx, hink, rfl⟩
      exact hafter dy hdy dx hdx hink

/-- The condition on a report and those that follow. -/
theorem forall_displaced_cons {p : Vector2D Int} {report : Vector2D (BitVec 8)}
    {reports : List (Vector2D (BitVec 8))} :
    (∀ k < (report :: reports).length, Fits config (displaced p ((report :: reports).take k)) ∧
        Fits config (displaced p ((report :: reports).take (k + 1)))) ↔
      (Fits config p ∧ Fits config (displaced p [report])) ∧
        ∀ k < reports.length, Fits config (displaced (displaced p [report]) (reports.take k)) ∧
          Fits config (displaced (displaced p [report]) (reports.take (k + 1))) := by
  rw [List.length_cons, Nat.forall_lt_succ_left]
  rfl

/-- A run draws on the screen if and only if the cursor is always there. -/
theorem moves_iff {c : MouseCursor} {reports : List (Vector2D (BitVec 8))} :
    (∀ w ∈ c.moves reports, config.OnScreen w.1) ↔
      ∀ k < reports.length, Fits config (displaced (exact c.position) (reports.take k)) ∧
        Fits config (displaced (exact c.position) (reports.take (k + 1))) := by
  induction reports generalizing c with
  | nil => exact ⟨fun _ _ hk => absurd hk (Nat.not_lt_zero _), fun _ => nofun⟩
  | cons report reports ih =>
      rw [forall_displaced_cons, MouseCursor.moves, List.forall_mem_append, ih,
        MouseCursor.mouseObserver, moveRelative_onScreen_iff, and_assoc, and_assoc]
      refine and_congr_right fun hfits => ?_
      obtain ⟨hiff, hexact⟩ := hfits.add report
      refine (and_congr_left' hiff).trans (and_congr_right fun hnext => ?_)
      rw [← hexact hnext]
      rfl

/-- **When the mouse draws on the screen only.**  Whatever it is told, all
that it writes is on the screen, and in the frame buffer, if and only if the
whole cursor is on the screen before and after each report. -/
theorem moves_onScreen_iff (config : FrameBufferConfig)
    (hscan : config.horizontalResolution.toNat ≤ config.pixelsPerScanLine.toNat)
    (c : MouseCursor) (reports : List (Vector2D (BitVec 8))) :
    (∀ w ∈ c.moves reports, config.OnScreen w.1 ∧
        ∀ a ∈ Canvas.touched (config.stores w), config.InFrameBuffer a) ↔
      ∀ k < reports.length, Fits config (displaced (exact c.position) (reports.take k)) ∧
        Fits config (displaced (exact c.position) (reports.take (k + 1))) := by
  rw [← moves_iff]
  constructor
  · exact fun h w hw => (h w hw).1
  · exact fun h w hw => ⟨h w hw, (h w hw).inFrameBuffer hscan⟩

/-- 800 by 600 pixels, with the cursor where the kernel puts it. -/
def svga : FrameBufferConfig := ⟨0#64, 800#32, 800#32, 600#32, .kPixelRGBResv8BitPerColor⟩

def svgaCursor : MouseCursor := ⟨⟨45, 118, 237⟩, ⟨300#32, 200#32⟩⟩

/-- A move that stays on the screen. -/
theorem moves_onScreen_svga :
    (∀ w ∈ svgaCursor.moves [⟨10#8, 0xf0#8⟩], svga.OnScreen w.1 ∧
        ∀ a ∈ Canvas.touched (svga.stores w), svga.InFrameBuffer a) ↔
      ∀ k < [(⟨10#8, 0xf0#8⟩ : Vector2D (BitVec 8))].length,
        Fits svga (displaced (exact svgaCursor.position) ([⟨10#8, 0xf0#8⟩].take k)) ∧
          Fits svga (displaced (exact svgaCursor.position) ([⟨10#8, 0xf0#8⟩].take (k + 1))) :=
  moves_onScreen_iff svga (by decide) svgaCursor [⟨10#8, 0xf0#8⟩]

/-- Two reports that take the cursor over the upper edge. -/
theorem moves_offScreen :
    svga.OnScreen (exact svgaCursor.position) ∧
      ∃ w ∈ svgaCursor.moves [⟨0#8, 0x80#8⟩, ⟨0#8, 0x80#8⟩], ¬ svga.OnScreen w.1 ∧
        ∃ a ∈ Canvas.touched (svga.stores w), ¬ svga.InFrameBuffer a := by
  refine ⟨⟨by decide, by decide, by decide, by decide⟩, (⟨300, -56⟩, ⟨0, 0, 0⟩), by decide +kernel,
    fun h => absurd h.y_nonneg (by decide), svga.pixelAt 300 (-56), by decide, ?_⟩
  rintro ⟨off, hoff, heq⟩
  have hoff : off < 1920000 := hoff
  have hnat : 4294789296 = (0#64 + BitVec.ofNat 64 off).toNat := congrArg BitVec.toNat heq
  rw [BitVec.zero_add, BitVec.toNat_ofNat] at hnat
  omega

/-! ## reports -/

/-- What a mouse tells an observer about a report is the report's bytes 1
and 2. -/
theorem reportsOf_onDataReceived {d : Usb.HIDDriver} (hkind : d.kind = .mouse)
    (hobserver : d.numObservers = 1) (env : Usb.Env) (h : Usb.Host) :
    reportsOf (d.onDataReceived env h).io =
      reportsOf h.io ++ [⟨d.buffer env 1, d.buffer env 2⟩] := by
  unfold Usb.HIDDriver.onDataReceived Usb.HIDDriver.notifications reportsOf
  rw [hkind, hobserver, List.filterMap_append]
  rfl

end MikanOs
