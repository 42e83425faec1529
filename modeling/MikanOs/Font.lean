import MikanOs.Error
import MikanOs.Graphics

/-!
# MikanOs.Font

Drawing text (`font.cpp`).  The font is a table of bytes that is linked to the
kernel, 16 of them for each character.  A `char` is signed on one of the two
targets and not on the other, and `GetFont` makes an index of it; the model
covers both.

A string is the memory from where it begins, so that it has to have a NUL.
-/

namespace MikanOs

/-- `_binary_hankaku_bin_start`, with whatever comes after the table, and
`_binary_hankaku_bin_size`. -/
structure Font where
  start : Nat → BitVec 8
  size : Nat

/-! ## the code -/

section

variable (charSigned : Bool) (font : Font)

/-- `static_cast<unsigned int>(c)`. -/
def toUnsigned (c : BitVec 8) : BitVec 32 := if charSigned then c.signExtend 32 else c.setWidth 32

/-- `GetFont`: where in the table the character is. -/
def getFont (c : BitVec 8) : Option Nat :=
  let index := 16#32 * toUnsigned charSigned c
  if font.size ≤ index.toNat then none else some index.toNat

/-- `(font[dy] << dx) & 0x80u`. -/
def isLit (byte : BitVec 8) (dx : Nat) : Bool := (byte.setWidth 32 <<< dx) &&& 0x80#32 ≠ 0#32

/-- `WriteAscii`. -/
def writeAscii (x y : Int) (c : BitVec 8) (color : PixelColor) : List Write :=
  match getFont charSigned font c with
  | none => []
  | some index =>
      (List.range 16).flatMap fun dy => (List.range 8).filterMap fun dx =>
        if isLit (font.start (index + dy)) dx then some (⟨x + dx, y + dy⟩, color) else none

/-- `WriteString`, from its `i`-th round on. -/
def writeStringFrom (x y : Int) (color : PixelColor) :
    Nat → List (BitVec 8) → Except Fault (List Write)
  | _, [] => throw .outOfBounds
  | i, c :: s =>
      if c = 0#8 then pure []
      else do
        let drawn ← writeStringFrom x y color (i + 1) s
        pure (writeAscii charSigned font (x + 8 * i) y c color ++ drawn)

/-- `WriteString`. -/
def writeString (x y : Int) (s : List (BitVec 8)) (color : PixelColor) :
    Except Fault (List Write) :=
  writeStringFrom charSigned font x y color 0 s

/-! ## characters -/

variable {charSigned font} {x y : Int} {c : BitVec 8} {color : PixelColor}

theorem mono_writeAscii : Canvas.Mono color (writeAscii charSigned font x y c color) := by
  intro w hw
  unfold writeAscii at hw
  split at hw
  · contradiction
  · obtain ⟨dy, _, hrow⟩ := List.mem_flatMap.mp hw
    obtain ⟨dx, _, heq⟩ := List.mem_filterMap.mp hrow
    obtain ⟨_, hsome⟩ := Option.ite_none_right_eq_some.mp heq
    exact (congrArg Prod.snd (Option.some.inj hsome)).symm

/-- The pixels of a character. -/
theorem mem_writeAscii {p : Vector2D Int} :
    p ∈ Canvas.touched (writeAscii charSigned font x y c color) ↔
      ∃ index, getFont charSigned font c = some index ∧ ∃ dy < 16, ∃ dx < 8,
        isLit (font.start (index + dy)) dx = true ∧ p = ⟨x + (dx : Nat), y + (dy : Nat)⟩ := by
  unfold writeAscii Canvas.touched
  cases getFont charSigned font c with
  | none => simp
  | some index =>
      simp only [List.mem_map, List.mem_flatMap, List.mem_filterMap, List.mem_range,
        Option.ite_none_right_eq_some, Option.some.injEq]
      constructor
      · rintro ⟨w, ⟨dy, hdy, dx, hdx, hlit, rfl⟩, rfl⟩
        exact ⟨index, rfl, dy, hdy, dx, hdx, hlit, rfl⟩
      · rintro ⟨_, rfl, dy, hdy, dx, hdx, hlit, rfl⟩
        exact ⟨_, ⟨dy, hdy, dx, hdx, hlit, rfl⟩, rfl⟩

/-! ## lines -/

/-- The characters of a line, from the `i`-th place of the line on. -/
def drawLineFrom (charSigned : Bool) (font : Font) (x y : Int) (color : PixelColor) (i : Nat)
    (line : List (BitVec 8)) : List Write :=
  (line.zipIdx i).flatMap fun (c, k) => writeAscii charSigned font (x + 8 * k) y c color

/-- A line of text. -/
def drawLine (charSigned : Bool) (font : Font) (x y : Int) (line : List (BitVec 8))
    (color : PixelColor) : List Write :=
  drawLineFrom charSigned font x y color 0 line

/-- `WriteString` draws what comes before the NUL. -/
theorem writeStringFrom_eq {line : List (BitVec 8)} (h : 0#8 ∉ line) (rest : List (BitVec 8))
    (i : Nat) :
    writeStringFrom charSigned font x y color i (line ++ 0#8 :: rest) =
      .ok (drawLineFrom charSigned font x y color i line) := by
  induction line generalizing i with
  | nil => rfl
  | cons c line ih =>
      rw [List.mem_cons, not_or] at h
      rw [List.cons_append, writeStringFrom, if_neg (Ne.symm h.1), ih h.2]
      rfl

theorem writeString_eq {line : List (BitVec 8)} (h : 0#8 ∉ line) (rest : List (BitVec 8)) :
    writeString charSigned font x y (line ++ 0#8 :: rest) color =
      .ok (drawLine charSigned font x y line color) :=
  writeStringFrom_eq h rest 0

/-- A character more. -/
theorem drawLine_append {line : List (BitVec 8)} :
    drawLine charSigned font x y (line ++ [c]) color =
      drawLine charSigned font x y line color ++
        writeAscii charSigned font (x + 8 * line.length) y c color := by
  simp [drawLine, drawLineFrom, List.zipIdx_append]

theorem mono_drawLine {line : List (BitVec 8)} :
    Canvas.Mono color (drawLine charSigned font x y line color) := by
  intro w hw
  obtain ⟨_, _, hchar⟩ := List.mem_flatMap.mp hw
  exact mono_writeAscii w hchar

/-- The pixels of a line. -/
theorem mem_drawLine {line : List (BitVec 8)} {w : Write}
    (hw : w ∈ drawLine charSigned font x y line color) :
    x ≤ w.1.x ∧ w.1.x < x + 8 * line.length ∧ y ≤ w.1.y ∧ w.1.y < y + 16 := by
  obtain ⟨⟨c, k⟩, hk, hchar⟩ := List.mem_flatMap.mp hw
  have hlt := (List.mem_zipIdx hk).2.1
  obtain ⟨_, _, dy, hdy, dx, hdx, _, heq⟩ := mem_writeAscii.mp (List.mem_map_of_mem hchar)
  rw [heq]
  simp only
  omega

end

end MikanOs
