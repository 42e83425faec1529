import Mathlib.Data.List.TakeWhile
import MikanOs.Font
import MikanOs.Lib.PythonText

/-!
# MikanOs.MakeFont

The font compiler (`tools/makefont.py`) and how it goes together with
`WriteAscii`.  The compiler makes a byte of each line of the source that
begins with `.`, `*` or `@`; the kernel finds the bytes of a character by its
code, and its pixels by shifting them.

`writeAscii_compile` says that the pixels of a character are what its lines
of the source show.
-/

namespace MikanOs.MakeFont

open PythonText

/-! ## the code -/

/-- `[.*@]`. -/
def isBitmapChar (c : Char) : Bool := c = '.' ∨ c = '*' ∨ c = '@'

/-- `BITMAP_PATTERN.match(line)`, and `m.group(1)` if there is a match. -/
def bitmapMatch (line : List Char) : Option (List Char) :=
  match line.takeWhile isBitmapChar with
  | [] => none
  | c :: group => some (c :: group)

/-- `bits`. -/
def bits (group : List Char) : List Nat := group.map fun x => if x = '.' then 0 else 1

/-- `functools.reduce(lambda a, b: 2*a + b, bits)`; there is no empty group. -/
def bitsInt : List Nat → Nat
  | [] => 0
  | a :: bits => bits.foldl (fun a b => 2 * a + b) a

/-- `to_bytes(1, byteorder='little')`, which may raise an `OverflowError`. -/
def toByte (n : Nat) : Option (BitVec 8) := if n < 256 then some (BitVec.ofNat 8 n) else none

/-- The loop of `compile`. -/
def compileLines : List (List Char) → Option (List (BitVec 8))
  | [] => some []
  | line :: lines =>
      match bitmapMatch line with
      | none => compileLines lines
      | some group => do
          let byte ← toByte (bitsInt (bits group))
          let result ← compileLines lines
          some (byte :: result)

/-- `compile`. -/
def compile (src : List Char) : Option (List (BitVec 8)) := compileLines (splitLines (lstrip src))

/-- The font table that the linker makes of the bytes. -/
structure Linked (font : Font) (bytes : List (BitVec 8)) : Prop where
  size : font.size = bytes.length
  start : ∀ k byte, bytes[k]? = some byte → font.start k = byte

/-! ## font sources -/

/-- A line that is blank, or a header: its first character that is not white
space, if there is one, is not of a bitmap. -/
def IsOther (line : List Char) : Prop :=
  ∀ c ∈ (lstrip line).head?, isBitmapChar c = false

/-- A line of a bitmap. -/
structure IsBitmap (line : List Char) : Prop where
  length : line.length = 8
  chars : ∀ c ∈ line, isBitmapChar c = true

instance (line : List Char) : Decidable (IsOther line) :=
  match h : (lstrip line).head? with
  | none => isTrue fun c hc => by rw [h] at hc; contradiction
  | some c => decidable_of_iff (isBitmapChar c = false) (by simp [IsOther, h])

instance (line : List Char) : Decidable (IsBitmap line) :=
  decidable_of_iff (line.length = 8 ∧ line.all isBitmapChar = true)
    ⟨fun h => ⟨h.1, List.all_eq_true.mp h.2⟩, fun h => ⟨h.length, List.all_eq_true.mpr h.chars⟩⟩

/-- The lines of the bitmaps. -/
def bitmapLines (src : List Char) : List (List Char) :=
  (splitLines src).filter fun line => IsBitmap line

/-- The source of a font of `n` characters. -/
structure IsSource (src : List Char) (n : Nat) : Prop where
  lines : ∀ line ∈ splitLines src, IsOther line ∨ IsBitmap line
  length : (bitmapLines src).length = 16 * n

/-- Character `dx` of line `k` of the bitmaps is not `.`. -/
def IsInk (src : List Char) (k dx : Nat) : Prop :=
  ∃ row, (bitmapLines src)[k]? = some row ∧ ∃ ch, row[dx]? = some ch ∧ ch ≠ '.'

/-! ## lines -/

theorem isBitmapChar_of_isSpace {c : Char} (h : isSpace c = true) : isBitmapChar c = false := by
  by_contra hbitmap
  simp only [isBitmapChar, Bool.not_eq_false, decide_eq_true_eq] at hbitmap
  rcases hbitmap with rfl | rfl | rfl <;> revert h <;> decide

theorem bitmapMatch_nil : bitmapMatch [] = none := rfl

theorem bitmapMatch_cons_of_not {c : Char} (h : isBitmapChar c = false) (line : List Char) :
    bitmapMatch (c :: line) = none := by
  rw [bitmapMatch, List.takeWhile_cons_of_neg (by rw [h]; exact Bool.false_ne_true)]

theorem bitmapMatch_lstrip_of_isOther {line : List Char} (h : IsOther line) :
    bitmapMatch (lstrip line) = none := by
  unfold IsOther at h
  cases hline : lstrip line with
  | nil => rfl
  | cons c rest =>
      rw [hline] at h
      exact bitmapMatch_cons_of_not (h c rfl) rest

/-- The compiler skips a line that is not of a bitmap. -/
theorem bitmapMatch_of_isOther {line : List Char} (h : IsOther line) : bitmapMatch line = none := by
  cases line with
  | nil => rfl
  | cons c rest =>
      by_cases hc : isSpace c = true
      · exact bitmapMatch_cons_of_not (isBitmapChar_of_isSpace hc) rest
      · have hstrip := bitmapMatch_lstrip_of_isOther h
        rwa [lstrip_cons_of_not_isSpace hc] at hstrip

/-- It takes all of a line that is. -/
theorem bitmapMatch_of_isBitmap {line : List Char} (h : IsBitmap line) :
    bitmapMatch line = some line := by
  rw [bitmapMatch, List.takeWhile_eq_self_iff.mpr h.chars]
  cases line with
  | nil => exact absurd h.length (by decide)
  | cons c rest => rfl

/-- So it takes the lines of the bitmaps. -/
theorem filterMap_bitmapMatch {lines : List (List Char)}
    (h : ∀ line ∈ lines, IsOther line ∨ IsBitmap line) :
    lines.filterMap bitmapMatch = lines.filter fun line => IsBitmap line := by
  induction lines with
  | nil => rfl
  | cons line lines ih =>
      have hrest := ih fun l hl => h l (List.mem_cons_of_mem _ hl)
      by_cases hbitmap : IsBitmap line
      · rw [List.filterMap_cons_some (bitmapMatch_of_isBitmap hbitmap), hrest]
        exact (List.filter_cons_of_pos (by simpa using hbitmap)).symm
      · have hother := (h line List.mem_cons_self).resolve_right hbitmap
        rw [List.filterMap_cons_none (bitmapMatch_of_isOther hother), hrest]
        exact (List.filter_cons_of_neg (by simpa using hbitmap)).symm

/-- Stripping the source makes no difference. -/
theorem filterMap_splitLines {src : List Char} {n : Nat} (h : IsSource src n) :
    (splitLines (lstrip src)).filterMap bitmapMatch = bitmapLines src := by
  rw [filterMap_splitLines_lstrip bitmapMatch_nil
    (fun c line hc => bitmapMatch_cons_of_not (isBitmapChar_of_isSpace hc) line) src]
  · exact filterMap_bitmapMatch h.lines
  · intro c line hmem hc
    rcases h.lines _ hmem with hother | hbitmap
    · have hstrip := bitmapMatch_lstrip_of_isOther hother
      rwa [lstrip_cons_of_isSpace hc] at hstrip
    · have hchar := hbitmap.chars c List.mem_cons_self
      rw [isBitmapChar_of_isSpace hc] at hchar
      contradiction

/-! ## bytes -/

/-- The pixels of a line that are on. -/
def inked (line : List Char) : List Bool := line.map fun c => c ≠ '.'

theorem bits_eq (line : List Char) : bits line = (inked line).map Bool.toNat := by
  rw [bits, inked, List.map_map]
  refine List.map_congr_left fun c _ => ?_
  by_cases hc : c = '.'
  · simp [hc]
  · simp [hc]

/-- The fold reads the bits from the most significant on. -/
theorem foldl_bits (bs : List Bool) (a : Nat) :
    (bs.map Bool.toNat).foldl (fun a b => 2 * a + b) a =
      a * 2 ^ bs.length + (BitVec.ofBoolListBE bs).toNat := by
  induction bs generalizing a with
  | nil => exact (Nat.mul_one a).symm
  | cons b bs ih =>
      rw [List.map_cons, List.foldl_cons, ih, BitVec.ofBoolListBE, BitVec.toNat_cons',
        Nat.shiftLeft_eq, List.length_cons, Nat.pow_succ, Nat.add_mul, Nat.mul_assoc 2,
        ← Nat.mul_assoc a]
      omega

theorem bitsInt_eq (bs : List Bool) :
    bitsInt (bs.map Bool.toNat) = (BitVec.ofBoolListBE bs).toNat := by
  cases bs with
  | nil => rfl
  | cons b bs =>
      rw [List.map_cons, bitsInt, foldl_bits, BitVec.ofBoolListBE, BitVec.toNat_cons',
        Nat.shiftLeft_eq]

/-- The byte of a line. -/
def byteOf (line : List Char) : BitVec 8 := BitVec.ofNat 8 (bitsInt (bits line))

theorem toByte_of_isBitmap {line : List Char} (h : IsBitmap line) :
    toByte (bitsInt (bits line)) = some (byteOf line) := by
  have hlt := (BitVec.ofBoolListBE (inked line)).isLt
  have hlength : (inked line).length = 8 := by rw [inked, List.length_map, h.length]
  rw [← bitsInt_eq, ← bits_eq, hlength] at hlt
  exact if_pos hlt

/-- The bytes of the bitmaps. -/
theorem compileLines_eq {lines : List (List Char)}
    (h : ∀ line ∈ lines.filterMap bitmapMatch, IsBitmap line) :
    compileLines lines = some ((lines.filterMap bitmapMatch).map byteOf) := by
  induction lines with
  | nil => rfl
  | cons line lines ih =>
      rw [compileLines]
      cases hmatch : bitmapMatch line with
      | none =>
          rw [List.filterMap_cons_none hmatch] at h ⊢
          exact ih h
      | some group =>
          rw [List.filterMap_cons_some hmatch] at h ⊢
          have hgroup := toByte_of_isBitmap (h group List.mem_cons_self)
          have hrest := ih fun l hl => h l (List.mem_cons_of_mem _ hl)
          simp only [hgroup, hrest, Option.bind_eq_bind, Option.bind_some, List.map_cons]

theorem isLit_eq (byte : BitVec 8) {dx : Nat} (hdx : dx < 8) :
    isLit byte dx = byte.getMsbD dx := by
  have hmask : 0x80#32 = BitVec.twoPow 32 7 := by decide
  have hbit : (byte.setWidth 32 <<< dx).getLsbD 7 = byte.getMsbD dx := by
    rw [BitVec.getLsbD_shiftLeft, BitVec.getLsbD_setWidth, BitVec.getMsbD]
    simp [hdx, Nat.not_lt.mpr (Nat.le_of_lt_succ hdx), show 7 - dx < 32 by omega]
  unfold isLit
  rw [hmask, BitVec.and_twoPow, hbit]
  cases byte.getMsbD dx <;> decide

/-- The pixels of a byte are those of its line. -/
theorem isLit_byteOf {row : List Char} (h : IsBitmap row) {dx : Nat} (hdx : dx < 8) :
    isLit (byteOf row) dx = true ↔ ∃ c, row[dx]? = some c ∧ c ≠ '.' := by
  have hlength : (inked row).length = 8 := by rw [inked, List.length_map, h.length]
  have hwidth : ∀ {w : Nat} (x : BitVec w), w = 8 → (x.setWidth 8).getMsbD dx = x.getMsbD dx := by
    rintro _ x rfl
    rw [BitVec.setWidth_eq]
  have hbyte : (byteOf row).getMsbD dx = (inked row).getD dx false := by
    rw [← BitVec.getMsbD_ofBoolListBE, byteOf, bits_eq, bitsInt_eq, BitVec.ofNat_toNat]
    exact hwidth _ hlength
  rw [isLit_eq _ hdx, hbyte, inked, List.getD_eq_getElem?_getD, List.getElem?_map]
  cases row[dx]? with
  | none => simp
  | some c => simp

/-! ## characters -/

/-- An unsigned character finds the glyph with its number. -/
theorem getFont_unsigned (font : Font) (c : BitVec 8) :
    getFont false font c = if font.size ≤ 16 * c.toNat then none else some (16 * c.toNat) := by
  have hc := c.isLt
  have hindex : (16#32 * toUnsigned false c).toNat = 16 * c.toNat := by
    rw [toUnsigned, if_neg Bool.false_ne_true, BitVec.toNat_mul, BitVec.toNat_setWidth]
    simp only [BitVec.toNat_ofNat]
    omega
  unfold getFont
  simp only [hindex]

/-- **The font compiler and the renderer agree.**  The source compiles; with
its bytes as the font, `WriteAscii` writes the pixels of a character that the
lines of its bitmap show, and nothing for a character the font does not
have. -/
theorem writeAscii_compile (src : List Char) (n : Nat) (h : IsSource src n) :
    ∃ bytes, compile src = some bytes ∧ ∀ font, Linked font bytes →
      ∀ (x y : Int) (c : BitVec 8) (color : PixelColor),
        (c.toNat < n → ∀ p, p ∈ Canvas.touched (writeAscii false font x y c color) ↔
          ∃ dy < 16, ∃ dx < 8, p = ⟨x + (dx : Nat), y + (dy : Nat)⟩ ∧
            IsInk src (16 * c.toNat + dy) dx) ∧
        (n ≤ c.toNat → writeAscii false font x y c color = []) ∧
        ∀ w ∈ writeAscii false font x y c color, w.2 = color := by
  have hbitmaps : ∀ line ∈ bitmapLines src, IsBitmap line := fun line hline =>
    of_decide_eq_true (List.mem_filter.mp hline).2
  have hcompile : compile src = some ((bitmapLines src).map byteOf) := by
    rw [compile, ← filterMap_splitLines h]
    refine compileLines_eq fun line hline => hbitmaps line ?_
    rwa [filterMap_splitLines h] at hline
  refine ⟨_, hcompile, fun font hlinked x y c color => ⟨fun hc p => ?_, fun hc => ?_, ?_⟩⟩
  · have hsize : font.size = 16 * n := by rw [hlinked.size, List.length_map, h.length]
    have hfont : getFont false font c = some (16 * c.toNat) := by
      rw [getFont_unsigned, if_neg (by omega)]
    have hlit : ∀ dy < 16, ∀ dx < 8, isLit (font.start (16 * c.toNat + dy)) dx = true ↔
        IsInk src (16 * c.toNat + dy) dx := by
      intro dy hdy dx hdx
      have hlt : 16 * c.toNat + dy < (bitmapLines src).length := by
        rw [h.length]
        omega
      have hline := List.getElem?_eq_getElem hlt
      have hbyte := hlinked.start (16 * c.toNat + dy) _ (by rw [List.getElem?_map, hline]; rfl)
      rw [hbyte, isLit_byteOf (hbitmaps _ (List.getElem_mem hlt)) hdx, IsInk, hline]
      simp only [Option.some.injEq, exists_eq_left']
    rw [mem_writeAscii, hfont]
    simp only [Option.some.injEq, exists_eq_left']
    constructor
    · rintro ⟨dy, hdy, dx, hdx, hon, rfl⟩
      exact ⟨dy, hdy, dx, hdx, rfl, (hlit dy hdy dx hdx).mp hon⟩
    · rintro ⟨dy, hdy, dx, hdx, rfl, hon⟩
      exact ⟨dy, hdy, dx, hdx, (hlit dy hdy dx hdx).mpr hon, rfl⟩
  · have hsize : font.size = 16 * n := by rw [hlinked.size, List.length_map, h.length]
    rw [writeAscii, getFont_unsigned, if_pos (by omega)]
  · exact mono_writeAscii

/-- A font of one character. -/
def oneGlyph : List Char :=
  ["", "0x00 '.'", "........", "...@....", "...@....", "..@@@...", "..@.@...", ".@...@..",
    ".@...@..", ".@@@@@..", "@.....@.", "@.....@.", "@.....@.", "***...*@", "........", "........",
    "........", "........", ""].flatMap fun line => line.toList ++ ['\n']

/-- The compiler and the renderer on this font. -/
theorem writeAscii_oneGlyph :
    ∃ bytes, compile oneGlyph = some bytes ∧ ∀ font, Linked font bytes →
      ∀ (x y : Int) (c : BitVec 8) (color : PixelColor),
        (c.toNat < 1 → ∀ p, p ∈ Canvas.touched (writeAscii false font x y c color) ↔
          ∃ dy < 16, ∃ dx < 8, p = ⟨x + (dx : Nat), y + (dy : Nat)⟩ ∧
            IsInk oneGlyph (16 * c.toNat + dy) dx) ∧
        (1 ≤ c.toNat → writeAscii false font x y c color = []) ∧
        ∀ w ∈ writeAscii false font x y c color, w.2 = color :=
  writeAscii_compile oneGlyph 1 ⟨by decide +kernel, by decide +kernel⟩

end MikanOs.MakeFont
