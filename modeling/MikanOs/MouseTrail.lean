import Mathlib.Algebra.Ring.Int.Defs
import MikanOs.Mouse

/-!
# MikanOs.MouseTrail

What the mouse cursor leaves on the screen (`mouse.cpp`).  A move erases the
cursor where it was and draws it where it is, and the two images may overlap.

`session_showsCursor` says that nothing but the last image is left.
-/

namespace MikanOs

/-! ## the code -/

namespace MouseCursor

/-- The constructor. -/
def new (eraseColor : PixelColor) (initialPosition : Vector2D (BitVec 32)) :
    MouseCursor × List Write :=
  ({ eraseColor, position := initialPosition }, drawMouseCursor initialPosition)

/-- One call of `MoveRelative` after another. -/
def moveAll (c : MouseCursor) : List (Vector2D (BitVec 32)) → MouseCursor × List Write
  | [] => (c, [])
  | displacement :: displacements =>
      let (c, drawn) := c.moveRelative displacement
      let (c, drawn') := c.moveAll displacements
      (c, drawn ++ drawn')

/-- A cursor that is constructed and then moved. -/
def session (eraseColor : PixelColor) (initialPosition : Vector2D (BitVec 32))
    (displacements : List (Vector2D (BitVec 32))) : MouseCursor × List Write :=
  let (c, drawn) := new eraseColor initialPosition
  let (c, drawn') := c.moveAll displacements
  (c, drawn ++ drawn')

end MouseCursor

/-! ## what there is to see -/

/-- The colour of a character of the shape. -/
def inkColor (ch : Char) : Option PixelColor :=
  if ch = '@' then some ⟨0, 0, 0⟩ else if ch = '.' then some ⟨255, 255, 255⟩ else none

/-- A picture of the cursor at `position` and nothing else. -/
structure ShowsCursor (eraseColor : PixelColor) (position : Vector2D (BitVec 32))
    (picture : Vector2D Int → PixelColor) : Prop where
  image : ∀ dy < kMouseCursorHeight, ∀ dx < kMouseCursorWidth,
    picture (pixelOf position dx dy) = (inkColor (shapeAt dy dx)).getD eraseColor
  elsewhere : ∀ p, (∀ dy < kMouseCursorHeight, ∀ dx < kMouseCursorWidth,
    p ≠ pixelOf position dx dy) → picture p = eraseColor

/-- A position and the displacements from it, in integers. -/
def sumOf (p : Vector2D Int) (displacements : List (Vector2D (BitVec 32))) : Vector2D Int :=
  ⟨p.x + (displacements.map fun d => d.x.toInt).sum,
    p.y + (displacements.map fun d => d.y.toInt).sum⟩

/-- A pair of `int`s. -/
def IsInt (p : Vector2D Int) : Prop :=
  (-2 ^ 31 ≤ p.x ∧ p.x < 2 ^ 31) ∧ -2 ^ 31 ≤ p.y ∧ p.y < 2 ^ 31

instance (p : Vector2D Int) : Decidable (IsInt p) := inferInstanceAs (Decidable (_ ∧ _))

/-! ## the image -/

variable {position : Vector2D (BitVec 32)} {eraseColor : PixelColor}

/-- The pixels of a cursor are where the position says, as long as they can be
counted. -/
theorem pixelOf_eq {dx dy : Nat} (hdx : dx < kMouseCursorWidth) (hdy : dy < kMouseCursorHeight)
    (h : IsInt ⟨(exact position).x + dx, (exact position).y + dy⟩) :
    pixelOf position dx dy = ⟨(exact position).x + dx, (exact position).y + dy⟩ := by
  have hx : position.x.toInt + dx < 2 ^ 31 := h.1.2
  have hy : position.y.toInt + dy < 2 ^ 31 := h.2.2
  have hlower := BitVec.le_toInt (x := position.x)
  have hlower' := BitVec.le_toInt (x := position.y)
  unfold kMouseCursorWidth at hdx
  unfold kMouseCursorHeight at hdy
  have hdx' : (BitVec.ofNat 32 dx).toInt = dx := toInt_ofNat_of_lt (by omega)
  have hdy' : (BitVec.ofNat 32 dy).toInt = dy := toInt_ofNat_of_lt (by omega)
  rw [pixelOf, toInt_add_of_range (by omega) (by omega), toInt_add_of_range (by omega) (by omega),
    hdx', hdy']
  rfl

/-- Each pixel of the image belongs to one character. -/
theorem pixelOf_inj {dx dy dx' dy' : Nat} (hdx : dx < kMouseCursorWidth)
    (hdy : dy < kMouseCursorHeight) (hdx' : dx' < kMouseCursorWidth)
    (hdy' : dy' < kMouseCursorHeight) (h : pixelOf position dx dy = pixelOf position dx' dy') :
    dx = dx' ∧ dy = dy' := by
  have hinj : ∀ {z : BitVec 32} {i j : Nat}, i < 24 → j < 24 →
      (z + BitVec.ofNat 32 i).toInt = (z + BitVec.ofNat 32 j).toInt → i = j := by
    intro z i j hi hj heq
    have hnat := congrArg BitVec.toNat ((BitVec.add_right_inj z).mp (BitVec.eq_of_toInt_eq heq))
    rw [BitVec.toNat_ofNat, BitVec.toNat_ofNat] at hnat
    omega
  unfold kMouseCursorWidth at hdx hdx'
  unfold kMouseCursorHeight at hdy hdy'
  obtain ⟨hx, hy⟩ := Vector2D.mk.injEq .. ▸ h
  exact ⟨hinj (by omega) (by omega) hx, hinj hdy hdy' hy⟩

/-- The character that a pixel of the cursor is drawn for. -/
theorem mem_writes_drawMouseCursor {w : Write} (hw : w ∈ drawMouseCursor position) :
    ∃ dy < kMouseCursorHeight, ∃ dx < kMouseCursorWidth,
      w.1 = pixelOf position dx dy ∧ inkColor (shapeAt dy dx) = some w.2 := by
  unfold drawMouseCursor writeShape at hw
  simp only [List.mem_flatMap, List.mem_filterMap, List.mem_range, Option.map_eq_some_iff] at hw
  obtain ⟨dy, hdy, dx, hdx, c, hc, rfl⟩ := hw
  exact ⟨dy, hdy, dx, hdx, rfl, hc⟩

/-- Drawn on its own, the cursor is all there is to see. -/
theorem showsCursor_drawMouseCursor (eraseColor : PixelColor) (position : Vector2D (BitVec 32)) :
    ShowsCursor eraseColor position
      (Canvas.paint (fun _ => eraseColor) (drawMouseCursor position)) where
  image := by
    intro dy hdy dx hdx
    have hcolor : ∀ w ∈ drawMouseCursor position, w.1 = pixelOf position dx dy →
        inkColor (shapeAt dy dx) = some w.2 := by
      intro w hw heq
      obtain ⟨dy', hdy', dx', hdx', hpixel, hink⟩ := mem_writes_drawMouseCursor hw
      obtain ⟨rfl, rfl⟩ := pixelOf_inj hdx hdy hdx' hdy' (heq.symm.trans hpixel)
      exact hink
    by_cases hblank : shapeAt dy dx = ' '
    · rw [hblank]
      refine Canvas.paint_of_not_touched fun hmem => ?_
      obtain ⟨w, hw, heq⟩ := List.mem_map.mp hmem
      exact nomatch (hblank ▸ hcolor w hw heq : inkColor ' ' = some w.2)
    · refine Canvas.paint_of_agree (mem_drawMouseCursor.mpr ⟨dy, hdy, dx, hdx, hblank, rfl⟩) ?_
      intro w hw heq
      rw [hcolor w hw heq]
      rfl
  elsewhere := by
    intro p hp
    refine Canvas.paint_of_not_touched fun hmem => ?_
    obtain ⟨dy, hdy, dx, hdx, _, heq⟩ := mem_drawMouseCursor.mp hmem
    exact hp dy hdy dx hdx heq

/-! ## moves -/

/-- The mouse cursor as a sprite: it is erased wherever it is drawn. -/
def cursorSprite (eraseColor : PixelColor) :
    Canvas.Sprite (Vector2D Int) PixelColor (Vector2D (BitVec 32)) where
  ground := eraseColor
  draw := drawMouseCursor
  erase position := eraseMouseCursor position eraseColor
  mono := by
    intro position w hw
    unfold eraseMouseCursor writeShape at hw
    simp only [List.mem_flatMap, List.mem_filterMap, Option.map_eq_some_iff] at hw
    obtain ⟨dy, _, dx, _, c, hc, rfl⟩ := hw
    exact (Option.some.inj (Option.ite_none_right_eq_some.mp hc).2).symm
  covers := fun _ _ hp => mem_eraseMouseCursor.mpr (mem_drawMouseCursor.mp hp)

/-- Where the displacements take the cursor, one after the other. -/
def positions (position : Vector2D (BitVec 32)) :
    List (Vector2D (BitVec 32)) → List (Vector2D (BitVec 32))
  | [] => []
  | d :: ds => ⟨position.x + d.x, position.y + d.y⟩ ::
      positions ⟨position.x + d.x, position.y + d.y⟩ ds

/-- The moves of the cursor are those of the sprite. -/
theorem moveAll_eq (c : MouseCursor) (ds : List (Vector2D (BitVec 32))) :
    c.moveAll ds = (⟨c.eraseColor, (positions c.position ds).getLastD c.position⟩,
      (cursorSprite c.eraseColor).moves c.position (positions c.position ds)) := by
  induction ds generalizing c with
  | nil => rfl
  | cons d ds ih =>
      simp only [MouseCursor.moveAll, MouseCursor.moveRelative, ih, positions, List.getLastD_cons]
      rfl

/-- Only the last image is left. -/
theorem paint_moves_cursor (eraseColor : PixelColor) (position : Vector2D (BitVec 32))
    (ps : List (Vector2D (BitVec 32))) :
    Canvas.paint (fun _ => eraseColor)
        (drawMouseCursor position ++ (cursorSprite eraseColor).moves position ps) =
      Canvas.paint (fun _ => eraseColor) (drawMouseCursor (ps.getLastD position)) :=
  (cursorSprite eraseColor).paint_moves position ps

theorem sumOf_cons (p : Vector2D Int) (d : Vector2D (BitVec 32))
    (ds : List (Vector2D (BitVec 32))) :
    sumOf p (d :: ds) = sumOf ⟨p.x + d.x.toInt, p.y + d.y.toInt⟩ ds := by
  unfold sumOf
  rw [List.map_cons, List.map_cons, List.sum_cons, List.sum_cons, Int.add_assoc, Int.add_assoc]

/-- Positions that are `int`s are added up exactly. -/
theorem exact_getLastD_positions {ds : List (Vector2D (BitVec 32))}
    (h : ∀ k ≤ ds.length, IsInt (sumOf (exact position) (ds.take k))) :
    exact ((positions position ds).getLastD position) = sumOf (exact position) ds := by
  induction ds generalizing position with
  | nil => simp [sumOf, positions]
  | cons d ds ih =>
      obtain ⟨⟨hx, hx'⟩, hy, hy'⟩ := h 1 (by simp)
      simp only [List.take_succ_cons, List.take_zero, sumOf, List.map_cons, List.map_nil,
        List.sum_cons, List.sum_nil, Int.add_zero] at hx hx' hy hy'
      have hmoved : exact ⟨position.x + d.x, position.y + d.y⟩ =
          ⟨(exact position).x + d.x.toInt, (exact position).y + d.y.toInt⟩ :=
        Vector2D.mk.injEq .. ▸ ⟨toInt_add_of_range hx hx', toInt_add_of_range hy hy'⟩
      rw [positions, List.getLastD_cons, ih fun k hk => ?_, hmoved, sumOf_cons]
      have hnext := h (k + 1) (by simpa using hk)
      rw [List.take_succ_cons, sumOf_cons] at hnext
      rw [hmoved]
      exact hnext

/-- **The mouse cursor leaves no trail.**  On a plane in the erase colour,
after any displacements, there is one image of the cursor, where they add up
to, and the erase colour everywhere else. -/
theorem session_showsCursor (eraseColor : PixelColor) (initialPosition : Vector2D (BitVec 32))
    (displacements : List (Vector2D (BitVec 32)))
    (h : ∀ k ≤ displacements.length,
      IsInt (sumOf (exact initialPosition) (displacements.take k))) :
    let s := MouseCursor.session eraseColor initialPosition displacements
    let p := sumOf (exact initialPosition) displacements
    exact s.1.position = p ∧
      (∀ dy < kMouseCursorHeight, ∀ dx < kMouseCursorWidth, IsInt ⟨p.x + dx, p.y + dy⟩ →
        pixelOf s.1.position dx dy = ⟨p.x + dx, p.y + dy⟩) ∧
      ShowsCursor eraseColor s.1.position (Canvas.paint (fun _ => eraseColor) s.2) := by
  unfold MouseCursor.session MouseCursor.new
  simp only [moveAll_eq]
  rw [paint_moves_cursor, ← exact_getLastD_positions h]
  exact ⟨rfl, fun dy hdy dx hdx hint => pixelOf_eq hdx hdy hint,
    showsCursor_drawMouseCursor eraseColor _⟩

/-- Two moves within the first image, to the right and back over it. -/
theorem session_showsCursor_back :
    let s := MouseCursor.session ⟨45, 118, 237⟩ ⟨300#32, 200#32⟩
      [⟨3#32, 2#32⟩, ⟨0xfffffffb#32, 0#32⟩]
    let p := sumOf (exact ⟨300#32, 200#32⟩) [⟨3#32, 2#32⟩, ⟨0xfffffffb#32, 0#32⟩]
    exact s.1.position = p ∧
      (∀ dy < kMouseCursorHeight, ∀ dx < kMouseCursorWidth, IsInt ⟨p.x + dx, p.y + dy⟩ →
        pixelOf s.1.position dx dy = ⟨p.x + dx, p.y + dy⟩) ∧
      ShowsCursor ⟨45, 118, 237⟩ s.1.position (Canvas.paint (fun _ => ⟨45, 118, 237⟩) s.2) :=
  session_showsCursor ⟨45, 118, 237⟩ ⟨300#32, 200#32⟩ [⟨3#32, 2#32⟩, ⟨0xfffffffb#32, 0#32⟩]
    (by decide)

/-- On a screen that is all in the erase colour, the frame buffer shows the
picture that has been drawn. -/
theorem pixel_session {config : FrameBufferConfig} (valid : config.Valid)
    {initialPosition : Vector2D (BitVec 32)} {displacements : List (Vector2D (BitVec 32))}
    {m : ByteMemory} (hground : ∀ q, config.OnScreen q → config.pixel m q = eraseColor)
    (hdrawn : ∀ w ∈ (MouseCursor.session eraseColor initialPosition displacements).2,
      config.OnScreen w.1) {q : Vector2D Int} (hq : config.OnScreen q) :
    config.pixel (Canvas.paint m ((MouseCursor.session eraseColor initialPosition
        displacements).2.flatMap config.stores)) q =
      Canvas.paint (fun _ => eraseColor)
        (MouseCursor.session eraseColor initialPosition displacements).2 q := by
  rw [FrameBufferConfig.pixel_writes valid hdrawn hq]
  exact Canvas.paint_congr (hground q hq)

end MikanOs
