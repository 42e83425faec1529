import MikanOs.Console

/-!
# MikanOs.Console.Text

What the console makes of all the text it is given.  `putStrings_shows` says
that it shows the last lines, and `putStrings_redraw` that the screen is as if
it had been drawn from `buffer_`.
-/

namespace MikanOs.Console

variable {charSigned : Bool} {font : Font} {c c₁ c₂ : Console} {drawn drawn₁ drawn₂ : List Write}
  {ls ls' ls'' : List (List (BitVec 8))} {color : PixelColor} {text : List (BitVec 8)}
  {draw next : Draw}

/-! ## the area -/

/-- A pixel of the console. -/
structure InArea (p : Vector2D Int) : Prop where
  x_nonneg : 0 ≤ p.x
  x_lt : p.x < (8 * kColumns : Nat)
  y_nonneg : 0 ≤ p.y
  y_lt : p.y < (16 * kRows : Nat)

theorem mem_area {p : Vector2D Int} : p ∈ Canvas.touched (area color) ↔ InArea p := by
  rw [Canvas.touched, List.mem_map]
  constructor
  · rintro ⟨w, hw, rfl⟩
    obtain ⟨y, hy, hrow⟩ := List.mem_flatMap.mp hw
    obtain ⟨x, hx, rfl⟩ := List.mem_map.mp hrow
    have hx := List.mem_range.mp hx
    have hy := List.mem_range.mp hy
    exact ⟨Int.natCast_nonneg x, Int.ofNat_lt.mpr hx, Int.natCast_nonneg y, Int.ofNat_lt.mpr hy⟩
  · rintro ⟨hx, hx', hy, hy'⟩
    obtain ⟨px, py⟩ := p
    refine ⟨(⟨px, py⟩, color), List.mem_flatMap.mpr ⟨py.toNat, ?_, ?_⟩, rfl⟩
    · rw [List.mem_range]
      simp only at hy hy'
      omega
    · refine List.mem_map.mpr ⟨px.toNat, ?_, ?_⟩
      · rw [List.mem_range]
        simp only at hx hx'
        omega
      · rw [Int.toNat_of_nonneg hx, Int.toNat_of_nonneg hy]

theorem mono_area : Canvas.Mono color (area color) := by
  intro w hw
  obtain ⟨y, _, hrow⟩ := List.mem_flatMap.mp hw
  obtain ⟨x, _, rfl⟩ := List.mem_map.mp hrow
  rfl

theorem mono_drawLines : Canvas.Mono color (drawLines charSigned font ls color) := by
  intro w hw
  obtain ⟨_, _, hline⟩ := List.mem_flatMap.mp hw
  exact mono_drawLine w hline

/-- The lines are drawn in the area. -/
theorem inArea_of_mem_drawLines (h : Shows c ls) {w : Write}
    (hw : w ∈ drawLines charSigned font ls color) : InArea w.1 := by
  obtain ⟨⟨line, row⟩, hrow, hline⟩ := List.mem_flatMap.mp hw
  obtain ⟨_, hlt, hget⟩ := List.mem_zipIdx hrow
  obtain ⟨hx, hx', hy, hy'⟩ := mem_drawLine hline
  have hfits := (h.lines line (hget ▸ List.getElem_mem _)).fits
  have hrows := h.rows
  unfold kRows at hrows
  unfold kColumns at hfits
  refine ⟨hx, ?_, by omega, ?_⟩
  · rw [kColumns]
    omega
  · rw [kRows]
    omega

/-- In the area, the picture is the lines on the background. -/
def Agrees (charSigned : Bool) (font : Font) (fgColor bgColor : PixelColor)
    (ls : List (List (BitVec 8))) (picture : Vector2D Int → PixelColor) : Prop :=
  ∀ p, InArea p → picture p =
    if p ∈ Canvas.touched (drawLines charSigned font ls fgColor) then fgColor else bgColor

/-- A call on a console that shows `ls` makes it show `ls'`, on the screen
too, and draws in the area only. -/
structure Updates (charSigned : Bool) (font : Font) (c : Console) (ls : List (List (BitVec 8)))
    (draw : Draw) (c' : Console) (ls' : List (List (BitVec 8))) (drawn : List Write) : Prop where
  returns : draw c = .ok (c', drawn)
  shows : Shows c' ls'
  fgColor : c'.fgColor = c.fgColor
  bgColor : c'.bgColor = c.bgColor
  inArea : ∀ w ∈ drawn, InArea w.1
  agrees : ∀ picture, Agrees charSigned font c.fgColor c.bgColor ls picture →
    Agrees charSigned font c.fgColor c.bgColor ls' (Canvas.paint picture drawn)

theorem Goes.updates (h : Goes charSigned font c ls draw ls') :
    ∃ c' drawn, Updates charSigned font c ls draw c' ls' drawn := by
  obtain ⟨c', drawn, hreturns, hshows, hfg, hbg, hdrawn⟩ := h
  have hmono := fun ls => @mono_drawLines charSigned font ls c.fgColor
  refine ⟨c', drawn, hreturns, hshows, hfg, hbg, ?_, ?_⟩
  · intro w hw
    rcases hdrawn with hmore | hanew
    · have hline : w ∈ drawLines charSigned font ls' c.fgColor := by
        rw [hmore]
        exact List.mem_append_right _ hw
      exact inArea_of_mem_drawLines hshows hline
    · rw [hanew] at hw
      rcases List.mem_append.mp hw with hw | hw
      · exact mem_area.mp (List.mem_map_of_mem hw)
      · exact inArea_of_mem_drawLines hshows hw
  · intro picture hagrees p hp
    rcases hdrawn with hmore | hanew
    · have hcolor : Canvas.Mono c.fgColor drawn := fun w hw =>
        hmono ls' w (hmore ▸ List.mem_append_right _ hw)
      rw [Canvas.paint_of_mono hcolor, hagrees p hp, hmore, Canvas.touched_append]
      by_cases hold : p ∈ Canvas.touched (drawLines charSigned font ls c.fgColor)
      · simp [hold]
      · simp [hold]
    · rw [hanew, Canvas.paint_append, Canvas.paint_of_mono (hmono ls'),
        Canvas.paint_of_mono mono_area, if_pos (mem_area.mpr hp)]

/-! ## all of the text -/

theorem Updates.nothing (h : Shows c ls) : Updates charSigned font c ls .nothing c ls [] :=
  ⟨rfl, h, rfl, rfl, nofun, fun _ hagrees => hagrees⟩

theorem Updates.andThen (h : Updates charSigned font c ls draw c₁ ls' drawn₁)
    (h' : Updates charSigned font c₁ ls' next c₂ ls'' drawn₂) :
    Updates charSigned font c ls (draw.andThen next) c₂ ls'' (drawn₁ ++ drawn₂) where
  returns := Draw.andThen_eq h.returns h'.returns
  shows := h'.shows
  fgColor := h'.fgColor.trans h.fgColor
  bgColor := h'.bgColor.trans h.bgColor
  inArea w hw := (List.mem_append.mp hw).elim (h.inArea w) (h'.inArea w)
  agrees picture hagrees := by
    have hnext := h'.agrees (Canvas.paint picture drawn₁)
    rw [h.fgColor, h.bgColor] at hnext
    rw [Canvas.paint_append]
    exact hnext (h.agrees picture hagrees)

/-- `PutString` goes on with the text. -/
theorem putString_updates (charSigned : Bool) (font : Font) (h : Shows c (lastLines text))
    (s : List (BitVec 8)) :
    ∃ c' drawn, Updates charSigned font c (lastLines text) (putString charSigned font (s ++ [0#8]))
      c' (lastLines (text ++ cString s)) drawn := by
  induction s generalizing c text with
  | nil =>
      rw [cString, List.takeWhile_nil, List.append_nil]
      exact ⟨c, [], .nothing h⟩
  | cons ch s ih =>
      rw [List.cons_append, putString]
      by_cases hnul : ch = 0#8
      · rw [if_pos hnul, cString, List.takeWhile_cons_of_neg (by simpa using hnul),
          List.append_nil]
        exact ⟨c, [], .nothing h⟩
      · rw [if_neg hnul, cString, List.takeWhile_cons_of_pos (by simpa using hnul)]
        obtain ⟨c₁, drawn₁, hput⟩ := (step_shows h hnul).updates
        obtain ⟨c₂, drawn₂, hrest⟩ := ih hput.shows
        rw [List.append_assoc, List.singleton_append] at hrest
        exact ⟨c₂, _, hput.andThen hrest⟩

/-- The text of some calls. -/
def textOf (strings : List (List (BitVec 8))) : List (BitVec 8) := strings.flatMap cString

theorem putStrings_updates (charSigned : Bool) (font : Font) (h : Shows c (lastLines text))
    (strings : List (List (BitVec 8))) :
    ∃ c' drawn, Updates charSigned font c (lastLines text)
      (putStrings charSigned font (strings.map (· ++ [0#8]))) c'
      (lastLines (text ++ textOf strings)) drawn := by
  induction strings generalizing c text with
  | nil =>
      rw [textOf, List.flatMap_nil, List.append_nil]
      exact ⟨c, [], .nothing h⟩
  | cons s strings ih =>
      obtain ⟨c₁, drawn₁, hput⟩ := putString_updates charSigned font h s
      obtain ⟨c₂, drawn₂, hrest⟩ := ih hput.shows
      rw [List.append_assoc] at hrest
      exact ⟨c₂, _, hput.andThen hrest⟩

theorem lastLines_nil : lastLines [] = [[]] := LastLines.shown_nil (by decide)

/-- A console to begin with. -/
theorem new_shows (fgColor bgColor : PixelColor) : Shows (new fgColor bgColor) (lastLines []) := by
  rw [lastLines_nil]
  refine ⟨?_, ⟨[], [], rfl, rfl, rfl⟩, by decide, ?_⟩
  · refine Vector.ext fun i hi => ?_
    rw [getElem_screenOf hi, ← List.nil_append [[]], getD_append_nil, List.getD_nil, rowOf_nil]
    exact Vector.getElem_replicate hi
  · exact List.forall_mem_singleton.mpr printable_nil

/-- **The console shows the end of the text.**  After any calls of
`PutString`, none of which leaves `buffer_`, its rows are the last lines of
the text, each cut to 79 characters, and the cursor is at the end of the last
of them. -/
theorem putStrings_shows (charSigned : Bool) (font : Font) (fgColor bgColor : PixelColor)
    (strings : List (List (BitVec 8))) :
    ∃ c drawn, putStrings charSigned font (strings.map (· ++ [0#8])) (new fgColor bgColor) =
        .ok (c, drawn) ∧
      Shows c (lastLines (textOf strings)) ∧
      c.cursorRow < kRows ∧ c.cursorColumn < kColumns := by
  obtain ⟨c, drawn, h⟩ := putStrings_updates charSigned font (new_shows fgColor bgColor) strings
  rw [List.nil_append] at h
  obtain ⟨before, line, hls, hrow, hcolumn⟩ := h.shows.cursor
  have hrows := h.shows.rows
  have hfits := (h.shows.lines line (hls ▸ List.mem_append_right _ List.mem_cons_self)).fits
  rw [hls, List.length_append, List.length_singleton] at hrows
  unfold kColumns at hfits ⊢
  exact ⟨c, drawn, h.returns, h.shows, by omega, by omega⟩

/-! ## drawing from the buffer -/

/-- `WriteString` of each row draws the lines. -/
theorem redraw_eq (h : Shows c ls) :
    redraw charSigned font c = .ok (drawLines charSigned font ls c.fgColor) := by
  have hrow : ∀ row : Fin 25,
      writeString charSigned font 0 (16 * (row : Nat)) c.buffer[row].toList c.fgColor =
        pure (drawLine charSigned font 0 (16 * (row : Nat)) (ls.getD row []) c.fgColor) := by
    intro row
    have hline := printable_getD h.lines row
    obtain ⟨rest, hrest⟩ := toList_rowOf hline.fits
    have hget : c.buffer[row] = rowOf (ls.getD row []) := by
      rw [h.buffer]
      exact getElem_screenOf row.isLt
    rw [hget, hrest]
    exact writeString_eq hline.noNul rest
  have hflatten : ((List.finRange 25).map fun row : Fin 25 =>
      drawLine charSigned font 0 (16 * (row : Nat)) (ls.getD row []) c.fgColor).flatten =
      drawLines charSigned font ls c.fgColor := by
    rw [drawLines_eq h.rows, ← List.flatMap_def, kRows, ← List.map_coe_finRange_eq_range,
      List.flatMap_map]
  unfold redraw
  simp only [hrow, List.mapM_pure, pure_bind, hflatten]
  rfl

/-- There is nothing to draw at first. -/
theorem agrees_nil {fgColor bgColor : PixelColor} {picture : Vector2D Int → PixelColor}
    (h : ∀ p, InArea p → picture p = bgColor) :
    Agrees charSigned font fgColor bgColor (lastLines []) picture := by
  intro p hp
  rw [h p hp, lastLines_nil, if_neg]
  exact List.not_mem_nil

/-- **Drawing bit by bit comes to drawing from the buffer.**  On an area that
was the background at first, and that only the console draws on, the picture
is the background with `WriteString` of the 25 rows over it; and the console
draws nowhere else. -/
theorem putStrings_redraw (charSigned : Bool) (font : Font) (fgColor bgColor : PixelColor)
    (picture : Vector2D Int → PixelColor) (h : ∀ p, InArea p → picture p = bgColor)
    (strings : List (List (BitVec 8))) :
    ∃ c drawn redrawn,
      putStrings charSigned font (strings.map (· ++ [0#8])) (new fgColor bgColor) =
        .ok (c, drawn) ∧
      redraw charSigned font c = .ok redrawn ∧
      (∀ p, InArea p → Canvas.paint picture drawn p = Canvas.paint (fun _ => bgColor) redrawn p) ∧
      ∀ w ∈ drawn, InArea w.1 := by
  obtain ⟨c, drawn, hupdates⟩ :=
    putStrings_updates charSigned font (new_shows fgColor bgColor) strings
  rw [List.nil_append] at hupdates
  have hfg : c.fgColor = fgColor := hupdates.fgColor
  refine ⟨c, drawn, _, hupdates.returns, redraw_eq hupdates.shows, ?_, hupdates.inArea⟩
  intro p hp
  rw [hfg, Canvas.paint_of_mono mono_drawLines]
  exact hupdates.agrees picture (agrees_nil h) p hp

/-- A call that scrolls and calls that do not, on a screen that is all
background. -/
theorem putStrings_redraw_calls :
    ∃ c drawn redrawn,
      putStrings true ⟨fun _ => 0x5a#8, 4096⟩
          ([[72#8, 105#8], List.replicate 30 10#8, [33#8, 0#8, 63#8]].map (· ++ [0#8]))
          (new ⟨255, 255, 255⟩ ⟨45, 118, 237⟩) = .ok (c, drawn) ∧
      redraw true ⟨fun _ => 0x5a#8, 4096⟩ c = .ok redrawn ∧
      (∀ p, InArea p → Canvas.paint (fun _ => ⟨45, 118, 237⟩) drawn p =
        Canvas.paint (fun _ => ⟨45, 118, 237⟩) redrawn p) ∧
      ∀ w ∈ drawn, InArea w.1 :=
  putStrings_redraw true ⟨fun _ => 0x5a#8, 4096⟩ ⟨255, 255, 255⟩ ⟨45, 118, 237⟩
    (fun _ => ⟨45, 118, 237⟩) (fun _ _ => rfl)
    [[72#8, 105#8], List.replicate 30 10#8, [33#8, 0#8, 63#8]]

/-- The frame buffer shows the end of the text, and around the area what it
showed before. -/
theorem pixel_putStrings (charSigned : Bool) (font : Font) (fgColor bgColor : PixelColor)
    {config : FrameBufferConfig} (valid : config.Valid)
    (hscreen : ∀ p, InArea p → config.OnScreen p) (m : ByteMemory)
    (h : ∀ p, InArea p → config.pixel m p = bgColor) (strings : List (List (BitVec 8))) :
    ∃ c drawn,
      putStrings charSigned font (strings.map (· ++ [0#8])) (new fgColor bgColor) =
        .ok (c, drawn) ∧
      Agrees charSigned font fgColor bgColor (lastLines (textOf strings))
        (config.pixel (Canvas.paint m (drawn.flatMap config.stores))) ∧
      ∀ p, config.OnScreen p → ¬ InArea p →
        config.pixel (Canvas.paint m (drawn.flatMap config.stores)) p = config.pixel m p := by
  obtain ⟨c, drawn, hupdates⟩ :=
    putStrings_updates charSigned font (new_shows fgColor bgColor) strings
  rw [List.nil_append] at hupdates
  have hdrawn : ∀ w ∈ drawn, config.OnScreen w.1 := fun w hw => hscreen w.1 (hupdates.inArea w hw)
  refine ⟨c, drawn, hupdates.returns, fun p hp => ?_, fun p hscreen' hp => ?_⟩
  · rw [FrameBufferConfig.pixel_writes valid hdrawn (hscreen p hp)]
    exact hupdates.agrees _ (agrees_nil h) p hp
  · rw [FrameBufferConfig.pixel_writes valid hdrawn hscreen']
    refine Canvas.paint_of_not_touched fun hmem => ?_
    obtain ⟨w, hw, rfl⟩ := List.mem_map.mp hmem
    exact hp (hupdates.inArea w hw)

end MikanOs.Console
