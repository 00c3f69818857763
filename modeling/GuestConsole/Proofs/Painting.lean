import GuestConsole.Console.Session

/-!
# What a drawing leaves on the screen

The pixels of a display show a scene: the picture in the guest's bitmap with the cursor
over it.  A drawing that redraws everything that has changed, the band of the old cursor
and the new cursor makes the screen show the new scene.
-/

set_option autoImplicit false

namespace GuestConsole

open GuestConsole.Display

/-! ## Scenes -/

namespace Display

structure Picture where
  size : Size
  word : Nat → UInt16

def Picture.bit (picture : Picture) (x y : Nat) : Bool :=
  (picture.word (y * picture.size.wordsPerRow + x / 16)).toNat.testBit (15 - x % 16)

def Picture.bit? (picture : Picture) (x y : Nat) : Option Bool :=
  if x < picture.size.width.toNat ∧ y < picture.size.height.toNat then some (picture.bit x y)
  else none

def Glyph.Covers (glyph : Glyph) (pointer : Position) (x y : Nat) : Prop :=
  pointer.x.toNat ≤ x ∧ x < pointer.x.toNat + 16 ∧
    pointer.y.toNat ≤ y ∧ y < pointer.y.toNat + 16 ∧
    (glyph.toList.getD (y - pointer.y.toNat) 0).toNat.testBit
      (15 - (x - pointer.x.toNat)) = true

instance (glyph : Glyph) (pointer : Position) (x y : Nat) :
    Decidable (glyph.Covers pointer x y) :=
  inferInstanceAs (Decidable (_ ∧ _ ∧ _ ∧ _ ∧ _))

structure Scene where
  palette : Palette
  picture : Picture
  glyph : Glyph
  pointer : Position

def Palette.ofBit (palette : Palette) (bit : Bool) : Color :=
  if bit then palette.foreground else palette.background

def Scene.color (scene : Scene) (x y : Nat) : Color :=
  if scene.glyph.Covers scene.pointer x y then scene.palette.cursor
  else scene.palette.ofBit (scene.picture.bit x y)

end Display

/-- The colour last written at a screen point, by a history with the latest effect first. -/
def lastColor (point : Point) : List Effect → Option Color
  | [] => none
  | .drew (.pixel other color) :: rest =>
      if other = point then some color else lastColor point rest
  | _ :: rest => lastColor point rest

/-- Every pixel of the display shows its part of the scene. -/
def Shows (history : List Effect) (origin : Point) (scene : Scene) : Prop :=
  ∀ x y, x < scene.picture.size.width.toNat → y < scene.picture.size.height.toNat →
    lastColor (origin.offset x y) history = some (scene.color x y)

/-! ## Strokes on one point -/

def Display.Stroke.point? : Stroke → Option Point
  | .fetch _ => none
  | .pixel point _ => some point

def Display.Touches (strokes : List Stroke) (point : Point) : Prop :=
  some point ∈ strokes.map Stroke.point?

instance (strokes : List Stroke) (point : Point) : Decidable (Touches strokes point) :=
  inferInstanceAs (Decidable (_ ∈ _))

section Strokes
variable {point : Point} {history : List Effect}

theorem touches_iff {strokes : List Stroke} :
    Touches strokes point ↔ ∃ color, Stroke.pixel point color ∈ strokes := by
  constructor
  · intro touched
    obtain ⟨stroke, listed, writes⟩ := List.mem_map.mp touched
    cases stroke with
    | fetch index => cases writes
    | pixel other color =>
        cases writes
        exact ⟨color, listed⟩
  · rintro ⟨color, listed⟩
    exact List.mem_map.mpr ⟨_, listed, rfl⟩

theorem touches_append {first second : List Stroke} :
    Touches (first ++ second) point ↔ Touches first point ∨ Touches second point := by
  rw [Touches, List.map_append, List.mem_append]
  exact Iff.rfl

theorem lastColor_skip {effect : Effect} (other : ∀ stroke, effect ≠ .drew stroke) :
    lastColor point (effect :: history) = lastColor point history := by
  cases effect with
  | drew stroke => exact absurd rfl (other stroke)
  | _ => rfl

theorem lastColor_drew (stroke : Stroke) :
    lastColor point (.drew stroke :: history) =
      match stroke with
      | .fetch _ => lastColor point history
      | .pixel other color => if other = point then some color else lastColor point history := by
  cases stroke with
  | fetch index => rfl
  | pixel other color => rfl

theorem lastColor_untouched (strokes : List Stroke)
    (untouched : ∀ color, Stroke.pixel point color ∉ strokes) :
    lastColor point (strokes.map Effect.drew ++ history) = lastColor point history := by
  induction strokes with
  | nil => rfl
  | cons stroke rest ih =>
      have later := ih fun color member => untouched color (List.mem_cons_of_mem stroke member)
      rw [List.map_cons, List.cons_append, lastColor_drew]
      cases stroke with
      | fetch index => exact later
      | pixel other color =>
          have elsewhere : other ≠ point := by
            intro same
            apply untouched color
            rw [same]
            exact List.mem_cons_self
          simp only [if_neg elsewhere]
          exact later

theorem lastColor_painted {color : Color} (strokes : List Stroke)
    (painted : Stroke.pixel point color ∈ strokes)
    (uniform : ∀ other, Stroke.pixel point other ∈ strokes → other = color) :
    lastColor point (strokes.map Effect.drew ++ history) = some color := by
  induction strokes with
  | nil => cases painted
  | cons stroke rest ih =>
      have uniformLater : ∀ other, Stroke.pixel point other ∈ rest → other = color :=
        fun other member => uniform other (List.mem_cons_of_mem stroke member)
      rw [List.map_cons, List.cons_append, lastColor_drew]
      cases stroke with
      | fetch index =>
          rcases List.mem_cons.mp painted with here | later
          · cases here
          · exact ih later uniformLater
      | pixel other given =>
          by_cases here : other = point
          · subst here
            have same : given = color := uniform given List.mem_cons_self
            simp only [if_pos, same]
          · simp only [if_neg here]
            rcases List.mem_cons.mp painted with first | later
            · exact absurd (Stroke.pixel.inj first).1.symm here
            · exact ih later uniformLater

theorem lastColor_uniform {color : Color} (strokes : List Stroke)
    (uniform : ∀ other, Stroke.pixel point other ∈ strokes → other = color)
    (shown : Touches strokes point ∨ lastColor point history = some color) :
    lastColor point (strokes.reverse.map Effect.drew ++ history) = some color := by
  by_cases touched : Touches strokes point
  · obtain ⟨given, drawn⟩ := touches_iff.mp touched
    rw [uniform given drawn] at drawn
    apply lastColor_painted strokes.reverse (List.mem_reverse.mpr drawn)
    intro other member
    exact uniform other (List.mem_reverse.mp member)
  · rw [lastColor_untouched strokes.reverse]
    · exact shown.resolve_left touched
    · intro other member
      exact touched (touches_iff.mpr ⟨other, List.mem_reverse.mp member⟩)

end Strokes

/-! ## Carrying strokes out -/

section Screens
variable {σ : Type} (put : Point → Color → σ → Option σ)

def Display.Stroke.paint? (screen : σ) : Stroke → Option σ
  | .fetch _ => some screen
  | .pixel point color => put point color screen

/-- The screen behind some strokes, if it takes the pixel of each of them. -/
def screenAfter (strokes : List Stroke) (screen : σ) : Option σ :=
  strokes.foldlM (Stroke.paint? put) screen

theorem screenAfter_append (first second : List Stroke) (screen : σ) :
    screenAfter put (first ++ second) screen =
      (screenAfter put first screen).bind (screenAfter put second) :=
  List.foldlM_append

theorem carryOut_cons (stroke : Stroke) (rest drawn : List Stroke) (screen : σ) :
    carryOut put (stroke :: rest) drawn screen =
      match stroke.paint? put screen with
      | none => ⟨false, drawn, screen⟩
      | some next => carryOut put rest (stroke :: drawn) next := by
  cases stroke <;> rfl

theorem carryOut_splits (strokes drawn : List Stroke) (screen : σ) :
    (∃ later, screenAfter put strokes screen = some later ∧
      carryOut put strokes drawn screen = ⟨true, strokes.reverse ++ drawn, later⟩) ∨
    (∃ done stroke rest later, strokes = done ++ stroke :: rest ∧
      screenAfter put done screen = some later ∧ stroke.paint? put later = none ∧
      carryOut put strokes drawn screen = ⟨false, done.reverse ++ drawn, later⟩) := by
  -- `drawn` and `screen` are those of the strokes that have been carried out
  induction strokes generalizing drawn screen with
  | nil => exact .inl ⟨screen, rfl, rfl⟩
  | cons stroke rest ih =>
      rw [carryOut_cons]
      cases painted : stroke.paint? put screen with
      | none => exact .inr ⟨[], stroke, rest, screen, rfl, rfl, painted, rfl⟩
      | some next =>
          have behind (strokes : List Stroke) : screenAfter put (stroke :: strokes) screen =
              screenAfter put strokes next := by
            simp only [screenAfter, List.foldlM_cons, painted, Option.bind_eq_bind,
              Option.bind_some]
          rcases ih (stroke :: drawn) next with
            ⟨later, shown, complete⟩ | ⟨done, refused, lost, later, parts, shown, stops, broken⟩
          · left
            refine ⟨later, (behind rest).trans shown, ?_⟩
            simp only [complete, List.reverse_cons, List.append_assoc, List.cons_append,
              List.nil_append]
          · right
            refine ⟨stroke :: done, refused, lost, later, congrArg (stroke :: ·) parts,
              (behind done).trans shown, stops, ?_⟩
            simp only [broken, List.reverse_cons, List.append_assoc, List.cons_append,
              List.nil_append]

/-- The screen is what the strokes that have been recorded make of it, and nothing else. -/
theorem carryOut_screen (strokes : List Stroke) (screen : σ) :
    let drawn := carryOut put strokes [] screen
    screenAfter put drawn.strokes.reverse screen = some drawn.screen := by
  intro drawn
  rcases carryOut_splits put strokes [] screen with
    ⟨later, shown, carried⟩ | ⟨done, stroke, rest, later, _, shown, _, carried⟩
  · simp only [drawn, carried, List.append_nil, List.reverse_reverse, shown]
  · simp only [drawn, carried, List.append_nil, List.reverse_reverse, shown]

variable {put}

theorem carryOut_accepted (accepts : ∀ point color screen, (put point color screen).isSome)
    (strokes : List Stroke) (screen : σ) :
    ∃ later, screenAfter put strokes screen = some later ∧
      carryOut put strokes [] screen = ⟨true, strokes.reverse, later⟩ := by
  rcases carryOut_splits put strokes [] screen with
    ⟨later, shown, carried⟩ | ⟨done, stroke, rest, later, _, _, stops, _⟩
  · exact ⟨later, shown, carried.trans (by rw [List.append_nil])⟩
  · cases stroke with
    | fetch index => cases stops
    | pixel point color =>
        have taken := accepts point color later
        rw [show put point color later = none from stops] at taken
        cases taken

end Screens

/-! ## Where a drawing writes -/

theorem toInt_add_pixel {first : Int32} {pixel : Nat} (small : pixel < 65536)
    (fits : first.toInt + pixel < 2147483648) :
    (first + Int32.ofNat pixel).toInt = first.toInt + pixel := by
  have least := first.le_toInt
  rw [Int32.toInt_add, Int32.toInt_ofNat_of_lt (by omega)]
  exact Int.bmod_eq_of_le_mul_two (by omega) (by omega)

theorem offset_injective (origin : Point) {x y x' y' : Nat} (xSmall : x < 65536)
    (ySmall : y < 65536) (xSmall' : x' < 65536) (ySmall' : y' < 65536)
    (same : origin.offset x y = origin.offset x' y') : x = x' ∧ y = y' := by
  have cancel (base : Int32) {a b : Nat} (aSmall : a < 65536) (bSmall : b < 65536)
      (equal : base + Int32.ofNat a = base + Int32.ofNat b) : a = b := by
    have words : Int32.ofNat a = Int32.ofNat b := (Int32.add_right_inj base).mp equal
    have numbers := congrArg Int32.toInt words
    rw [Int32.toInt_ofNat_of_lt (by omega), Int32.toInt_ofNat_of_lt (by omega)] at numbers
    exact Int.ofNat.inj numbers
  obtain ⟨xs, ys⟩ := Point.mk.inj same
  exact ⟨cancel _ xSmall xSmall' xs, cancel _ ySmall ySmall' ys⟩

section Bitmap
variable (brush : Brush) (picture : Picture)

/-- The pixels among the strokes are pixels of the picture. -/
def Display.Picture.Paints (strokes : List Stroke) : Prop :=
  ∀ point color, Stroke.pixel point color ∈ strokes →
    ∃ x y, x < picture.size.width.toNat ∧ y < picture.size.height.toNat ∧
      point = brush.origin.offset x y ∧ color = brush.palette.ofBit (picture.bit x y)

theorem paints_flatMap {α : Type} {list : List α} {strokes : α → List Stroke}
    (each : ∀ item ∈ list, picture.Paints brush (strokes item)) :
    picture.Paints brush (list.flatMap strokes) := by
  intro point color member
  obtain ⟨item, listed, drawn⟩ := List.mem_flatMap.mp member
  exact each item listed point color drawn

theorem drawBit_exact (row : UInt16) (column bit : Nat) (small : bit < 16)
    (inside : column * 16 + (15 - bit) < picture.size.width.toNat) :
    brush.drawBit picture.size row (column * 16)
        (picture.word (picture.size.wordIndex row column)) bit =
      some (.pixel (brush.origin.offset (column * 16 + (15 - bit)) row.toNat)
        (brush.palette.ofBit (picture.bit (column * 16 + (15 - bit)) row.toNat))) := by
  have word : (column * 16 + (15 - bit)) / 16 = column := by omega
  have place : 15 - (column * 16 + (15 - bit)) % 16 = bit := by omega
  simp only [Brush.drawBit, if_pos inside, Picture.bit, word, place, Size.wordIndex,
    Palette.ofBit]
  rfl

theorem drawRow_paints (span : WordSpan) (row : UInt16) :
    picture.Paints brush (brush.drawRow picture.word picture.size span row) := by
  intro point color member
  unfold Brush.drawRow at member
  split at member
  case isFalse => cases member
  case isTrue shown =>
    obtain ⟨column, _, drawn⟩ := List.mem_flatMap.mp member
    rcases List.mem_cons.mp drawn with fetched | drawn
    · cases fetched
    · obtain ⟨bit, small, given⟩ := List.mem_filterMap.mp drawn
      have small : bit < 16 := List.mem_range.mp small
      by_cases inside : column * 16 + (15 - bit) < picture.size.width.toNat
      · rw [drawBit_exact brush picture row column bit small inside] at given
        obtain ⟨rfl, rfl⟩ := Stroke.pixel.inj (Option.some.inj given)
        exact ⟨_, row.toNat, inside, UInt16.lt_iff_toNat_lt.mp shown, rfl, rfl⟩
      · simp only [Brush.drawBit, if_neg inside] at given
        cases given

theorem mem_takeWhile_range' {column limit : Nat} (count first : Nat) (low : first ≤ column)
    (high : column < first + count) (shown : column * 16 < limit) :
    column ∈ (List.range' first count).takeWhile fun other => other * 16 < limit := by
  induction count generalizing first with
  | zero => omega
  | succ count ih =>
      rw [List.range'_succ, List.takeWhile_cons_of_pos (by rw [decide_eq_true_iff]; omega)]
      by_cases here : column = first
      · rw [here]
        exact List.mem_cons_self
      · exact List.mem_cons_of_mem first (ih (first + 1) (by omega) (by omega))

theorem pixel_mem_drawRow {span : WordSpan} {row : UInt16} {x : Nat}
    (shown : row.toNat < picture.size.height.toNat) (inside : x < picture.size.width.toNat)
    (first : span.first ≤ x / 16) (stop : x / 16 < span.stop) :
    Stroke.pixel (brush.origin.offset x row.toNat)
        (brush.palette.ofBit (picture.bit x row.toNat)) ∈
      brush.drawRow picture.word picture.size span row := by
  have place : x / 16 * 16 + (15 - (15 - x % 16)) = x := by omega
  have small : 15 - x % 16 < 16 := by omega
  have bit := drawBit_exact brush picture row (x / 16) (15 - x % 16) small
    (by rw [place]; exact inside)
  rw [place] at bit
  rw [Brush.drawRow, if_pos (UInt16.lt_iff_toNat_lt.mpr shown)]
  refine List.mem_flatMap.mpr ⟨x / 16, mem_takeWhile_range' _ _ first (by omega) (by omega), ?_⟩
  refine List.mem_cons_of_mem _ (List.mem_filterMap.mpr ?_)
  exact ⟨15 - x % 16, List.mem_range.mpr small, bit⟩

theorem mem_rows {first stop : UInt16} {y : Nat} (above : first.toNat ≤ y)
    (below : y < stop.toNat) :
    ∃ row ∈ Brush.rows first stop, row.toNat = y := by
  have small : y < 65536 := Nat.lt_trans below stop.toNat_lt
  refine ⟨UInt16.ofNat y, List.mem_map.mpr ⟨y, ?_, rfl⟩, UInt16.toNat_ofNat_of_lt small⟩
  exact List.mem_range'_1.mpr ⟨above, by omega⟩

theorem toNat_min (a b : UInt16) : (min a b).toNat = min a.toNat b.toNat := by
  change (if a ≤ b then a else b).toNat = _
  split
  case isTrue ordered => exact (Nat.min_eq_left (UInt16.le_iff_toNat_le.mp ordered)).symm
  case isFalse reversed =>
    have below : b.toNat ≤ a.toNat :=
      Nat.le_of_not_le fun other => reversed (UInt16.le_iff_toNat_le.mpr other)
    exact (Nat.min_eq_right below).symm

def Display.Rect.Has (rect : Rect) (x y : Nat) : Prop :=
  rect.x.toNat ≤ x ∧ x < rect.right ∧ rect.y.toNat ≤ y ∧ y < rect.bottom

theorem isEmpty_eq_false_iff {rect : Rect} :
    rect.isEmpty = false ↔ 0 < rect.width.toNat ∧ 0 < rect.height.toNat := by
  simp only [Rect.isEmpty, Bool.or_eq_false_iff, beq_eq_false_iff_ne, ne_eq,
    ← UInt16.toNat_inj, UInt16.toNat_zero, Nat.pos_iff_ne_zero]

theorem has_area {rect : Rect} {x y : Nat} (has : rect.Has x y) : rect.isEmpty = false := by
  obtain ⟨xLow, xHigh, yLow, yHigh⟩ := has
  simp only [Rect.right, Rect.bottom] at xHigh yHigh
  exact isEmpty_eq_false_iff.mpr ⟨by omega, by omega⟩

theorem covering_span {x : UInt16} (width : UInt16) {column : Nat} (low : x.toNat ≤ column)
    (high : column < x.toNat + width.toNat) :
    (WordSpan.covering x width).first ≤ column / 16 ∧
      column / 16 < (WordSpan.covering x width).stop := by
  have nonzero : width ≠ 0 := by
    intro zero
    simp only [zero, UInt16.toNat_zero] at high
    omega
  simp only [WordSpan.covering, if_neg nonzero]
  omega

theorem blit_paints (rect : Rect) :
    picture.Paints brush (brush.blit picture.word picture.size rect) := by
  unfold Brush.blit
  split
  case isTrue => exact fun point color member => nomatch member
  case isFalse => exact paints_flatMap brush picture fun row _ => drawRow_paints brush picture _ row

theorem restore_paints (overlay : Overlay) :
    picture.Paints brush (overlay.restore brush picture.word picture.size) :=
  paints_flatMap brush picture fun row _ => drawRow_paints brush picture _ row

theorem pixel_mem_blit {rect : Rect} {x y : Nat} (damaged : rect.Has x y)
    (xInside : x < picture.size.width.toNat) (yInside : y < picture.size.height.toNat) :
    Stroke.pixel (brush.origin.offset x y) (brush.palette.ofBit (picture.bit x y)) ∈
      brush.blit picture.word picture.size rect := by
  have area : rect.isEmpty = false := has_area damaged
  obtain ⟨xLow, xHigh, yLow, yHigh⟩ := damaged
  simp only [Rect.right, Rect.bottom] at xHigh yHigh
  have heightSmall := picture.size.height.toNat_lt
  have below : y < (min (Saturating.add16 rect.y rect.height) picture.size.height).toNat := by
    rw [toNat_min, Saturating.toNat_add16]
    exact Nat.lt_min.mpr ⟨Nat.lt_min.mpr ⟨yHigh, by omega⟩, yInside⟩
  obtain ⟨row, listed, rfl⟩ := mem_rows yLow below
  obtain ⟨first, stop⟩ := covering_span rect.width xLow xHigh
  rw [Brush.blit, area, if_neg Bool.false_ne_true]
  have drawn := pixel_mem_drawRow brush picture yInside xInside first stop
  exact List.mem_flatMap.mpr ⟨row, listed, drawn⟩

theorem pixel_mem_restore {overlay : Overlay} {glyph : Glyph} {x y : Nat}
    (covered : glyph.Covers overlay.previous x y)
    (xInside : x < picture.size.width.toNat) (yInside : y < picture.size.height.toNat) :
    Stroke.pixel (brush.origin.offset x y) (brush.palette.ofBit (picture.bit x y)) ∈
      overlay.restore brush picture.word picture.size := by
  obtain ⟨xLow, xHigh, yLow, yHigh, _⟩ := covered
  have heightSmall := picture.size.height.toNat_lt
  have below : y < (Saturating.add16 overlay.previous.y 16).toNat := by
    rw [Saturating.toNat_add16]
    exact Nat.lt_min.mpr ⟨yHigh, by omega⟩
  obtain ⟨row, listed, rfl⟩ := mem_rows yLow below
  obtain ⟨first, stop⟩ := covering_span 16 xLow xHigh
  have drawn := pixel_mem_drawRow brush picture yInside xInside first stop
  exact List.mem_flatMap.mpr ⟨row, listed, drawn⟩

theorem stamp_covers {overlay : Overlay} {size : Size} {position : Position} {point : Point}
    {color : Color} (member : Stroke.pixel point color ∈ overlay.stamp brush size position) :
    ∃ x y, x < size.width.toNat ∧ y < size.height.toNat ∧
      point = brush.origin.offset x y ∧ color = brush.palette.cursor ∧
      overlay.glyph.Covers position x y := by
  obtain ⟨⟨bits, row⟩, listed, drawn⟩ := List.mem_flatMap.mp member
  obtain ⟨bit, small, given⟩ := List.mem_filterMap.mp drawn
  have small : bit < 16 := List.mem_range.mp small
  have entry : overlay.glyph.toList[row]? = some bits := List.mk_mem_zipIdx_iff_getElem?.mp listed
  have rowSmall : row < 16 := by
    have bound := (List.getElem?_eq_some_iff.mp entry).1
    rwa [Vector.length_toList] at bound
  simp only [Overlay.stampBit] at given
  split at given
  case isFalse => cases given
  case isTrue visible =>
    simp only [Bool.and_eq_true, decide_eq_true_eq] at visible
    obtain ⟨⟨set, xInside⟩, yInside⟩ := visible
    obtain ⟨rfl, rfl⟩ := Stroke.pixel.inj (Option.some.inj given)
    refine ⟨_, _, xInside, yInside, rfl, rfl, ?_⟩
    have rowExact : position.y.toNat + row - position.y.toNat = row := by omega
    have bitExact : 15 - (position.x.toNat + (15 - bit) - position.x.toNat) = bit := by omega
    refine ⟨by omega, by omega, by omega, by omega, ?_⟩
    rw [rowExact, bitExact, List.getD_eq_getElem?_getD, entry]
    exact set

theorem pixel_mem_stamp {overlay : Overlay} {size : Size} {position : Position} {x y : Nat}
    (covered : overlay.glyph.Covers position x y) (xInside : x < size.width.toNat)
    (yInside : y < size.height.toNat) :
    Stroke.pixel (brush.origin.offset x y) brush.palette.cursor ∈
      overlay.stamp brush size position := by
  obtain ⟨xLow, xHigh, yLow, yHigh, set⟩ := covered
  have inGlyph : y - position.y.toNat < overlay.glyph.toList.length := by
    rw [Vector.length_toList]
    omega
  have entry := List.getElem?_eq_getElem inGlyph
  rw [List.getD_eq_getElem?_getD, entry, Option.getD_some] at set
  refine List.mem_flatMap.mpr ⟨_, List.mk_mem_zipIdx_iff_getElem?.mpr entry, ?_⟩
  refine List.mem_filterMap.mpr ⟨15 - (x - position.x.toNat), List.mem_range.mpr (by omega), ?_⟩
  have column : position.x.toNat + (15 - (15 - (x - position.x.toNat))) = x := by omega
  have line : position.y.toNat + (y - position.y.toNat) = y := by omega
  simp only [Overlay.stampBit, set, column, line, xInside, yInside, decide_true, Bool.and_self,
    if_true]

end Bitmap

/-! ## Drawing a scene -/

/-- All strokes of a frame: the damage, the band of the old cursor and the new cursor. -/
def Display.Overlay.strokes (overlay : Overlay) (brush : Brush) (picture : Picture)
    (damage : Rect) (pointer : Position) : List Stroke :=
  brush.blit picture.word picture.size damage
    ++ overlay.drawing brush picture.word picture.size pointer

section Drawing
variable {history : List Effect} {brush : Brush} {picture : Picture} {overlay : Overlay}
  {x y : Nat}

theorem Display.Picture.Paints.uniform {strokes : List Stroke}
    (paints : picture.Paints brush strokes) (xInside : x < picture.size.width.toNat)
    (yInside : y < picture.size.height.toNat) (color : Color)
    (member : Stroke.pixel (brush.origin.offset x y) color ∈ strokes) :
    color = brush.palette.ofBit (picture.bit x y) := by
  obtain ⟨x', y', xInside', yInside', same, given⟩ := paints _ _ member
  have widthSmall := picture.size.width.toNat_lt
  have heightSmall := picture.size.height.toNat_lt
  obtain ⟨rfl, rfl⟩ := offset_injective brush.origin (by omega) (by omega) (by omega)
    (by omega) same
  exact given

theorem stamp_uniform {size : Size} {pointer : Position} {color : Color}
    (xInside : x < size.width.toNat) (yInside : y < size.height.toNat)
    (member : Stroke.pixel (brush.origin.offset x y) color ∈ overlay.stamp brush size pointer) :
    color = brush.palette.cursor ∧ overlay.glyph.Covers pointer x y := by
  obtain ⟨x', y', xInside', yInside', same, given, covered⟩ := stamp_covers brush member
  have widthSmall := size.width.toNat_lt
  have heightSmall := size.height.toNat_lt
  obtain ⟨rfl, rfl⟩ := offset_injective brush.origin (by omega) (by omega) (by omega)
    (by omega) same
  exact ⟨given, covered⟩

/-- All that a drawing writes to a point of the display is the colour of its bit and the
cursor that covers it. -/
theorem strokes_color {damage : Rect} {pointer : Position} {color : Color}
    (xInside : x < picture.size.width.toNat) (yInside : y < picture.size.height.toNat)
    (member : Stroke.pixel (brush.origin.offset x y) color ∈
      overlay.strokes brush picture damage pointer) :
    color = brush.palette.ofBit (picture.bit x y) ∨
      color = brush.palette.cursor ∧ overlay.glyph.Covers pointer x y := by
  rcases List.mem_append.mp member with blitted | cursor
  · exact .inl ((blit_paints brush picture damage).uniform xInside yInside color blitted)
  · rcases List.mem_append.mp cursor with restored | stamped
    · exact .inl ((restore_paints brush picture overlay).uniform xInside yInside color restored)
    · exact .inr (stamp_uniform xInside yInside stamped)

theorem stamped_color {size : Size} {pointer : Position} (xInside : x < size.width.toNat)
    (yInside : y < size.height.toNat) :
    lastColor (brush.origin.offset x y)
        ((overlay.stamp brush size pointer).reverse.map Effect.drew ++ history) =
      if overlay.glyph.Covers pointer x y then some brush.palette.cursor
      else lastColor (brush.origin.offset x y) history := by
  split
  case isTrue covered =>
    apply lastColor_painted
    · exact List.mem_reverse.mpr (pixel_mem_stamp brush covered xInside yInside)
    · intro color member
      exact (stamp_uniform xInside yInside (List.mem_reverse.mp member)).1
  case isFalse uncovered =>
    apply lastColor_untouched
    intro color member
    exact uncovered (stamp_uniform xInside yInside (List.mem_reverse.mp member)).2

theorem touches_damaged {damage : Rect} (damaged : damage.Has x y)
    (xInside : x < picture.size.width.toNat) (yInside : y < picture.size.height.toNat) :
    Touches (brush.blit picture.word picture.size damage) (brush.origin.offset x y) :=
  touches_iff.mpr ⟨_, pixel_mem_blit brush picture damaged xInside yInside⟩

theorem touches_old_cursor {glyph : Glyph} (pointer : Position)
    (covered : glyph.Covers overlay.previous x y) (xInside : x < picture.size.width.toNat)
    (yInside : y < picture.size.height.toNat) :
    Touches (overlay.drawing brush picture.word picture.size pointer)
      (brush.origin.offset x y) := by
  apply touches_append.mpr
  exact .inl (touches_iff.mpr ⟨_, pixel_mem_restore brush picture covered xInside yInside⟩)

/-- A drawing leaves a pixel as the scene has it, where it writes the pixel or the bitmap
shows there already. -/
theorem drawing_color {damage : Rect} (pointer : Position)
    (xInside : x < picture.size.width.toNat) (yInside : y < picture.size.height.toNat)
    (shown : Touches (overlay.strokes brush picture damage pointer) (brush.origin.offset x y) ∨
      lastColor (brush.origin.offset x y) history =
        some (brush.palette.ofBit (picture.bit x y))) :
    lastColor (brush.origin.offset x y)
        ((overlay.strokes brush picture damage pointer).reverse.map Effect.drew ++ history) =
      some (Scene.color ⟨brush.palette, picture, overlay.glyph, pointer⟩ x y) := by
  let base := brush.blit picture.word picture.size damage
    ++ overlay.restore brush picture.word picture.size
  have parts : overlay.strokes brush picture damage pointer =
      base ++ overlay.stamp brush picture.size pointer := by
    simp only [Overlay.strokes, Overlay.drawing, base, List.append_assoc]
  rw [parts, List.reverse_append, List.map_append, List.append_assoc,
    stamped_color xInside yInside, Scene.color]
  by_cases covered : overlay.glyph.Covers pointer x y
  · simp only [if_pos covered]
  · simp only [if_neg covered]
    have basePaints : picture.Paints brush base := by
      intro point color member
      rcases List.mem_append.mp member with blitted | restored
      · exact blit_paints brush picture damage point color blitted
      · exact restore_paints brush picture overlay point color restored
    apply lastColor_uniform base (basePaints.uniform xInside yInside)
    rw [parts, touches_append] at shown
    rcases shown with (touched | stamped) | same
    · exact .inl touched
    · obtain ⟨color, member⟩ := touches_iff.mp stamped
      exact absurd (stamp_uniform xInside yInside member).2 covered
    · exact .inr same

/-- The damage and the band of the old cursor together hold all that has to be redrawn. -/
theorem drawing_shows {damage : Rect} (pointer : Position)
    (shown : ∀ x y, x < picture.size.width.toNat → y < picture.size.height.toNat →
      damage.Has x y ∨ (∃ glyph : Glyph, glyph.Covers overlay.previous x y) ∨
        lastColor (brush.origin.offset x y) history =
          some (brush.palette.ofBit (picture.bit x y))) :
    Shows ((overlay.strokes brush picture damage pointer).reverse.map Effect.drew ++ history)
      brush.origin ⟨brush.palette, picture, overlay.glyph, pointer⟩ := by
  intro x y xInside yInside
  apply drawing_color pointer xInside yInside
  rcases shown x y xInside yInside with damaged | ⟨glyph, covered⟩ | same
  · left
    exact touches_append.mpr (.inl (touches_damaged damaged xInside yInside))
  · left
    exact touches_append.mpr (.inr (touches_old_cursor pointer covered xInside yInside))
  · exact .inr same

/-- A drawing that is broken off leaves a pixel as the bitmap has it, where neither a lost
stroke nor the cursor writes the pixel. -/
theorem broken_color {damage : Rect} {pointer : Position} {done lost : List Stroke}
    (parts : overlay.strokes brush picture damage pointer = done ++ lost)
    (kept : ¬ Touches lost (brush.origin.offset x y))
    (clear : ¬ Touches (overlay.drawing brush picture.word picture.size pointer)
      (brush.origin.offset x y))
    (xInside : x < picture.size.width.toNat) (yInside : y < picture.size.height.toNat)
    (shown : Touches (overlay.strokes brush picture damage pointer) (brush.origin.offset x y) ∨
      lastColor (brush.origin.offset x y) history =
        some (brush.palette.ofBit (picture.bit x y))) :
    lastColor (brush.origin.offset x y) (done.reverse.map Effect.drew ++ history) =
      some (brush.palette.ofBit (picture.bit x y)) := by
  apply lastColor_uniform done
  · intro color member
    have planned : Stroke.pixel (brush.origin.offset x y) color ∈
        overlay.strokes brush picture damage pointer := by
      rw [parts]
      exact List.mem_append_left lost member
    rcases List.mem_append.mp planned with blitted | cursor
    · exact (blit_paints brush picture damage).uniform xInside yInside color blitted
    · exact absurd (touches_iff.mpr ⟨color, cursor⟩) clear
  · rcases shown with touched | same
    · rw [parts] at touched
      exact .inl ((touches_append.mp touched).resolve_right kept)
    · exact .inr same

end Drawing

end GuestConsole
