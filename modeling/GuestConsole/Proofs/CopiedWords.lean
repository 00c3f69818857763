import GuestConsole.Proofs.Painting
import Mathlib.Data.List.TakeWhile

/-!
# Which words are copied

Redrawing a part of the bitmap fetches the words that the part touches, row by row from the
left, and writes the pixels of these words that are not padding.  Nothing is fetched or
written twice.
-/

set_option autoImplicit false

namespace GuestConsole

open GuestConsole.Display

/-! ## Words and pixels of a region -/

namespace Display

/-- A part of the bitmap that is made of whole words. -/
structure Region where
  rows : Nat → Prop
  columns : Nat → Prop

def Region.HasWord (region : Region) (size : Size) (row column : Nat) : Prop :=
  row < size.height.toNat ∧ region.rows row ∧ column * 16 < size.width.toNat ∧
    region.columns column

def Region.HasPixel (region : Region) (size : Size) (x y : Nat) : Prop :=
  x < size.width.toNat ∧ region.HasWord size y (x / 16)

/-- The words that a rectangle touches, which are none if it has no area. -/
def Rect.region (rect : Rect) : Region where
  rows y := rect.isEmpty = false ∧ rect.y.toNat ≤ y ∧ y < rect.bottom
  columns column := rect.x.toNat < column * 16 + 16 ∧ column * 16 < rect.right

def Position.band (position : Position) : Region where
  rows y := position.y.toNat ≤ y ∧ y ≤ position.y.toNat + 15
  columns column := position.x.toNat / 16 ≤ column ∧ column ≤ (position.x.toNat + 15) / 16

def Stroke.index? : Stroke → Option Nat
  | .fetch index => some index
  | .pixel _ _ => none

def fetches (strokes : List Stroke) : List Nat := strokes.filterMap Stroke.index?

def written (strokes : List Stroke) : List Point := strokes.filterMap Stroke.point?

/-- The strokes copy the words of a region to the screen. -/
structure Copies (brush : Brush) (picture : Picture) (region : Region)
    (strokes : List Stroke) : Prop where
  ascending : (fetches strokes).Pairwise (· < ·)
  fetched : ∀ index, index ∈ fetches strokes ↔ ∃ row column,
    region.HasWord picture.size row column ∧ index = row * picture.size.wordsPerRow + column
  once : (written strokes).Nodup
  painted : ∀ point color, Stroke.pixel point color ∈ strokes ↔ ∃ x y,
    region.HasPixel picture.size x y ∧ point = brush.origin.offset x y ∧
      color = brush.palette.ofBit (picture.bit x y)

end Display

section Strokes
variable {point : Point} {index : Nat} {strokes : List Stroke}

@[simp] theorem fetches_fetch : fetches (.fetch index :: strokes) = index :: fetches strokes := rfl

@[simp] theorem written_fetch : written (.fetch index :: strokes) = written strokes := rfl

theorem fetches_flatMap {α : Type} (list : List α) (each : α → List Stroke) :
    fetches (list.flatMap each) = list.flatMap fun item => fetches (each item) :=
  List.filterMap_flatMap

theorem written_flatMap {α : Type} (list : List α) (each : α → List Stroke) :
    written (list.flatMap each) = list.flatMap fun item => written (each item) :=
  List.filterMap_flatMap

theorem mem_fetches : index ∈ fetches strokes ↔ Stroke.fetch index ∈ strokes := by
  rw [fetches, List.mem_filterMap]
  constructor
  · rintro ⟨stroke, listed, reads⟩
    cases stroke with
    | fetch other =>
        cases reads
        exact listed
    | pixel other color => cases reads
  · intro listed
    exact ⟨_, listed, rfl⟩

theorem mem_written : point ∈ written strokes ↔ ∃ color, Stroke.pixel point color ∈ strokes := by
  rw [← touches_iff, Touches, written, List.mem_filterMap, List.mem_map]

end Strokes

/-! ## One word -/

section Words
variable (brush : Brush) (picture : Picture)

theorem drawBit_eq_some_iff {row : UInt16} {column bit : Nat} {stroke : Stroke}
    (small : bit < 16) :
    brush.drawBit picture.size row (column * 16)
        (picture.word (picture.size.wordIndex row column)) bit = some stroke ↔
      column * 16 + (15 - bit) < picture.size.width.toNat ∧
        stroke = .pixel (brush.origin.offset (column * 16 + (15 - bit)) row.toNat)
          (brush.palette.ofBit (picture.bit (column * 16 + (15 - bit)) row.toNat)) := by
  by_cases inside : column * 16 + (15 - bit) < picture.size.width.toNat
  · rw [drawBit_exact brush picture row column bit small inside, Option.some_inj]
    exact ⟨fun same => ⟨inside, same.symm⟩, fun exact => exact.2.symm⟩
  · simp only [Brush.drawBit, if_neg inside]
    refine ⟨fun drawn => ?_, fun exact => absurd exact.1 inside⟩
    cases drawn

theorem fetches_drawWord (row : UInt16) (column : Nat) :
    fetches (brush.drawWord picture.word picture.size row column) =
      [row.toNat * picture.size.wordsPerRow + column] := by
  have bits : fetches ((List.range 16).filterMap (brush.drawBit picture.size row (column * 16)
      (picture.word (picture.size.wordIndex row column)))) = [] := by
    apply List.filterMap_eq_nil_iff.mpr
    intro stroke drawn
    obtain ⟨bit, small, given⟩ := List.mem_filterMap.mp drawn
    obtain ⟨_, rfl⟩ := (drawBit_eq_some_iff brush picture (List.mem_range.mp small)).mp given
    rfl
  rw [Brush.drawWord, fetches_fetch, bits]
  rfl

theorem pixel_mem_drawWord_iff {row : UInt16} {column : Nat} {point : Point} {color : Color} :
    Stroke.pixel point color ∈ brush.drawWord picture.word picture.size row column ↔
      ∃ x, x < picture.size.width.toNat ∧ x / 16 = column ∧
        point = brush.origin.offset x row.toNat ∧
        color = brush.palette.ofBit (picture.bit x row.toNat) := by
  constructor
  · intro drawn
    rcases List.mem_cons.mp drawn with fetched | drawn
    · cases fetched
    · obtain ⟨bit, small, given⟩ := List.mem_filterMap.mp drawn
      obtain ⟨inside, same⟩ :=
        (drawBit_eq_some_iff brush picture (List.mem_range.mp small)).mp given
      obtain ⟨rfl, rfl⟩ := Stroke.pixel.inj same
      exact ⟨_, inside, by omega, rfl, rfl⟩
  · rintro ⟨x, inside, rfl, rfl, rfl⟩
    have small : 15 - x % 16 < 16 := by omega
    have place : x / 16 * 16 + (15 - (15 - x % 16)) = x := by omega
    apply List.mem_cons_of_mem
    refine List.mem_filterMap.mpr ⟨15 - x % 16, List.mem_range.mpr small, ?_⟩
    rw [drawBit_eq_some_iff brush picture small, place]
    exact ⟨inside, rfl⟩

theorem written_drawWord_nodup (row : UInt16) (column : Nat) :
    (written (brush.drawWord picture.word picture.size row column)).Nodup := by
  have widthSmall := picture.size.width.toNat_lt
  have rowSmall := row.toNat_lt
  rw [Brush.drawWord, written_fetch, written, List.filterMap_filterMap]
  refine List.pairwise_filterMap.mpr (List.pairwise_lt_range.imp_of_mem ?_)
  intro early late earlySmall lateSmall ordered first firstDrawn second secondDrawn
  obtain ⟨stroke, given, point⟩ := Option.bind_eq_some_iff.mp firstDrawn
  obtain ⟨firstInside, rfl⟩ :=
    (drawBit_eq_some_iff brush picture (List.mem_range.mp earlySmall)).mp given
  obtain ⟨stroke, given, point'⟩ := Option.bind_eq_some_iff.mp secondDrawn
  obtain ⟨secondInside, rfl⟩ :=
    (drawBit_eq_some_iff brush picture (List.mem_range.mp lateSmall)).mp given
  obtain rfl := Option.some.inj point
  obtain rfl := Option.some.inj point'
  intro same
  have columns := (offset_injective brush.origin (by omega) rowSmall (by omega) rowSmall same).1
  have lateBound := List.mem_range.mp lateSmall
  omega

/-! ## One row -/

theorem mem_shown_columns {span : WordSpan} {limit column : Nat} :
    column ∈ span.columns.takeWhile (fun other => other * 16 < limit) ↔
      span.first ≤ column ∧ column < span.stop ∧ column * 16 < limit := by
  constructor
  · intro shown
    have bounds := List.mem_range'_1.mp (List.takeWhile_subset _ shown)
    have inside := List.mem_takeWhile_imp shown
    exact ⟨bounds.1, by omega, of_decide_eq_true inside⟩
  · rintro ⟨first, stop, inside⟩
    exact mem_takeWhile_range' _ _ first (by omega) inside

theorem shown_columns_ascending (span : WordSpan) (limit : Nat) :
    (span.columns.takeWhile fun column => column * 16 < limit).Pairwise (· < ·) :=
  (List.pairwise_lt_range' 1 Nat.one_pos).sublist (List.takeWhile_sublist _)

variable {span : WordSpan} {row : UInt16}

theorem fetches_drawRow (shown : row < picture.size.height) :
    fetches (brush.drawRow picture.word picture.size span row) =
      (span.columns.takeWhile fun column => column * 16 < picture.size.width.toNat).map
        (row.toNat * picture.size.wordsPerRow + ·) := by
  rw [Brush.drawRow, if_pos shown, fetches_flatMap]
  simp only [fetches_drawWord]
  exact List.map_eq_flatMap.symm

theorem mem_fetches_drawRow {index : Nat} :
    index ∈ fetches (brush.drawRow picture.word picture.size span row) ↔
      row.toNat < picture.size.height.toNat ∧ ∃ column, span.first ≤ column ∧
        column < span.stop ∧ column * 16 < picture.size.width.toNat ∧
        index = row.toNat * picture.size.wordsPerRow + column := by
  by_cases shown : row < picture.size.height
  · rw [fetches_drawRow brush picture shown, List.mem_map]
    constructor
    · rintro ⟨column, listed, rfl⟩
      obtain ⟨first, stop, inside⟩ := mem_shown_columns.mp listed
      exact ⟨UInt16.lt_iff_toNat_lt.mp shown, column, first, stop, inside, rfl⟩
    · rintro ⟨_, column, first, stop, inside, rfl⟩
      exact ⟨column, mem_shown_columns.mpr ⟨first, stop, inside⟩, rfl⟩
  · rw [Brush.drawRow, if_neg shown]
    refine iff_of_false List.not_mem_nil ?_
    rintro ⟨inside, _⟩
    exact shown (UInt16.lt_iff_toNat_lt.mpr inside)

theorem pixel_mem_drawRow_iff {point : Point} {color : Color} :
    Stroke.pixel point color ∈ brush.drawRow picture.word picture.size span row ↔
      row.toNat < picture.size.height.toNat ∧ ∃ x, x < picture.size.width.toNat ∧
        span.first ≤ x / 16 ∧ x / 16 < span.stop ∧ point = brush.origin.offset x row.toNat ∧
        color = brush.palette.ofBit (picture.bit x row.toNat) := by
  constructor
  · intro drawn
    by_cases shown : row < picture.size.height
    · rw [Brush.drawRow, if_pos shown] at drawn
      obtain ⟨column, listed, drawn⟩ := List.mem_flatMap.mp drawn
      obtain ⟨x, inside, rfl, rfl, rfl⟩ := (pixel_mem_drawWord_iff brush picture).mp drawn
      obtain ⟨first, stop, _⟩ := mem_shown_columns.mp listed
      exact ⟨UInt16.lt_iff_toNat_lt.mp shown, x, inside, first, stop, rfl, rfl⟩
    · rw [Brush.drawRow, if_neg shown] at drawn
      cases drawn
  · rintro ⟨shown, x, inside, first, stop, rfl, rfl⟩
    exact pixel_mem_drawRow brush picture shown inside first stop

theorem written_drawRow_nodup :
    (written (brush.drawRow picture.word picture.size span row)).Nodup := by
  have widthSmall := picture.size.width.toNat_lt
  have rowSmall := row.toNat_lt
  unfold Brush.drawRow
  split
  case isFalse => exact List.nodup_nil
  case isTrue =>
    rw [written_flatMap]
    refine List.pairwise_flatMap.mpr ⟨fun column _ => ?_, ?_⟩
    · exact written_drawWord_nodup brush picture row column
    · refine (shown_columns_ascending span _).imp ?_
      intro left right ordered early inLeft late inRight same
      obtain ⟨_, drawn⟩ := mem_written.mp inLeft
      obtain ⟨x, xInside, rfl, rfl, _⟩ := (pixel_mem_drawWord_iff brush picture).mp drawn
      obtain ⟨_, drawn⟩ := mem_written.mp inRight
      obtain ⟨x', xInside', rfl, rfl, _⟩ := (pixel_mem_drawWord_iff brush picture).mp drawn
      have columns :=
        (offset_injective brush.origin (by omega) rowSmall (by omega) rowSmall same).1
      omega

/-! ## Rows of words -/

theorem mem_rows_iff {first stop : UInt16} :
    row ∈ Brush.rows first stop ↔ first.toNat ≤ row.toNat ∧ row.toNat < stop.toNat := by
  have stopSmall := stop.toNat_lt
  constructor
  · intro listed
    obtain ⟨y, bounds, rfl⟩ := List.mem_map.mp listed
    have bounds := List.mem_range'_1.mp bounds
    have small : y < 65536 := by omega
    rw [UInt16.toNat_ofNat_of_lt' small]
    omega
  · rintro ⟨above, below⟩
    obtain ⟨other, listed, same⟩ := mem_rows above below
    rwa [UInt16.toNat_inj.mp same] at listed

theorem rows_ascending (first stop : UInt16) :
    (Brush.rows first stop).Pairwise fun above below => above.toNat < below.toNat := by
  have stopSmall := stop.toNat_lt
  refine List.pairwise_map.mpr ((List.pairwise_lt_range' 1 Nat.one_pos).imp_of_mem ?_)
  intro above below aboveListed belowListed ordered
  have aboveBound := List.mem_range'_1.mp aboveListed
  have belowBound := List.mem_range'_1.mp belowListed
  have belowSmall : below < 65536 := by omega
  rwa [UInt16.toNat_ofNat_of_lt' (Nat.lt_trans ordered belowSmall),
    UInt16.toNat_ofNat_of_lt' belowSmall]

theorem column_lt_wordsPerRow {size : Size} {column : Nat}
    (inside : column * 16 < size.width.toNat) : column < size.wordsPerRow := by
  unfold Size.wordsPerRow
  omega

theorem index_lt_index {size : Size} {above below left right : Nat} (ordered : above < below)
    (inside : left * 16 < size.width.toNat) :
    above * size.wordsPerRow + left < below * size.wordsPerRow + right :=
  calc above * size.wordsPerRow + left
      < above * size.wordsPerRow + size.wordsPerRow :=
        Nat.add_lt_add_left (column_lt_wordsPerRow inside) _
    _ = (above + 1) * size.wordsPerRow := (Nat.succ_mul above size.wordsPerRow).symm
    _ ≤ below * size.wordsPerRow := Nat.mul_le_mul_right _ ordered
    _ ≤ below * size.wordsPerRow + right := Nat.le_add_right _ _

theorem rows_copy (span : WordSpan) (first stop : UInt16) :
    Copies brush picture ⟨fun y => first.toNat ≤ y ∧ y < stop.toNat,
        fun column => span.first ≤ column ∧ column < span.stop⟩
      ((Brush.rows first stop).flatMap
        (brush.drawRow picture.word picture.size span)) where
  ascending := by
    rw [fetches_flatMap]
    refine List.pairwise_flatMap.mpr ⟨fun row _ => ?_, (rows_ascending first stop).imp ?_⟩
    · by_cases shown : row < picture.size.height
      · rw [fetches_drawRow brush picture shown, List.pairwise_map]
        exact (shown_columns_ascending span _).imp fun ordered => Nat.add_lt_add_left ordered _
      · rw [Brush.drawRow, if_neg shown]
        exact List.Pairwise.nil
    · intro above below ordered early earlyListed late lateListed
      obtain ⟨_, left, _, _, inside, rfl⟩ := (mem_fetches_drawRow brush picture).mp earlyListed
      obtain ⟨_, right, _, _, _, rfl⟩ := (mem_fetches_drawRow brush picture).mp lateListed
      exact index_lt_index ordered inside
  fetched index := by
    rw [fetches_flatMap, List.mem_flatMap]
    constructor
    · rintro ⟨row, listed, fetched⟩
      obtain ⟨shown, column, left, right, inside, rfl⟩ :=
        (mem_fetches_drawRow brush picture).mp fetched
      exact ⟨row.toNat, column, ⟨shown, mem_rows_iff.mp listed, inside, left, right⟩, rfl⟩
    · rintro ⟨y, column, ⟨shown, ⟨above, below⟩, inside, left, right⟩, rfl⟩
      obtain ⟨row, listed, rfl⟩ := mem_rows above below
      exact ⟨row, listed, (mem_fetches_drawRow brush picture).mpr
        ⟨shown, column, left, right, inside, rfl⟩⟩
  once := by
    have widthSmall := picture.size.width.toNat_lt
    rw [written_flatMap]
    refine List.pairwise_flatMap.mpr ⟨fun row _ => written_drawRow_nodup brush picture,
      (rows_ascending first stop).imp ?_⟩
    intro above below ordered early inAbove late inBelow same
    have aboveSmall := above.toNat_lt
    have belowSmall := below.toNat_lt
    obtain ⟨_, drawn⟩ := mem_written.mp inAbove
    obtain ⟨_, x, xInside, _, _, rfl, _⟩ := (pixel_mem_drawRow_iff brush picture).mp drawn
    obtain ⟨_, drawn⟩ := mem_written.mp inBelow
    obtain ⟨_, x', xInside', _, _, rfl, _⟩ := (pixel_mem_drawRow_iff brush picture).mp drawn
    have rows :=
      (offset_injective brush.origin (by omega) aboveSmall (by omega) belowSmall same).2
    omega
  painted point color := by
    rw [List.mem_flatMap]
    constructor
    · rintro ⟨row, listed, drawn⟩
      obtain ⟨shown, x, inside, left, right, rfl, rfl⟩ :=
        (pixel_mem_drawRow_iff brush picture).mp drawn
      have starts : x / 16 * 16 < picture.size.width.toNat := by omega
      exact ⟨x, row.toNat, ⟨inside, shown, mem_rows_iff.mp listed, starts, left, right⟩,
        rfl, rfl⟩
    · rintro ⟨x, y, ⟨inside, shown, ⟨above, below⟩, _, left, right⟩, rfl, rfl⟩
      obtain ⟨row, listed, rfl⟩ := mem_rows above below
      exact ⟨row, listed, (pixel_mem_drawRow_iff brush picture).mpr
        ⟨shown, x, inside, left, right, rfl, rfl⟩⟩

end Words

/-! ## Rectangles and the cursor's band -/

section Regions
variable {brush : Brush} {picture : Picture} {strokes : List Stroke} {region other : Region}

theorem Display.Copies.congr (copies : Copies brush picture region strokes)
    (words : ∀ row column,
      region.HasWord picture.size row column ↔ other.HasWord picture.size row column) :
    Copies brush picture other strokes := by
  refine ⟨copies.ascending, fun index => ?_, copies.once, fun point color => ?_⟩
  · simp only [copies.fetched, words]
  · simp only [copies.painted, Region.HasPixel, words]

theorem Display.Copies.index_lt (copies : Copies brush picture region strokes) {index : Nat}
    (fetched : index ∈ fetches strokes) :
    index < picture.size.wordsPerRow * picture.size.height.toNat := by
  obtain ⟨row, column, ⟨shown, _, inside, _⟩, rfl⟩ := (copies.fetched index).mp fetched
  have below : row * picture.size.wordsPerRow + column <
      picture.size.height.toNat * picture.size.wordsPerRow + 0 := index_lt_index shown inside
  rwa [Nat.add_zero, Nat.mul_comm picture.size.height.toNat] at below

theorem Display.Copies.inside (copies : Copies brush picture region strokes) {size : Size}
    (same : picture.size = size) {point : Point} {color : Color}
    (painted : Stroke.pixel point color ∈ strokes) :
    ∃ x y, x < size.width.toNat ∧ y < size.height.toNat ∧ point = brush.origin.offset x y := by
  obtain ⟨x, y, ⟨xInside, yInside, _⟩, there, _⟩ := (copies.painted point color).mp painted
  rw [same] at xInside yInside
  exact ⟨x, y, xInside, yInside, there⟩

theorem blit_copies (brush : Brush) (picture : Picture) (rect : Rect) :
    Copies brush picture rect.region (brush.blit picture.word picture.size rect) := by
  cases area : rect.isEmpty with
  | true =>
      have nothing (row column : Nat) : ¬ rect.region.HasWord picture.size row column := by
        rintro ⟨_, ⟨hasArea, _⟩, _⟩
        rw [area] at hasArea
        cases hasArea
      rw [Brush.blit, if_pos area]
      refine ⟨List.Pairwise.nil, fun index => ?_, List.nodup_nil, fun point color => ?_⟩
      · refine iff_of_false List.not_mem_nil ?_
        rintro ⟨row, column, has, _⟩
        exact nothing row column has
      · refine iff_of_false List.not_mem_nil ?_
        rintro ⟨x, y, ⟨_, has⟩, _⟩
        exact nothing y (x / 16) has
  | false =>
      have nonzero : rect.width ≠ 0 := by
        intro zero
        simp [Rect.isEmpty, zero] at area
      have width := (isEmpty_eq_false_iff.mp area).1
      have heightSmall := picture.size.height.toNat_lt
      rw [Brush.blit, area, if_neg Bool.false_ne_true]
      refine (rows_copy brush picture _ _ _).congr fun row column => ?_
      simp only [Region.HasWord, Rect.region, Rect.right, Rect.bottom, toNat_min,
        Saturating.toNat_add16, WordSpan.covering, if_neg nonzero, area, true_and]
      omega

theorem restore_copies (brush : Brush) (picture : Picture) (overlay : Overlay) :
    Copies brush picture overlay.previous.band
      (overlay.restore brush picture.word picture.size) := by
  have heightSmall := picture.size.height.toNat_lt
  have sixteen : (16 : UInt16) ≠ 0 := by decide
  refine (rows_copy brush picture _ _ _).congr fun row column => ?_
  simp only [Region.HasWord, Position.band, Saturating.toNat_add16, WordSpan.covering,
    if_neg sixteen, UInt16.reduceToNat]
  omega

end Regions

theorem eq_offset_iff {origin point : Point} {x y : Nat} (xSmall : x < 65536)
    (ySmall : y < 65536) (xFits : origin.x.toInt + x < 2147483648)
    (yFits : origin.y.toInt + y < 2147483648) :
    point = origin.offset x y ↔
      point.x.toInt = origin.x.toInt + x ∧ point.y.toInt = origin.y.toInt + y := by
  rw [← toInt_add_pixel xSmall xFits, ← toInt_add_pixel ySmall yFits, Int32.toInt_inj,
    Int32.toInt_inj, Point.offset, Point.mk.injEq]

/-- On a screen that takes every pixel, a blit fetches the words that the rectangle touches,
in ascending order and each once, and all of them are words of the bitmap.  It writes the
pixels of these words that the bitmap has, each once and in the colour of its bit, provided
that their places on the screen do not overflow. -/
theorem blit_copies_touched_words {σ : Type} {put : Point → Color → σ → Option σ}
    (accepts : ∀ point color screen, (put point color screen).isSome)
    (brush : Brush) (picture : Picture) (rect : Rect)
    (fits : ∀ x y, rect.region.HasPixel picture.size x y →
      brush.origin.x.toInt + x < 2147483648 ∧ brush.origin.y.toInt + y < 2147483648) (screen : σ) :
    let strokes := brush.blit picture.word picture.size rect
    (∃ later, screenAfter put strokes screen = some later ∧
        carryOut put strokes [] screen = ⟨true, strokes.reverse, later⟩) ∧
      (fetches strokes).Pairwise (· < ·) ∧
      (∀ index, index ∈ fetches strokes ↔ ∃ row column,
        rect.region.HasWord picture.size row column ∧
          index = row * picture.size.wordsPerRow + column) ∧
      (∀ index ∈ fetches strokes,
        index < picture.size.wordsPerRow * picture.size.height.toNat) ∧
      (written strokes).Nodup ∧
      ∀ point color, Stroke.pixel point color ∈ strokes ↔ ∃ x y,
        rect.region.HasPixel picture.size x y ∧
          point.x.toInt = brush.origin.x.toInt + x ∧ point.y.toInt = brush.origin.y.toInt + y ∧
          color = brush.palette.ofBit (picture.bit x y) := by
  intro strokes
  obtain ⟨later, shown, carried⟩ := carryOut_accepted accepts strokes screen
  have copies : Copies brush picture rect.region strokes := blit_copies brush picture rect
  refine ⟨⟨later, shown, carried⟩, copies.ascending, copies.fetched, fun _ => copies.index_lt,
    copies.once, fun point color => ?_⟩
  have place (x y : Nat) (has : rect.region.HasPixel picture.size x y) :
      point = brush.origin.offset x y ↔
        point.x.toInt = brush.origin.x.toInt + x ∧ point.y.toInt = brush.origin.y.toInt + y := by
    obtain ⟨xFits, yFits⟩ := fits x y has
    have xSmall := Nat.lt_trans has.1 picture.size.width.toNat_lt
    have ySmall := Nat.lt_trans has.2.1 picture.size.height.toNat_lt
    exact eq_offset_iff xSmall ySmall xFits yFits
  rw [copies.painted]
  constructor
  · rintro ⟨x, y, has, there, same⟩
    obtain ⟨xThere, yThere⟩ := (place x y has).mp there
    exact ⟨x, y, has, xThere, yThere, same⟩
  · rintro ⟨x, y, has, xThere, yThere, same⟩
    exact ⟨x, y, has, (place x y has).mpr ⟨xThere, yThere⟩, same⟩

/-- A rectangle that reaches beyond the corner of the bitmap, which stands partly left of
the screen and ends at the last coordinate. -/
theorem blit_copies_last_words :
    let brush : Brush := ⟨Palette.ofRgb 0 0xFFFFFF 0xFF0000, ⟨-3, 2147483645⟩⟩
    let picture : Picture := ⟨⟨20, 3⟩, fun index => UInt16.ofNat (index * 4097)⟩
    let rect : Rect := ⟨17, 1, 65535, 65535⟩
    let put (point : Point) (_ : Color) (shown : List Point) := some (point :: shown)
    let strokes := brush.blit picture.word picture.size rect
    fetches strokes = [3, 5] ∧ (written strokes).length = 8 ∧
      (∃ later, screenAfter put strokes [] = some later ∧
        carryOut put strokes [] [] = ⟨true, strokes.reverse, later⟩) ∧
      ∀ point color, Stroke.pixel point color ∈ strokes ↔ ∃ x y,
        rect.region.HasPixel picture.size x y ∧
          point.x.toInt = -3 + x ∧ point.y.toInt = 2147483645 + y ∧
          color = brush.palette.ofBit (picture.bit x y) := by
  intro brush picture rect put strokes
  have fits (x y : Nat) (has : rect.region.HasPixel picture.size x y) :
      brush.origin.x.toInt + x < 2147483648 ∧ brush.origin.y.toInt + y < 2147483648 := by
    have xInside : x < 20 := has.1
    have yInside : y < 3 := has.2.1
    have left : brush.origin.x.toInt = -3 := rfl
    have top : brush.origin.y.toInt = 2147483645 := rfl
    omega
  have accepts (point : Point) (color : Color) (shown : List Point) :
      (put point color shown).isSome := rfl
  obtain ⟨carried, _, _, _, _, painted⟩ :=
    blit_copies_touched_words accepts brush picture rect fits []
  exact ⟨by decide +kernel, by decide +kernel, carried, painted⟩

end GuestConsole
