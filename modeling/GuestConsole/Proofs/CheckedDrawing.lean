import GuestConsole.Proofs.DisplayBounds

/-!
# Drawing with checked numbers

The arithmetic of the display once more, with every sum, difference, product and cast
checked: a number that its type cannot hold has no result.  Where the display is centred and
the damage lies inside of it, there always is one, and it is the same.
-/

set_option autoImplicit false

namespace GuestConsole.Checked

open GuestConsole.Display

/-! ## Numbers -/

def byte? (value : Int) : Option UInt8 :=
  if 0 ≤ value ∧ value < 256 then some (UInt8.ofNat value.toNat) else none

def word16? (value : Int) : Option UInt16 :=
  if 0 ≤ value ∧ value < 65536 then some (UInt16.ofNat value.toNat) else none

def int32? (value : Int) : Option Int32 :=
  if -2147483648 ≤ value ∧ value < 2147483648 then some (Int32.ofInt value) else none

/-- A number of pixels or words; 32 bits are the least that one has. -/
def natural? (value : Int) : Option Nat :=
  if 0 ≤ value ∧ value < 4294967296 then some value.toNat else none

section Numbers
variable {value : Int}

theorem bind_of_some {α β : Type} {result? : Option α} {result : α} {next : α → Option β}
    (given : result? = some result) : (result? >>= next) = next result := by
  rw [given]
  rfl

theorem byte?_eq {byte : UInt8} (exact : value = byte.toNat) : byte? value = some byte := by
  have small := byte.toNat_lt
  rw [byte?, if_pos (by omega), exact, Int.toNat_natCast, UInt8.ofNat_toNat]

theorem word16?_eq {word : UInt16} (exact : value = word.toNat) : word16? value = some word := by
  have small := word.toNat_lt
  rw [word16?, if_pos (by omega), exact, Int.toNat_natCast, UInt16.ofNat_toNat]

theorem int32?_eq {number : Int32} (exact : value = number.toInt) :
    int32? value = some number := by
  have low := number.le_toInt
  have high := number.toInt_lt
  rw [int32?, if_pos (by omega), exact, Int32.ofInt_toInt]

theorem natural?_eq {number : Nat} (exact : value = number) (small : number < 4294967296) :
    natural? value = some number := by
  rw [natural?, if_pos (by omega), exact, Int.toNat_natCast]

end Numbers

/-! ## Where the display stands -/

def centeredAxis? (screen : UInt32) (bitmap : UInt16) : Option Int32 :=
  if screen.toNat < bitmap.toNat then some 0
  else do
    let margin ← natural? (screen.toNat - bitmap.toNat)
    if margin / 2 > bitmap.toNat / 2 then some 0 else int32? (margin / 2 : Nat)

def centeredOrigin? (screen : Extent) (size : Size) : Option Point := do
  let x ← centeredAxis? screen.width size.width
  let y ← centeredAxis? screen.height size.height
  some ⟨x, y⟩

def offset? (origin : Point) (x y : Nat) : Option Point := do
  let x ← int32? x
  let y ← int32? y
  let x ← int32? (origin.x.toInt + x.toInt)
  let y ← int32? (origin.y.toInt + y.toInt)
  some ⟨x, y⟩

def clampAxis? (value : Int32) (extent : UInt16) : Option UInt16 :=
  word16? (max 0 (min value.toInt (extent.toNat - 1 : Nat)))

def clamp? (size : Size) (x y : Int32) : Option Position := do
  let x ← clampAxis? x size.width
  let y ← clampAxis? y size.height
  some ⟨x, y⟩

def clampPosition? (size : Size) (position : Position) : Option Position := do
  let x ← int32? position.x.toNat
  let y ← int32? position.y.toNat
  clamp? size x y

/-- The difference of the places stops at the ends of its range, so it is not checked. -/
def locate? (size : Size) (origin point : Point) : Option Position :=
  clamp? size (Int32.ofIntClamp (point.x.toInt - origin.x.toInt))
    (Int32.ofIntClamp (point.y.toInt - origin.y.toInt))

/-- Some display is centred with its corner at this point of a screen. -/
def Centred (origin : Point) : Prop := ∃ screen size, origin = centeredOrigin screen size

theorem centeredAxis?_eq (screen : UInt32) (bitmap : UInt16) :
    centeredAxis? screen bitmap = some (centeredAxis screen bitmap) := by
  have screenSmall := screen.toNat_lt
  have small := bitmap.toNat_lt
  unfold centeredAxis? centeredAxis
  by_cases smaller : screen.toNat < bitmap.toNat
  · rw [if_pos smaller, if_pos smaller]
  · have margin : natural? (screen.toNat - bitmap.toNat) =
        some (screen.toNat - bitmap.toNat) := natural?_eq (by omega) (by omega)
    rw [if_neg smaller, if_neg smaller, bind_of_some margin]
    dsimp only
    split
    · rfl
    · apply int32?_eq
      rw [Int32.toInt_ofNat_of_lt (by omega)]

theorem centeredOrigin?_eq (screen : Extent) (size : Size) :
    centeredOrigin? screen size = some (centeredOrigin screen size) := by
  rw [centeredOrigin?, bind_of_some (centeredAxis?_eq _ _), bind_of_some (centeredAxis?_eq _ _)]
  rfl

theorem offset?_eq {origin : Point} {x y : Nat} (centred : Centred origin)
    (xSmall : x < 65536) (ySmall : y < 65536) :
    offset? origin x y = some (origin.offset x y) := by
  obtain ⟨screen, size, rfl⟩ := centred
  have toInt {pixel : Nat} (small : pixel < 65536) : (Int32.ofNat pixel).toInt = pixel :=
    Int32.toInt_ofNat_of_lt (by omega)
  have exact {pixel : Nat} (small : pixel < 65536) : int32? pixel = some (Int32.ofNat pixel) :=
    int32?_eq (toInt small).symm
  have sum {screen : UInt32} {bitmap : UInt16} {pixel : Nat} (small : pixel < 65536) :
      int32? ((centeredAxis screen bitmap).toInt + (Int32.ofNat pixel).toInt) =
        some (centeredAxis screen bitmap + Int32.ofNat pixel) := by
    apply int32?_eq
    rw [(centeredAxis_centers screen bitmap).toInt_add small, toInt small]
  rw [offset?, centeredOrigin, bind_of_some (exact xSmall), bind_of_some (exact ySmall),
    bind_of_some (sum xSmall), bind_of_some (sum ySmall)]
  rfl

example : offset? ⟨2147483647, 0⟩ 1 0 = none := by decide

theorem clampAxis?_eq (value : Int32) (extent : UInt16) :
    clampAxis? value extent = some (Size.clampAxis value extent) := by
  apply word16?_eq
  rw [toNat_clampAxis]
  omega

theorem clamp?_eq (size : Size) (x y : Int32) : clamp? size x y = some (size.clamp x y) := by
  rw [clamp?, bind_of_some (clampAxis?_eq x _), bind_of_some (clampAxis?_eq y _)]
  rfl

theorem clampPosition?_eq (size : Size) (position : Position) :
    clampPosition? size position = some (size.clampPosition position) := by
  have same (pixel : UInt16) : int32? pixel.toNat = some (Int32.ofNat pixel.toNat) := by
    have small := pixel.toNat_lt
    exact int32?_eq (Int32.toInt_ofNat_of_lt (by omega)).symm
  rw [clampPosition?, bind_of_some (same position.x), bind_of_some (same position.y)]
  exact clamp?_eq size _ _

theorem locate?_eq (size : Size) (origin point : Point) :
    locate? size origin point = some (size.locate origin point) :=
  clamp?_eq size _ _

/-! ## Damage -/

def right? (rect : Rect) : Option Nat := natural? (rect.x.toNat + rect.width.toNat)

def bottom? (rect : Rect) : Option Nat := natural? (rect.y.toNat + rect.height.toNat)

def fits? (rect : Rect) (bounds : Size) : Option Bool := do
  let right ← right? rect
  let bottom ← bottom? rect
  some (rect.x < bounds.width && rect.y < bounds.height
    && right ≤ bounds.width.toNat && bottom ≤ bounds.height.toNat)

/-- The casts of the extent are checked, where `Rect.union` keeps it modulo 2^16. -/
def union? (a b : Rect) : Option Rect := do
  let x := min a.x b.x
  let y := min a.y b.y
  let aRight ← right? a
  let bRight ← right? b
  let aBottom ← bottom? a
  let bBottom ← bottom? b
  let width ← word16? (max aRight bRight - x.toNat)
  let height ← word16? (max aBottom bBottom - y.toNat)
  some { x, y, width, height }

def report? (damage : Damage) (rect : Rect) (bounds : Size) :
    Option (Except OutOfBounds Damage) := do
  if ← fits? rect bounds then
    let grown ← if damage.rect.isEmpty then some rect else union? damage.rect rect
    some (.ok ⟨grown⟩)
  else some (.error ⟨rect, bounds⟩)

section Damage
variable {a b rect : Rect} {size : Size}

theorem right?_eq (rect : Rect) : right? rect = some rect.right := by
  have x := rect.x.toNat_lt
  have width := rect.width.toNat_lt
  exact natural?_eq (by simp [Rect.right]) (by simp only [Rect.right]; omega)

theorem bottom?_eq (rect : Rect) : bottom? rect = some rect.bottom := by
  have y := rect.y.toNat_lt
  have height := rect.height.toNat_lt
  exact natural?_eq (by simp [Rect.bottom]) (by simp only [Rect.bottom]; omega)

theorem fits?_eq (rect : Rect) (bounds : Size) : fits? rect bounds = some (rect.fits bounds) := by
  rw [fits?, bind_of_some (right?_eq rect), bind_of_some (bottom?_eq rect)]
  rfl

/-- Inside a display the box of two rectangles is as large as its word says. -/
theorem union?_eq (aWithin : a.Within size) (bWithin : b.Within size) :
    union? a b = some (a.union b) := by
  obtain ⟨right, bottom⟩ := union_edges aWithin bWithin
  simp only [Rect.right, Rect.bottom] at right bottom
  have x : (a.union b).x = min a.x b.x := rfl
  have y : (a.union b).y = min a.y b.y := rfl
  have width : word16? ((max a.right b.right : Nat) - (min a.x b.x).toNat) =
      some (a.union b).width := by
    apply word16?_eq
    rw [← x]
    simp only [Rect.right]
    omega
  have height : word16? ((max a.bottom b.bottom : Nat) - (min a.y b.y).toNat) =
      some (a.union b).height := by
    apply word16?_eq
    rw [← y]
    simp only [Rect.bottom]
    omega
  rw [union?, bind_of_some (right?_eq a), bind_of_some (right?_eq b),
    bind_of_some (bottom?_eq a), bind_of_some (bottom?_eq b), bind_of_some width,
    bind_of_some height]
  rfl

example : union? ⟨0, 0, 1, 1⟩ ⟨65535, 0, 1, 1⟩ = none := by decide

theorem report?_eq {damage : Damage}
    (inside : damage.rect.isEmpty = true ∨ damage.rect.fits size = true) :
    report? damage rect size = some (damage.report rect size) := by
  rw [report?, bind_of_some (fits?_eq rect size), Damage.report]
  by_cases fits : rect.fits size = true
  · rw [if_pos fits, if_pos fits]
    by_cases empty : damage.rect.isEmpty = true
    · rw [if_pos empty, if_pos empty]
      rfl
    · have old := (fits_iff.mp (inside.resolve_left empty)).2.2
      have new := (fits_iff.mp fits).2.2
      rw [if_neg empty, if_neg empty, union?_eq old new]
      rfl
  · rw [if_neg fits, if_neg fits]

end Damage

/-! ## Strokes -/

section Lists
variable {α β : Type}

def collect? (results? : α → Option (List β)) : List α → Option (List β)
  | [] => some []
  | item :: rest => do
      let first ← results? item
      let others ← collect? results? rest
      some (first ++ others)

theorem collect?_eq {results? : α → Option (List β)} {results : α → List β} (items : List α)
    (each : ∀ item ∈ items, results? item = some (results item)) :
    collect? results? items = some (items.flatMap results) := by
  induction items with
  | nil => rfl
  | cons item rest ih =>
      have others := ih fun other member => each other (List.mem_cons_of_mem item member)
      rw [collect?, bind_of_some (each item List.mem_cons_self), bind_of_some others,
        List.flatMap_cons]

theorem collect?_toList_eq {results? : α → Option (List β)} {result : α → Option β}
    (items : List α) (each : ∀ item ∈ items, results? item = some (result item).toList) :
    collect? results? items = some (items.filterMap result) := by
  rw [collect?_eq items each]
  apply congrArg some
  clear each
  induction items with
  | nil => rfl
  | cons item rest ih =>
      rw [List.flatMap_cons, ih, List.filterMap_cons]
      cases result item <;> rfl

end Lists

def wordIndex? (size : Size) (row : UInt16) (column : Nat) : Option Nat := do
  let start ← natural? (row.toNat * size.wordsPerRow)
  natural? (start + column)

def covering? (x width : UInt16) : Option WordSpan :=
  if width = 0 then some ⟨0, 0⟩
  else do
    let stop ← natural? (x.toNat + width.toNat)
    let last ← natural? (stop - 1)
    let stop ← natural? (last / 16 + 1)
    some ⟨x.toNat / 16, stop⟩

section Brush
variable (brush : Brush) (word : Nat → UInt16) (size : Size)

def drawBit? (row : UInt16) (left : Nat) (bits : UInt16) (bit : Nat) :
    Option (List Stroke) := do
  let fromLeft ← natural? (15 - bit)
  let x ← natural? (left + fromLeft)
  if x < size.width.toNat then
    let point ← offset? brush.origin x row.toNat
    some [.pixel point
      (if bits.toNat.testBit bit then brush.palette.foreground else brush.palette.background)]
  else some []

def drawWord? (row : UInt16) (column left : Nat) : Option (List Stroke) := do
  let index ← wordIndex? size row column
  let pixels ← collect? (drawBit? brush size row left (word index)) (List.range 16)
  some (.fetch index :: pixels)

def drawColumns? (row : UInt16) : List Nat → Option (List Stroke)
  | [] => some []
  | column :: rest => do
      let left ← natural? (column * 16)
      if left < size.width.toNat then
        let first ← drawWord? brush word size row column left
        let others ← drawColumns? row rest
        some (first ++ others)
      else some []

def drawRow? (span : WordSpan) (row : UInt16) : Option (List Stroke) :=
  if row < size.height then drawColumns? brush word size row span.columns else some []

def blit? (rect : Rect) : Option (List Stroke) :=
  if rect.isEmpty then some []
  else do
    let span ← covering? rect.x rect.width
    collect? (drawRow? brush word size span)
      (Brush.rows rect.y (min (Saturating.add16 rect.y rect.height) size.height))

def restore? (overlay : Overlay) : Option (List Stroke) := do
  let span ← covering? overlay.previous.x 16
  collect? (drawRow? brush word size span)
    (Brush.rows overlay.previous.y (Saturating.add16 overlay.previous.y 16))

def stampBit? (position : Position) (row : Nat) (bits : UInt16) (bit : Nat) :
    Option (List Stroke) := do
  let fromLeft ← natural? (15 - bit)
  let x ← natural? (position.x.toNat + fromLeft)
  let y ← natural? (position.y.toNat + row)
  if bits.toNat.testBit bit && x < size.width.toNat && y < size.height.toNat then
    let point ← offset? brush.origin x y
    some [.pixel point brush.palette.cursor]
  else some []

def stamp? (overlay : Overlay) (position : Position) : Option (List Stroke) :=
  collect? (fun (bits, row) => collect? (stampBit? brush size position row bits) (List.range 16))
    overlay.glyph.toList.zipIdx

def drawing? (overlay : Overlay) (position : Position) : Option (List Stroke) := do
  let restored ← restore? brush word size overlay
  let stamped ← stamp? brush size overlay position
  some (restored ++ stamped)

end Brush

section Strokes
variable {brush : Brush} (word : Nat → UInt16) (size : Size)

theorem wordIndex?_eq (row : UInt16) {column : Nat} (small : column < 65536) :
    wordIndex? size row column = some (size.wordIndex row column) := by
  have rows := row.toNat_lt
  have width := size.width.toNat_lt
  have words : size.wordsPerRow < 4097 := by
    simp only [Size.wordsPerRow]
    omega
  have before : row.toNat * size.wordsPerRow ≤ 65535 * 4096 :=
    Nat.mul_le_mul (by omega) (by omega)
  have start : natural? (row.toNat * size.wordsPerRow) = some (row.toNat * size.wordsPerRow) :=
    natural?_eq (Int.natCast_mul _ _).symm (by omega)
  rw [wordIndex?, bind_of_some start]
  exact natural?_eq (Int.natCast_add _ _).symm (by simp only [Size.wordIndex]; omega)

theorem covering?_eq (x width : UInt16) :
    covering? x width = some (WordSpan.covering x width) := by
  have xSmall := x.toNat_lt
  have widthSmall := width.toNat_lt
  unfold covering? WordSpan.covering
  by_cases none : width = 0
  · rw [if_pos none, if_pos none]
  · have positive := UInt16.lt_iff_toNat_lt.mp (UInt16.pos_iff_ne_zero.mpr none)
    rw [UInt16.toNat_zero] at positive
    have stop : natural? (x.toNat + width.toNat) = some (x.toNat + width.toNat) :=
      natural?_eq (Int.natCast_add _ _).symm (by omega)
    have last : natural? ((x.toNat + width.toNat : Nat) - 1) =
        some (x.toNat + width.toNat - 1) := natural?_eq (by omega) (by omega)
    have after : natural? ((x.toNat + width.toNat - 1 : Nat) / 16 + 1) =
        some ((x.toNat + width.toNat - 1) / 16 + 1) := natural?_eq (by omega) (by omega)
    rw [if_neg none, if_neg none, bind_of_some stop, bind_of_some last, bind_of_some after]

theorem covering_small (x width : UInt16) :
    ∀ column ∈ (WordSpan.covering x width).columns, column < 65536 := by
  have xSmall := x.toNat_lt
  have widthSmall := width.toNat_lt
  intro column member
  simp only [WordSpan.columns, List.mem_range'_1] at member
  unfold WordSpan.covering at member
  split at member
  · simp only at member
    omega
  · simp only at member
    omega

theorem drawBit?_eq (centred : Centred brush.origin) (row : UInt16) {left : Nat}
    (bits : UInt16) (small : left < size.width.toNat) {bit : Nat} (within : bit < 16) :
    drawBit? brush size row left bits bit =
      some (brush.drawBit size row left bits bit).toList := by
  have width := size.width.toNat_lt
  have fromLeft : natural? (15 - bit) = some (15 - bit) := natural?_eq (by omega) (by omega)
  have x : natural? (left + (15 - bit : Nat)) = some (left + (15 - bit)) :=
    natural?_eq (Int.natCast_add _ _).symm (by omega)
  rw [drawBit?, bind_of_some fromLeft, bind_of_some x, Brush.drawBit]
  by_cases inside : left + (15 - bit) < size.width.toNat
  · rw [if_pos inside, if_pos inside, bind_of_some (offset?_eq centred (by omega) row.toNat_lt)]
    rfl
  · rw [if_neg inside, if_neg inside]
    rfl

theorem drawWord?_eq (centred : Centred brush.origin) (row : UInt16) {column : Nat}
    (small : column * 16 < size.width.toNat) :
    drawWord? brush word size row column (column * 16) =
      some (brush.drawWord word size row column) := by
  have width := size.width.toNat_lt
  have pixels := collect?_toList_eq (List.range 16) fun bit member =>
    drawBit?_eq size centred row (word (size.wordIndex row column)) small
      (List.mem_range.mp member)
  have index : wordIndex? size row column = some (size.wordIndex row column) :=
    wordIndex?_eq size row (by omega)
  rw [drawWord?, bind_of_some index, bind_of_some pixels, Brush.drawWord]

theorem drawColumns?_eq (centred : Centred brush.origin) (row : UInt16) (columns : List Nat)
    (small : ∀ column ∈ columns, column < 65536) :
    drawColumns? brush word size row columns =
      some ((columns.takeWhile fun column => column * 16 < size.width.toNat).flatMap
        (brush.drawWord word size row)) := by
  induction columns with
  | nil => rfl
  | cons column rest ih =>
      have here := small column List.mem_cons_self
      have left : natural? (column * 16) = some (column * 16) := natural?_eq (by omega) (by omega)
      have others := ih fun other member => small other (List.mem_cons_of_mem column member)
      rw [drawColumns?, bind_of_some left]
      by_cases inside : column * 16 < size.width.toNat
      · rw [if_pos inside, bind_of_some (drawWord?_eq word size centred row inside),
          bind_of_some others, List.takeWhile_cons_of_pos (by simpa using inside),
          List.flatMap_cons]
      · rw [if_neg inside, List.takeWhile_cons_of_neg (by simpa using inside)]
        rfl

theorem drawRow?_eq (centred : Centred brush.origin) {span : WordSpan}
    (small : ∀ column ∈ span.columns, column < 65536) (row : UInt16) :
    drawRow? brush word size span row = some (brush.drawRow word size span row) := by
  unfold drawRow? Brush.drawRow
  split
  · exact drawColumns?_eq word size centred row span.columns small
  · rfl

theorem blit?_eq (centred : Centred brush.origin) (rect : Rect) :
    blit? brush word size rect = some (brush.blit word size rect) := by
  unfold blit? Brush.blit
  split
  · rfl
  · rw [bind_of_some (covering?_eq _ _)]
    exact collect?_eq _ fun row _ => drawRow?_eq word size centred (covering_small _ _) row

theorem restore?_eq (centred : Centred brush.origin) (overlay : Overlay) :
    restore? brush word size overlay = some (overlay.restore brush word size) := by
  unfold restore? Overlay.restore
  rw [bind_of_some (covering?_eq _ _)]
  exact collect?_eq _ fun row _ => drawRow?_eq word size centred (covering_small _ _) row

theorem stampBit?_eq (centred : Centred brush.origin) (position : Position) {row : Nat}
    (bits : UInt16) (few : row < 16) {bit : Nat} (within : bit < 16) :
    stampBit? brush size position row bits bit =
      some (Overlay.stampBit brush size position row bits bit).toList := by
  have width := size.width.toNat_lt
  have height := size.height.toNat_lt
  have xSmall := position.x.toNat_lt
  have ySmall := position.y.toNat_lt
  have fromLeft : natural? (15 - bit) = some (15 - bit) := natural?_eq (by omega) (by omega)
  have x : natural? (position.x.toNat + (15 - bit : Nat)) =
      some (position.x.toNat + (15 - bit)) := natural?_eq (Int.natCast_add _ _).symm (by omega)
  have y : natural? (position.y.toNat + row) = some (position.y.toNat + row) :=
    natural?_eq (Int.natCast_add _ _).symm (by omega)
  rw [stampBit?, bind_of_some fromLeft, bind_of_some x, bind_of_some y, Overlay.stampBit]
  split
  case isTrue shown =>
    simp only [Bool.and_eq_true, decide_eq_true_eq] at shown
    rw [bind_of_some (offset?_eq centred (by omega) (by omega))]
    rfl
  case isFalse => rfl

theorem stamp?_eq (centred : Centred brush.origin) (overlay : Overlay) (position : Position) :
    stamp? brush size overlay position = some (overlay.stamp brush size position) := by
  unfold stamp? Overlay.stamp
  apply collect?_eq
  rintro ⟨bits, row⟩ member
  have few : row < 16 := by
    have bound := (List.mem_zipIdx member).2.1
    simpa using bound
  exact collect?_toList_eq _ fun bit listed =>
    stampBit?_eq size centred position bits few (List.mem_range.mp listed)

theorem drawing?_eq (centred : Centred brush.origin) (overlay : Overlay) (position : Position) :
    drawing? brush word size overlay position =
      some (overlay.drawing brush word size position) := by
  rw [drawing?, bind_of_some (restore?_eq word size centred overlay),
    bind_of_some (stamp?_eq size centred overlay position)]
  rfl

end Strokes

end GuestConsole.Checked
