import GuestConsole.Proofs.DamageReports

/-!
# The damage is a bounding box

Operations on the damage in any order, with bounds that may change from one to the next.
The damage is the smallest rectangle around those that are recorded, except that rectangles
without area do not count before the first one that has an area.
-/

set_option autoImplicit false

namespace GuestConsole.Display

/-! ## Boxes -/

/-- The edges of the box are the outermost edges of the rectangles. -/
structure Rect.Bounds (box : Rect) (rects : List Rect) : Prop where
  left : (rects.map fun rect => rect.x.toNat).min? = some box.x.toNat
  top : (rects.map fun rect => rect.y.toNat).min? = some box.y.toNat
  right : (rects.map Rect.right).max? = some box.right
  bottom : (rects.map Rect.bottom).max? = some box.bottom

instance (box : Rect) (rects : List Rect) : Decidable (box.Bounds rects) :=
  decidable_of_iff (_ ∧ _ ∧ _ ∧ _)
    ⟨fun ⟨left, top, right, bottom⟩ => ⟨left, top, right, bottom⟩,
      fun bounds => ⟨bounds.left, bounds.top, bounds.right, bounds.bottom⟩⟩

def Size.largest : Size := ⟨65535, 65535⟩

section Numbers
variable {numbers : List Nat} {number : Nat}

theorem min?_concat {least : Nat} (given : numbers.min? = some least) :
    (numbers ++ [number]).min? = some (min least number) := by
  cases numbers with
  | nil => cases given
  | cons first rest =>
      rw [List.min?_cons'] at given
      obtain rfl := Option.some.inj given
      rw [List.cons_append, List.min?_cons', List.foldl_append]
      rfl

theorem max?_concat {greatest : Nat} (given : numbers.max? = some greatest) :
    (numbers ++ [number]).max? = some (max greatest number) := by
  cases numbers with
  | nil => cases given
  | cons first rest =>
      rw [List.max?_cons'] at given
      obtain rfl := Option.some.inj given
      rw [List.cons_append, List.max?_cons', List.foldl_append]
      rfl

end Numbers

section Boxes
variable {box rect : Rect} {rects : List Rect} {size : Size}

theorem Rect.Within.largest (within : rect.Within size) : rect.Within Size.largest :=
  ⟨Nat.le_trans within.1 (Nat.le_of_lt_succ size.width.toNat_lt),
    Nat.le_trans within.2 (Nat.le_of_lt_succ size.height.toNat_lt)⟩

theorem bounds_singleton (rect : Rect) : rect.Bounds [rect] := ⟨rfl, rfl, rfl, rfl⟩

theorem Rect.Bounds.ne_nil (bounds : box.Bounds rects) : rects ≠ [] := by
  rintro rfl
  cases bounds.left

theorem Rect.Bounds.union (bounds : box.Bounds rects) (boxWithin : box.Within Size.largest)
    (rectWithin : rect.Within Size.largest) : (box.union rect).Bounds (rects ++ [rect]) := by
  obtain ⟨right, bottom⟩ := union_edges boxWithin rectWithin
  have left : (box.union rect).x.toNat = min box.x.toNat rect.x.toNat := toNat_min _ _
  have top : (box.union rect).y.toNat = min box.y.toNat rect.y.toNat := toNat_min _ _
  constructor
  · rw [List.map_append, left]
    exact min?_concat bounds.left
  · rw [List.map_append, top]
    exact min?_concat bounds.top
  · rw [List.map_append, right]
    exact max?_concat bounds.right
  · rw [List.map_append, bottom]
    exact max?_concat bounds.bottom

theorem Rect.Bounds.has (bounds : box.Bounds rects) (listed : rect ∈ rects) {x y : Nat}
    (has : rect.Has x y) : box.Has x y := by
  obtain ⟨xLow, xHigh, yLow, yHigh⟩ := has
  have left := (List.min?_eq_some_iff.mp bounds.left).2 _ (List.mem_map_of_mem listed)
  have top := (List.min?_eq_some_iff.mp bounds.top).2 _ (List.mem_map_of_mem listed)
  have right := (List.max?_eq_some_iff.mp bounds.right).2 _ (List.mem_map_of_mem listed)
  have bottom := (List.max?_eq_some_iff.mp bounds.bottom).2 _ (List.mem_map_of_mem listed)
  exact ⟨Nat.le_trans left xLow, Nat.lt_of_lt_of_le xHigh right, Nat.le_trans top yLow,
    Nat.lt_of_lt_of_le yHigh bottom⟩

theorem union_area (area : box.isEmpty = false) (boxWithin : box.Within Size.largest)
    (rectWithin : rect.Within Size.largest) : (box.union rect).isEmpty = false := by
  obtain ⟨right, bottom⟩ := union_edges boxWithin rectWithin
  obtain ⟨width, height⟩ := isEmpty_eq_false_iff.mp area
  have left : (box.union rect).x.toNat = min box.x.toNat rect.x.toNat := toNat_min _ _
  have top : (box.union rect).y.toNat = min box.y.toNat rect.y.toNat := toNat_min _ _
  simp only [Rect.right, Rect.bottom] at right bottom
  exact isEmpty_eq_false_iff.mpr ⟨by omega, by omega⟩

end Boxes

/-! ## Runs of operations -/

namespace Damage

inductive Operation where
  | report (rect : Rect) (bounds : Size)
  | all (bounds : Size)
  | take
  deriving DecidableEq, Repr

inductive Answer where
  | done
  | refused (fault : OutOfBounds)
  | taken (rect : Rect)
  deriving DecidableEq, Repr

/-- Performs an operation.  A refused report returns no damage, and the old one stays. -/
def perform (damage : Damage) : Operation → Answer × Damage
  | .report rect bounds =>
      match damage.report rect bounds with
      | .error fault => (.refused fault, damage)
      | .ok next => (.done, next)
  | .all bounds => (.done, Damage.all bounds)
  | .take => (.taken damage.take.1, damage.take.2)

def performAll : Damage → List Operation → Damage
  | damage, [] => damage
  | damage, operation :: rest => performAll (damage.perform operation).2 rest

def Operation.recordAfter (rects : List Rect) : Operation → List Rect
  | .report rect bounds => if rect.fits bounds then rects ++ [rect] else rects
  | .all bounds => [Rect.covering bounds]
  | .take => []

/-- The accepted reports since the damage was last taken, beginning with the last marking of
a whole display if there is one since. -/
def recorded (operations : List Operation) : List Rect :=
  operations.foldl Operation.recordAfter []

/-- What is recorded from the first rectangle on that has an area. -/
def marked (operations : List Operation) : List Rect :=
  (recorded operations).dropWhile Rect.isEmpty

structure Tracks (damage : Damage) (rects : List Rect) : Prop where
  within : damage.rect.Within Size.largest
  box : rects = [] ∧ damage.rect.isEmpty = true ∨
    damage.rect.Bounds rects ∧ damage.rect.isEmpty = false

section Runs
variable {damage : Damage} {rects : List Rect} {rect : Rect} {bounds : Size}

theorem tracks_nothing : Tracks {} [] :=
  ⟨⟨Nat.zero_le _, Nat.zero_le _⟩, .inl ⟨rfl, rfl⟩⟩

theorem tracks_first (within : rect.Within Size.largest) :
    Tracks ⟨rect⟩ ([rect].dropWhile Rect.isEmpty) := by
  refine ⟨within, ?_⟩
  cases area : rect.isEmpty with
  | true =>
      left
      exact ⟨List.dropWhile_cons_of_pos area, rfl⟩
  | false =>
      right
      rw [List.dropWhile_cons_of_neg (by rw [area]; exact Bool.false_ne_true)]
      exact ⟨bounds_singleton rect, rfl⟩

theorem report_tracks (tracks : damage.Tracks (rects.dropWhile Rect.isEmpty))
    (within : rect.Within Size.largest) :
    Tracks ⟨if damage.rect.isEmpty then rect else damage.rect.union rect⟩
      ((rects ++ [rect]).dropWhile Rect.isEmpty) := by
  rw [List.dropWhile_append]
  rcases tracks.box with ⟨none, empty⟩ | ⟨box, area⟩
  · rw [none, if_pos List.isEmpty_nil, if_pos empty]
    exact tracks_first within
  · have some : (rects.dropWhile Rect.isEmpty).isEmpty = false :=
      List.isEmpty_eq_false_iff.mpr box.ne_nil
    rw [some, area, if_neg Bool.false_ne_true, if_neg Bool.false_ne_true]
    exact ⟨union_within tracks.within within,
      .inr ⟨box.union tracks.within within, union_area area tracks.within within⟩⟩

theorem perform_report_fits (fits : rect.fits bounds = true) :
    damage.perform (.report rect bounds) =
      (.done, ⟨if damage.rect.isEmpty then rect else damage.rect.union rect⟩) := by
  simp only [perform, Damage.report, if_pos fits]

theorem perform_report_refused (outside : rect.fits bounds = false) :
    damage.perform (.report rect bounds) = (.refused ⟨rect, bounds⟩, damage) := by
  simp only [perform, Damage.report, outside, if_neg Bool.false_ne_true]

theorem perform_tracks (tracks : damage.Tracks (rects.dropWhile Rect.isEmpty))
    (operation : Operation) :
    (damage.perform operation).2.Tracks
      ((operation.recordAfter rects).dropWhile Rect.isEmpty) := by
  cases operation with
  | report rect bounds =>
      cases fits : rect.fits bounds with
      | false =>
          rw [perform_report_refused fits, Operation.recordAfter, fits]
          exact tracks
      | true =>
          obtain ⟨_, _, within⟩ := fits_iff.mp fits
          rw [perform_report_fits fits, Operation.recordAfter, if_pos fits]
          exact report_tracks tracks within.largest
  | all bounds => exact tracks_first covering_within.largest
  | take => exact tracks_nothing

theorem performAll_tracks (operations : List Operation)
    (tracks : damage.Tracks (rects.dropWhile Rect.isEmpty)) :
    (performAll damage operations).Tracks
      ((operations.foldl Operation.recordAfter rects).dropWhile Rect.isEmpty) := by
  induction operations generalizing damage rects with
  | nil => exact tracks
  | cons operation rest ih => exact ih (perform_tracks tracks operation)

end Runs

/-- Whatever operations a new damage has been through, it is the box of the rectangles that
are marked, whose edges do not overflow, and has their pixels.  With none marked it has no
area.  A report that leaves its bounds changes nothing, and the damage that is taken is
this box, after which a new damage begins. -/
theorem damage_is_bounding_box (operations : List Operation) :
    let damage := performAll {} operations
    (marked operations = [] → damage.rect.isEmpty = true) ∧
    (marked operations ≠ [] →
      damage.rect.Bounds (marked operations) ∧
      damage.rect.right ≤ 65535 ∧ damage.rect.bottom ≤ 65535 ∧
      ∀ rect ∈ marked operations, ∀ x y, rect.Has x y → damage.rect.Has x y) ∧
    (∀ rect bounds, rect.fits bounds = false →
      damage.perform (.report rect bounds) = (.refused ⟨rect, bounds⟩, damage)) ∧
    damage.perform .take = (.taken damage.rect, {}) := by
  intro damage
  have start : Tracks {} (([] : List Rect).dropWhile Rect.isEmpty) := tracks_nothing
  have tracks : damage.Tracks (marked operations) := performAll_tracks operations start
  refine ⟨?_, ?_, fun rect bounds => perform_report_refused, rfl⟩
  · intro none
    rcases tracks.box with ⟨_, empty⟩ | ⟨box, _⟩
    · exact empty
    · exact absurd none box.ne_nil
  · intro some
    rcases tracks.box with ⟨none, _⟩ | ⟨box, _⟩
    · exact absurd none some
    · exact ⟨box, tracks.within.1, tracks.within.2, fun rect listed x y => box.has listed⟩

-- A report without area counts only behind one that has an area.
example : performAll {} [.report ⟨9, 9, 0, 1⟩ ⟨10, 10⟩, .report ⟨4, 2, 3, 1⟩ ⟨10, 10⟩,
    .report ⟨1, 5, 0, 2⟩ ⟨8, 8⟩, .report ⟨7, 7, 2, 1⟩ ⟨8, 8⟩] = ⟨⟨1, 2, 6, 5⟩⟩ := by decide

end Damage

end GuestConsole.Display
