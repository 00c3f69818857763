import GuestConsole.Proofs.InputStream
import GuestConsole.Proofs.RenderedStrokes

/-!
# Pointing at the display

The mouse is read and the display is drawn with the same placement on the screen: where
the mouse stands on a pixel of the display, the pointer is that pixel and a frame draws it
there, and elsewhere the pointer is the pixel nearest to the mouse.
-/

set_option autoImplicit false

namespace GuestConsole

open GuestConsole.Action GuestConsole.Console GuestConsole.Display

variable {σ : Type}

/-! ## One axis -/

namespace Display

/-- An axis of `bitmap` pixels that begins at `first` leaves no more than half of its length
before it, and ends on the screen if it can. -/
structure Centers (screen : UInt32) (bitmap : UInt16) (first : Int32) : Prop where
  natural : 0 ≤ first.toInt
  half : first.toInt ≤ (bitmap.toNat / 2 : Nat)
  inside : bitmap.toNat ≤ screen.toNat → first.toInt + bitmap.toNat ≤ screen.toNat

theorem centeredAxis_centers (screen : UInt32) (bitmap : UInt16) :
    Centers screen bitmap (centeredAxis screen bitmap) := by
  have small := bitmap.toNat_lt
  simp only [centeredAxis]
  split
  case isTrue smaller => exact ⟨by decide, Int.natCast_nonneg _, fun fits => by omega⟩
  case isFalse fits =>
    split
    case isTrue wide =>
      refine ⟨by decide, Int.natCast_nonneg _, ?_⟩
      rw [Int32.toInt_zero]
      omega
    case isFalse narrow =>
      have exact : (Int32.ofNat ((screen.toNat - bitmap.toNat) / 2)).toInt =
          ((screen.toNat - bitmap.toNat) / 2 : Nat) := Int32.toInt_ofNat_of_lt (by omega)
      constructor <;> rw [exact] <;> omega

theorem Centers.toInt_add {screen : UInt32} {bitmap : UInt16} {first : Int32} {pixel : Nat}
    (centers : Centers screen bitmap first) (small : pixel < 65536) :
    (first + Int32.ofNat pixel).toInt = first.toInt + pixel := by
  have bound := bitmap.toNat_lt
  have half := centers.half
  exact toInt_add_pixel small (by omega)

theorem Centers.add_eq {screen : UInt32} {bitmap : UInt16} {first place : Int32}
    {pixel : Nat} (centers : Centers screen bitmap first) (inside : pixel < bitmap.toNat)
    (there : place.toInt = first.toInt + pixel) : first + Int32.ofNat pixel = place := by
  have small := bitmap.toNat_lt
  apply Int32.toInt_inj.mp
  rw [centers.toInt_add (by omega), there]

theorem centeredOrigin_offset {screen : Extent} {size : Size} {point : Point} {x y : Nat}
    (xInside : x < size.width.toNat) (yInside : y < size.height.toNat)
    (xThere : point.x.toInt = (centeredOrigin screen size).x.toInt + x)
    (yThere : point.y.toInt = (centeredOrigin screen size).y.toInt + y) :
    (centeredOrigin screen size).offset x y = point := by
  have column := (centeredAxis_centers screen.width size.width).add_eq xInside xThere
  have row := (centeredAxis_centers screen.height size.height).add_eq yInside yThere
  calc (centeredOrigin screen size).offset x y
      = ⟨centeredAxis screen.width size.width + Int32.ofNat x,
          centeredAxis screen.height size.height + Int32.ofNat y⟩ := rfl
    _ = point := by rw [column, row]

/-- The pixel of an axis that is nearest to a place, and 0 on an axis without pixels. -/
def Nearest (extent : UInt16) (place : Int) (pixel : UInt16) : Prop :=
  if extent = 0 then pixel = 0
  else pixel < extent ∧
    ∀ other < extent, (place - pixel.toNat).natAbs ≤ (place - other.toNat).natAbs

theorem Nearest.toNat_eq {extent pixel : UInt16} {place : Nat}
    (nearest : Nearest extent place pixel) (inside : place < extent.toNat) :
    pixel.toNat = place := by
  have small := extent.toNat_lt
  have nonempty : extent ≠ 0 := by
    intro none
    rw [none] at inside
    exact absurd inside (Nat.not_lt_zero place)
  rw [Nearest, if_neg nonempty] at nearest
  have here : (UInt16.ofNat place).toNat = place :=
    UInt16.toNat_ofNat_of_lt (Nat.lt_trans inside small)
  have close := nearest.2 (UInt16.ofNat place)
    (by rw [UInt16.lt_iff_toNat_lt, here]; exact inside)
  rw [here] at close
  omega

theorem toNat_clampAxis (value : Int32) (extent : UInt16) :
    (Size.clampAxis value extent).toNat = min value.toInt.toNat (extent.toNat - 1) := by
  have small : min value.toInt.toNat (extent.toNat - 1) < 65536 := by
    have := extent.toNat_lt
    omega
  exact UInt16.toNat_ofNat_of_lt small

theorem clampAxis_zero (value : Int32) : Size.clampAxis value 0 = 0 := by
  apply UInt16.toNat_inj.mp
  rw [toNat_clampAxis]
  exact Nat.min_zero _

theorem clampAxis_lt {value : Int32} {axis extent : UInt16} (nonempty : extent ≠ 0)
    (noShorter : axis ≤ extent) : Size.clampAxis value axis < extent := by
  have positive := UInt16.lt_iff_toNat_lt.mp (UInt16.pos_iff_ne_zero.mpr nonempty)
  have bound := UInt16.le_iff_toNat_le.mp noShorter
  rw [UInt16.toNat_zero] at positive
  rw [UInt16.lt_iff_toNat_lt, toNat_clampAxis]
  omega

theorem toInt_ofIntClamp (value : Int) :
    (Int32.ofIntClamp value).toInt = max (-2147483648) (min value 2147483647) := by
  have low : Int32.minValue.toInt = -2147483648 := rfl
  have high : Int32.maxValue.toInt = 2147483647 := rfl
  unfold Int32.ofIntClamp
  split
  case isTrue above =>
    split
    case isTrue below =>
      rw [Int32.toInt_ofIntLE]
      omega
    case isFalse beyond => omega
  case isFalse beyond => omega

theorem clampAxis_nearest (place : Int) (extent : UInt16) :
    Nearest extent place (Size.clampAxis (Int32.ofIntClamp place) extent) := by
  have small := extent.toNat_lt
  have pixel := toNat_clampAxis (Int32.ofIntClamp place) extent
  rw [toInt_ofIntClamp] at pixel
  unfold Nearest
  split
  case isTrue none =>
    rw [none]
    exact clampAxis_zero _
  case isFalse nonempty =>
    refine ⟨clampAxis_lt nonempty UInt16.le_rfl, ?_⟩
    -- a place that is cut off stays on the same side of every pixel
    intro other inside
    have inside := UInt16.lt_iff_toNat_lt.mp inside
    omega

theorem locate_nearest (size : Size) (origin point : Point) :
    Nearest size.width (point.x.toInt - origin.x.toInt) (size.locate origin point).x ∧
      Nearest size.height (point.y.toInt - origin.y.toInt) (size.locate origin point).y :=
  ⟨clampAxis_nearest _ size.width, clampAxis_nearest _ size.height⟩

example : Size.locate ⟨18, 3⟩ ⟨3, 0⟩ ⟨-2147483648, 2147483647⟩ = ⟨0, 2⟩ := by decide

end Display

/-! ## The pointer of a frame -/

theorem guestMove_reports {reports : List Mouse.Report} (before later : Session σ)
    (move : Session.GuestMove before later) (same : mouseReports before.history = reports) :
    mouseReports later.history = reports := by
  cases move with
  | note effect running =>
      cases effect with
      | readMouse report => exact running.elim
      | _ => exact same
  | _ => exact same

theorem renderMove_reports {reports : List Mouse.Report} (before later : Session σ)
    (move : Session.RenderMove before later) (same : mouseReports before.history = reports) :
    mouseReports later.history = reports := by
  cases move with
  | note effect output =>
      cases effect with
      | readMouse report => exact output.elim
      | _ => exact same
  | draw strokes world =>
      have none : mouseReports (strokes.map Effect.drew) = [] := by
        simp [mouseReports, Effect.mouseReport?]
      rw [mouseReports, List.filterMap_append]
      exact (congrArg (· ++ _) none).trans same
  | _ => exact same

section Frames
variable (env : Environment σ) {feed : Feed} {before : Session σ}

theorem frame_points (fed : Fed feed before) :
    ∃ pointed report, takingInput env before = .ok () pointed ∧
      mouseReports (Action.after (frame env) before).history =
        report :: mouseReports before.history ∧
      pointed.console.guest.pointer = before.console.guest.display.locate
        (centeredOrigin (env.extent before.world) before.console.guest.display)
        report.point := by
  obtain ⟨opened, pointed, openRan, inputRan, _, _, report, read, pointer⟩ :=
    input_exact env fed
  refine ⟨pointed, report, (bind_ok openRan).trans inputRan, ?_, pointer⟩
  exact after_input_keeps env guestMove_reports renderMove_reports openRan inputRan read

/-- What the frame that begins so writes to a screen point is a pixel of its bitmap, and the
cursor where it covers that pixel.  If the pixel is damaged, it is drawn there. -/
def Console.DrawsThere (before : Session σ) (point : Point) (x y : Nat) : Prop :=
  let ready := Action.after (beforeRender env) before
  let now := (ready.settled env).console
  let color := now.brush.palette.ofBit ((pictureAt env ready).bit x y)
  let drawn := before.strokesSince (Action.after (frame env) before)
  (∀ given, .pixel point given ∈ drawn → given = color ∨
    given = now.brush.palette.cursor ∧ now.overlay.glyph.Covers now.guest.pointer x y) ∧
  (ready.console.guest.damage.rect.Has x y →
    (env.displayBits ready.console.guest.display ready.world).1.isSome →
    ending (frame env before) = .inr .again → .pixel point color ∈ drawn)

theorem drawsThere_offset (before : Session σ) {x y : Nat} :
    let ready := Action.after (beforeRender env) before
    let display := ready.console.guest.display
    x < display.width.toNat → y < display.height.toNat →
      DrawsThere env before ((centeredOrigin (env.extent ready.world) display).offset x y) x y := by
  intro ready display xInside yInside
  obtain ⟨first, all⟩ := frame_strokes env before
  have size : (pictureAt env ready).size = display := pictureAt_size ready
  rw [← size] at xInside yInside
  refine ⟨?_, ?_⟩
  · intro given member
    exact strokes_color xInside yInside (first.subset member)
  · intro damaged granted goesOn
    have shown : display.isEmpty = false := by
      rw [← size]
      exact has_area (covering_has xInside yInside)
    rw [all goesOn (needsDrawing_of_damaged env shown damaged) granted]
    apply List.mem_append_left
    exact pixel_mem_blit (ready.settled env).console.brush (pictureAt env ready) damaged xInside
      yInside

end Frames

/-- In every frame of a run the pointer is the pixel of the display that is nearest to the
mouse as the display is centred on the screen.  Where the mouse stands on a pixel, the
pointer is that pixel, and unless the display or the screen changes its size within the
frame, that is the pixel which the frame draws there. -/
theorem pointer_agrees_with_drawing {env : Environment σ} {config : Config} {console : Console}
    (created : Console.create config env.keyboard.mode = .ok console) (world : σ)
    (frames : Nat) :
    let start : Session σ := { console, world }
    let before := start.afterFrames env frames
    let ready := Action.after (beforeRender env) before
    let later := Action.after (frame env) before
    let screen := env.extent before.world
    let display := before.console.guest.display
    let origin := centeredOrigin screen display
    Centers screen.width display.width origin.x ∧
      Centers screen.height display.height origin.y ∧
      ∃ pointed report, takingInput env before = .ok () pointed ∧
        mouseReports later.history = report :: mouseReports before.history ∧
        Nearest display.width (report.point.x.toInt - origin.x.toInt)
          pointed.console.guest.pointer.x ∧
        Nearest display.height (report.point.y.toInt - origin.y.toInt)
          pointed.console.guest.pointer.y ∧
        ∀ x y, x < display.width.toNat → y < display.height.toNat →
          report.point.x.toInt = origin.x.toInt + x →
          report.point.y.toInt = origin.y.toInt + y →
          pointed.console.guest.pointer.x.toNat = x ∧
            pointed.console.guest.pointer.y.toNat = y ∧
            (ready.console.guest.display = display → env.extent ready.world = screen →
              DrawsThere env before report.point x y) := by
  intro start before ready later screen display origin
  have fed := afterFrames_fed env (created_fed created world) frames
  have columns := centeredAxis_centers screen.width display.width
  have rows := centeredAxis_centers screen.height display.height
  obtain ⟨pointed, report, inputRan, read, pointer⟩ := frame_points env fed
  obtain ⟨nearestColumn, nearestRow⟩ := locate_nearest display origin report.point
  rw [← pointer] at nearestColumn nearestRow
  refine ⟨columns, rows, pointed, report, inputRan, read, nearestColumn, nearestRow, ?_⟩
  intro x y xInside yInside xThere yThere
  have column : report.point.x.toInt - origin.x.toInt = x := by omega
  have row : report.point.y.toInt - origin.y.toInt = y := by omega
  rw [column] at nearestColumn
  rw [row] at nearestRow
  refine ⟨nearestColumn.toNat_eq xInside, nearestRow.toNat_eq yInside, ?_⟩
  intro sameDisplay sameScreen
  have placed : centeredOrigin (env.extent ready.world) ready.console.guest.display = origin := by
    rw [sameDisplay, sameScreen]
  have there : origin.offset x y = report.point :=
    centeredOrigin_offset xInside yInside xThere yThere
  rw [← there, ← placed]
  rw [← sameDisplay] at xInside yInside
  exact drawsThere_offset env before xInside yInside

/-- A mouse over the display of the second frame, which redraws its first seven columns. -/
theorem pointer_agrees_with_drawing_in_second_frame :
    let env : Environment Nat := {
      ticks := fun _ => 0
      unixSeconds := fun _ => 0
      keyboard := .raw fun world => ([], world)
      mouse := fun world => ({ point := ⟨9, 2⟩ }, world)
      moveMouse := fun _ world => world
      refreshCursor := fun world => world
      wait := fun _ world => world
      extent := fun _ => ⟨24, 4⟩
      put := fun _ _ world => some world
      signal := fun _ world => world
      displayBits := fun _ world => (some 1, world)
      word := fun _ _ _ => 0x5555
      lowMemory := fun world => world
      step := fun world =>
        if world = 0 then .call 1 (.setDisplaySize ⟨18, 3⟩) fun _ => .done 1
        else if world = 150 then
          .call 150 (.displayChanged 0 0 7 3) fun _ => .done 151
        else .done (world + 1) }
    let config : Config := { cyclesPerFrame := 100 }
    ∃ console, Console.create config env.keyboard.mode = .ok console ∧
      let start : Session Nat := { console, world := 0 }
      let before := start.afterFrames env 1
      let drawn := before.strokesSince (Action.after (frame env) before)
      centeredOrigin ⟨24, 4⟩ ⟨18, 3⟩ = ⟨3, 0⟩ ∧
      ∃ pointed, takingInput env before = .ok () pointed ∧
        pointed.console.guest.pointer.x.toNat = 6 ∧
        pointed.console.guest.pointer.y.toNat = 2 ∧
        .pixel ⟨9, 2⟩ ⟨255, 255, 255⟩ ∈ drawn ∧
        ∀ given, .pixel ⟨9, 2⟩ given ∈ drawn → given = ⟨255, 255, 255⟩ ∨ given = ⟨0, 0, 0⟩ := by
  intro env config
  have created : Console.create config env.keyboard.mode = .ok _ := rfl
  refine ⟨_, created, ?_⟩
  intro start before drawn
  have origin : centeredOrigin ⟨24, 4⟩ ⟨18, 3⟩ = ⟨3, 0⟩ := by decide
  have facts : before.console.guest.display = ⟨18, 3⟩ ∧
      (Action.after (beforeRender env) before).console.guest.display = ⟨18, 3⟩ ∧
      (Action.after (beforeRender env) before).console.brush.palette =
        ⟨⟨0, 0, 0⟩, ⟨255, 255, 255⟩, ⟨0, 0, 0⟩⟩ ∧
      (Action.after (beforeRender env) before).console.guest.damage.rect = ⟨0, 0, 7, 3⟩ ∧
      (mouseReports (Action.after (frame env) before).history).head? = some ⟨⟨9, 2⟩, 0⟩ ∧
      ending (frame env before) = .inr .again := by decide +kernel
  have agrees := pointer_agrees_with_drawing created 0 1
  simp only [show Session.afterFrames env ⟨_, 0, []⟩ 1 = before from rfl] at agrees
  -- the session is not to be computed again
  clear_value before
  obtain ⟨display, same, palette, damage, read, goesOn⟩ := facts
  obtain ⟨_, _, pointed, report, inputRan, reports, _, _, points⟩ := agrees
  have mouse : report = ⟨⟨9, 2⟩, 0⟩ := by
    rw [reports] at read
    exact Option.some.inj read
  subst mouse
  have screen : env.extent before.world = ⟨24, 4⟩ := rfl
  rw [display, same, screen, origin] at points
  obtain ⟨column, row, there⟩ := points 6 2 (by decide) (by decide) (by decide) (by decide)
  obtain ⟨colors, painted⟩ := there rfl rfl
  let ready := Action.after (beforeRender env) before
  have white : (ready.settled env).console.brush.palette.ofBit
      ((pictureAt env ready).bit 6 2) = ⟨255, 255, 255⟩ := by
    change ready.console.brush.palette.ofBit ((pictureAt env ready).bit 6 2) = _
    have picture : pictureAt env ready = ⟨⟨18, 3⟩, fun _ => 0x5555⟩ := by
      rw [pictureAt, same]
    rw [palette, picture]
    decide
  have black : (ready.settled env).console.brush.palette.cursor = ⟨0, 0, 0⟩ :=
    congrArg Palette.cursor palette
  have damaged : ready.console.guest.damage.rect.Has 6 2 := by
    rw [damage]
    exact ⟨by decide, by decide, by decide, by decide⟩
  rw [white, black] at colors
  rw [white] at painted
  refine ⟨origin, pointed, inputRan, column, row, painted damaged rfl goesOn, ?_⟩
  intro given member
  exact (colors given member).imp_right And.left

end GuestConsole
