import Chip8.Proofs.Checked.Arithmetic
import Chip8.Proofs.Painting

/-!
# The checked screen

The plane of pixels with a plain number for its width and with every slice and
every offset checked. Nothing says that the width is one of two, or that the
visible part fits into the cells. Started from the image of a plane, each
operation succeeds and leads to the image of what the plane becomes.
-/
namespace Chip8.Checked

structure Display where
  width : Nat
  background : UInt8
  foreground : UInt8
  coloured : Bool
  dirty : Bool
  cells : Vector UInt8 8192

namespace Display

def height (display : Display) : Nat := display.width / 2

/-- The number of visible cells. -/
def live (display : Display) : Option Nat := mul wordLimit display.width display.height

def pixels (display : Display) : Option (Array UInt8) := do
  let live ← display.live
  guard (live ≤ 8192)
  return display.cells.toArray.extract 0 live

def clear (display : Display) : Option Display := do
  let live ← display.live
  let cells ← fill display.cells 0 8192 0 live display.background
  return { display with cells, dirty := true }

def new : Option Display :=
  clear {
    width := 64, background := defaultBackground, foreground := defaultForeground,
    coloured := false, dirty := false, cells := Vector.replicate 8192 defaultBackground }

def resize (display : Display) (width : Nat) : Option Display :=
  clear { display with width := if width = 128 then 128 else 64 }

def setColours (display : Display) (background foreground : UInt8) : Option Display :=
  clear { display with background, foreground, coloured := true }

def mode (display : Display) : DrawMode :=
  if display.width = 128 ∨ display.coloured then .overwrite else .flip

def touched (display : Display) (cell : UInt8) : UInt8 :=
  match display.mode with
  | .flip => cell ^^^ 1
  | .overwrite => if cell = display.foreground then display.background else display.foreground

def collides (display : Display) (cell : UInt8) : Bool :=
  match display.mode with
  | .flip => cell &&& 1 = 1
  | .overwrite => cell = display.foreground

def plot (display : Display) (x y : Nat) : Option (Display × Bool) := do
  let above ← mul wordLimit y display.width
  let place ← add wordLimit x above
  let live ← display.live
  if live ≤ place then
    return (display, false)
  else
    let cell ← display.cells[place]?
    let cells ← put display.cells place (display.touched cell)
    return ({ display with dirty := true, cells }, display.collides cell)

def scrollDown (display : Display) (rows : Nat) : Option Display := do
  let rows := min rows display.height
  let kept ← sub display.height rows
  let last ← mul wordLimit kept display.width
  let goal ← mul wordLimit rows display.width
  let cells ← copyWithin display.cells 0 8192 0 last goal
  let cells ← fill cells 0 8192 0 goal display.background
  return { display with cells, dirty := true }

/-- Moves the visible rows one after the other, each given by its first place. -/
def scrollRows (display : Display)
    (move : Vector UInt8 8192 → Nat → Option (Vector UInt8 8192)) : Option Display := do
  let live ← display.live
  guard (live ≤ 8192)
  let rows ← div live display.width
  let cells ← (List.range rows).foldlM (fun cells row => move cells (row * display.width))
    display.cells
  return { display with cells, dirty := true }

def scrollRight (display : Display) : Option Display :=
  display.scrollRows fun cells base => do
    let last ← sub display.width 4
    let cells ← copyWithin cells base display.width 0 last 4
    fill cells base display.width 0 4 display.background

def scrollLeft (display : Display) : Option Display :=
  display.scrollRows fun cells base => do
    let cells ← copyWithin cells base display.width 4 display.width 0
    let first ← sub display.width 4
    fill cells base display.width first display.width display.background

/-- A plane with its width as a plain number. -/
def of (plane : Plane) : Display where
  width := plane.width
  background := plane.background
  foreground := plane.foreground
  coloured := plane.coloured
  dirty := plane.dirty
  cells := plane.cells

section

variable (plane : Plane)

theorem size_cases :
    plane.width = 64 ∧ plane.height = 32 ∨ plane.width = 128 ∧ plane.height = 64 := by
  unfold Plane.width Plane.height
  cases plane.resolution
  · exact .inl ⟨rfl, rfl⟩
  · exact .inr ⟨rfl, rfl⟩

theorem height_of : (of plane).height = plane.height := by
  have half : (of plane).height = plane.width / 2 := rfl
  rcases size_cases plane with ⟨width, height⟩ | ⟨width, height⟩
  all_goals rw [half, width, height]

theorem area_eq : plane.width * plane.height = plane.area := rfl

theorem live_of : (of plane).live = some plane.area := by
  have fits : plane.width * plane.height < wordLimit :=
    Nat.lt_of_le_of_lt plane.resolution.area_le (by decide)
  rw [live, height_of]
  exact mul_eq fits

theorem pixels_of : (of plane).pixels = some plane.visible := by
  have fits : plane.area ≤ 8192 := plane.resolution.area_le
  simp only [pixels, live_of, Option.bind_eq_bind, Option.bind_some, guard, fits, if_true]
  rfl

theorem clear_of : (of plane).clear = some (of plane.clear) := by
  have fills := fill_eq plane.cells plane.background (Nat.le_of_eq (Nat.zero_add 8192))
    (Nat.zero_le plane.area) plane.resolution.area_le
  have cells : filled plane.cells (0 + 0) (0 + plane.area) plane.background =
      plane.clear.cells := by
    simp only [filled, Nat.zero_add, Nat.zero_le, true_and]
    rfl
  rw [cells] at fills
  rw [clear, live_of]
  simp only [of, Option.bind_eq_bind, Option.bind_some, fills]
  rfl

theorem new_eq : new = some (of {}) := by
  have cells : (Plane.clear { dirty := false }).cells =
      Vector.replicate 8192 defaultBackground := by
    apply Vector.ext
    intro place inside
    simp only [Plane.clear, Plane.repaint, Vector.getElem_mapIdx, Vector.getElem_replicate,
      ite_self]
  -- Clearing a plane that is blank sets its flag and does nothing else.
  have cleared : Plane.clear { dirty := false } = {} :=
    congrArg (fun cells => ({ cells } : Plane)) cells
  exact (clear_of { dirty := false }).trans (congrArg (some ∘ of) cleared)

theorem resize_of (resolution : Resolution) :
    (of plane).resize resolution.width = some (of (plane.resize resolution)) := by
  have width : (if resolution.width = 128 then 128 else 64) = resolution.width := by
    cases resolution <;> rfl
  rw [resize, width]
  exact clear_of { plane with resolution }

theorem setColours_of (background foreground : UInt8) :
    (of plane).setColours background foreground =
      some (of (plane.setColours background foreground)) :=
  clear_of { plane with background, foreground, coloured := true }

theorem mode_of : (of plane).mode = plane.mode := by
  unfold mode Plane.mode
  have wide : (of plane).width = 128 ↔ plane.resolution = .high := by
    show plane.resolution.width = 128 ↔ _
    cases plane.resolution <;> decide
  simp only [wide]
  rfl

theorem plot_of {x y : Nat} (fits : x + y * plane.width < wordLimit) :
    (of plane).plot x y = some (of (plane.plot x y).1, (plane.plot x y).2) := by
  have touched : (of plane).touched = plane.touched := by
    funext cell
    rw [touched, mode_of]
    rfl
  have collides : (of plane).collides = plane.collides := by
    funext cell
    rw [collides, mode_of]
    rfl
  have above : mul wordLimit y plane.width = some (y * plane.width) :=
    mul_eq (Nat.lt_of_le_of_lt (Nat.le_add_left _ x) fits)
  simp only [plot, live_of, Option.bind_eq_bind, Option.bind_some, touched, collides]
  simp only [of, above, add_eq fits, Option.bind_some]
  -- A visible place is one of the cells; at any other nothing is looked up.
  by_cases inside : x + y * plane.width < plane.area
  · have bound := Nat.lt_of_lt_of_le inside plane.resolution.area_le
    simp only [Plane.plot, inside, Nat.not_le.mpr inside, if_false, dif_pos,
      Vector.getElem?_eq_getElem bound, Option.bind_some, put_eq _ _ bound]
    rfl
  · simp only [Plane.plot, inside, Nat.not_lt.mp inside, if_true, dif_neg, not_false_eq_true]
    rfl

/-- Rows pushed down and background above them, cell by cell. -/
theorem pushed_down (rows : Nat) :
    let goal := min rows plane.height * plane.width
    let count := (plane.height - min rows plane.height) * plane.width
    filled (copied plane.cells 0 count goal) 0 goal plane.background =
      (plane.scrollDown rows).cells := by
  intro goal count
  apply Vector.ext
  intro place inside
  have split : goal + count = plane.area ∧
      (rows ≤ place / plane.width → place < plane.area → goal ≤ place ∧
        place - goal = (place / plane.width - rows) * plane.width + place % plane.width) ∧
      (¬rows ≤ place / plane.width → place < plane.area → place < goal) := by
    simp only [goal, count, ← area_eq plane]
    rcases size_cases plane with ⟨width, height⟩ | ⟨width, height⟩
    all_goals
      rw [width, height]
      omega
  obtain ⟨whole, kept, lost⟩ := split
  -- A place is hidden, or in a row that comes from above, or in one that nothing comes to.
  simp only [filled, copied, Plane.scrollDown, Plane.repaint, Plane.cell, Vector.getElem_mapIdx,
    Nat.zero_le, true_and, Nat.add_zero, whole]
  by_cases visible : place < plane.area
  · by_cases pushed : rows ≤ place / plane.width
    · obtain ⟨below, moved⟩ := kept pushed visible
      have bound : place - goal < 8192 := by omega
      rw [if_neg (Nat.not_lt.mpr below), if_pos ⟨below, visible⟩, if_pos visible, if_pos pushed,
        ← moved, Vector.getElem?_eq_getElem bound]
      rfl
    · rw [if_pos (lost pushed visible), if_pos visible, if_neg pushed]
  · rw [if_neg (by omega), if_neg fun both => visible both.2, if_neg visible]

theorem scrollDown_of (rows : Nat) :
    (of plane).scrollDown rows = some (of (plane.scrollDown rows)) := by
  have fits : plane.area ≤ 8192 := plane.resolution.area_le
  have short {size : Nat} (less : size ≤ plane.area) : size < wordLimit :=
    Nat.lt_of_le_of_lt (Nat.le_trans less fits) (by decide)
  have whole : min rows plane.height * plane.width +
      (plane.height - min rows plane.height) * plane.width = plane.area := by
    rw [← Nat.add_mul, Nat.add_sub_cancel' (Nat.min_le_right rows plane.height), Nat.mul_comm]
    exact area_eq plane
  -- Rows that are kept and rows that are lost make up the visible part, so both products fit.
  have pushed := pushed_down plane rows
  simp only [scrollDown, height_of, Option.bind_eq_bind, Option.bind_some,
    sub_eq (Nat.min_le_right rows plane.height)]
  simp only [of, mul_eq (short (Nat.le.intro whole)),
    mul_eq (short (Nat.le.intro ((Nat.add_comm _ _).trans whole))), Option.bind_some]
  generalize min rows plane.height * plane.width = goal at whole pushed ⊢
  generalize (plane.height - min rows plane.height) * plane.width = count at whole pushed ⊢
  have copies := copyWithin_eq plane.cells (Nat.le_of_eq (Nat.zero_add 8192)) (Nat.zero_le count)
    (by omega : count ≤ 8192) (by omega : goal + (count - 0) ≤ 8192)
  have fills := fill_eq (copied plane.cells 0 count goal) plane.background
    (Nat.le_of_eq (Nat.zero_add 8192)) (Nat.zero_le goal) (by omega : goal ≤ 8192)
  simp only [Nat.zero_add, Nat.sub_zero] at copies fills
  simp only [copies, fills, pushed, Option.bind_some]
  rfl

theorem width_wide : 4 ≤ plane.width := by
  rcases size_cases plane with ⟨width, -⟩ | ⟨width, -⟩
  all_goals
    rw [width]
    decide

end

section

variable (source : Nat → Option Nat) (background : UInt8) (width : Nat) (cells : Vector UInt8 8192)

/-- What a column of the row at `base` takes over: the cell of another column, or background. -/
def takenCell (base column : Nat) : UInt8 :=
  ((source column).bind fun before => cells[base + before]?).getD background

/-- The cells after the row at `base` has moved. -/
def movedRow (base : Nat) : Vector UInt8 8192 :=
  cells.mapIdx fun place old =>
    if base ≤ place ∧ place < base + width then
      takenCell source background cells base (place - base)
    else old

/-- The cells after the first rows have moved. -/
def movedRows (count : Nat) : Vector UInt8 8192 :=
  cells.mapIdx fun place old =>
    if place < count * width then
      takenCell source background cells (place / width * width) (place % width)
    else old

theorem movedRows_zero : movedRows source background width cells 0 = cells := by
  apply Vector.ext
  intro place inside
  simp only [movedRows, Vector.getElem_mapIdx, Nat.zero_mul, Nat.not_lt_zero, if_false]

/-- A row that moves after those above it takes over what it would have taken over at first. -/
theorem movedRows_succ (count : Nat) :
    movedRow source background width (movedRows source background width cells count)
        (count * width) = movedRows source background width cells (count + 1) := by
  apply Vector.ext
  intro place inside
  have bounds : (count + 1) * width = count * width + width := Nat.succ_mul count width
  simp only [movedRow, Vector.getElem_mapIdx, movedRows, bounds]
  by_cases above : place < count * width
  -- A row above has moved already and stays as it is.
  · rw [if_neg (by omega), if_pos above, if_pos (by omega)]
  · by_cases row : place < count * width + width
    · have quotient : place / width = count :=
        Nat.div_eq_of_lt_le (Nat.not_lt.mp above) (by rwa [bounds])
      have remainder : place % width = place - count * width := by
        have := Nat.div_add_mod' place width
        rw [quotient] at this
        omega
      -- The cells of this row are still those of the beginning.
      have untouched (column : Nat) :
          (movedRows source background width cells count)[count * width + column]? =
            cells[count * width + column]? := by
        simp only [movedRows, Vector.getElem?_mapIdx, Nat.not_lt.mpr (Nat.le_add_right _ column),
          if_false, Option.map_id_fun', id]
      have taken (column : Nat) : takenCell source background
          (movedRows source background width cells count) (count * width) column =
            takenCell source background cells (count * width) column := by
        simp only [takenCell, untouched]
      rw [if_pos ⟨Nat.not_lt.mp above, row⟩, if_pos row, quotient, remainder]
      exact taken _
    · rw [if_neg (by omega), if_neg above, if_neg row]

/-- A row moves by four columns: all but four cells are copied to its other end, and background
fills the gap that this leaves. -/
theorem copied_movedRow {base first goal gap : Nat} (room : base + width ≤ 8192)
    (wide : 4 ≤ width)
    (way : first = 0 ∧ goal = 4 ∧ gap = 0 ∨ first = 4 ∧ goal = 0 ∧ gap = width - 4) :
    filled (copied cells (base + first) (width - 4) (base + goal))
        (base + gap) (base + (gap + 4)) background =
      movedRow (fun column =>
        if goal ≤ column ∧ column < goal + (width - 4) then some (column - goal + first) else none)
        background width cells base := by
  apply Vector.ext
  intro place inside
  simp only [filled, copied, movedRow, takenCell, Vector.getElem_mapIdx]
  by_cases row : base ≤ place ∧ place < base + width
  · rw [if_pos row]
    by_cases kept : goal ≤ place - base ∧ place - base < goal + (width - 4)
    · have bound : base + (place - base - goal + first) < 8192 := by omega
      have same : place - (base + goal) + (base + first) =
          base + (place - base - goal + first) := by omega
      rw [if_neg (by omega), if_pos (by omega), if_pos kept, same, Option.bind_some,
        Vector.getElem?_eq_getElem bound]
      rfl
    · rw [if_pos (by omega), if_neg kept]
      rfl
  · rw [if_neg (by omega), if_neg (by omega), if_neg row]

variable {source background width}

theorem foldlM_movedRow {move : Vector UInt8 8192 → Nat → Option (Vector UInt8 8192)}
    (moves : ∀ cells base, base + width ≤ 8192 →
      move cells base = some (movedRow source background width cells base))
    (count : Nat) (room : count * width ≤ 8192) :
    (List.range count).foldlM (fun cells row => move cells (row * width)) cells =
      some (movedRows source background width cells count) := by
  induction count with
  | zero => exact congrArg some (movedRows_zero source background width cells).symm
  | succ count ih =>
    have room : count * width + width ≤ 8192 := by rwa [← Nat.succ_mul]
    rw [List.range_succ, List.foldlM_append, ih (by omega)]
    simp only [Option.bind_eq_bind, Option.bind_some, List.foldlM_cons, List.foldlM_nil,
      moves _ _ room, movedRows_succ]
    rfl

end

section

variable (plane : Plane)

theorem scrollRows_of {move : Vector UInt8 8192 → Nat → Option (Vector UInt8 8192)}
    {source : Nat → Option Nat} {colour : Nat → Nat → UInt8}
    (moves : ∀ cells base, base + plane.width ≤ 8192 →
      move cells base = some (movedRow source plane.background plane.width cells base))
    (takes : ∀ row column, column < plane.width →
      takenCell source plane.background plane.cells (row * plane.width) column =
        colour row column) :
    (of plane).scrollRows move = some (of (plane.repaint colour)) := by
  have fits : plane.area ≤ 8192 := plane.resolution.area_le
  have last : plane.area / plane.width = plane.height :=
    Nat.mul_div_cancel_left plane.height plane.width_pos
  -- The rows together are the visible cells, and a column is a remainder, so it is narrow.
  have all : movedRows source plane.background plane.width plane.cells plane.height =
      (plane.repaint colour).cells := by
    simp only [movedRows, Nat.mul_comm plane.height, area_eq,
      takes _ _ (Nat.mod_lt _ plane.width_pos)]
    rfl
  have moved := foldlM_movedRow plane.cells moves plane.height (by rwa [Nat.mul_comm, area_eq])
  simp only [scrollRows, live_of, Option.bind_eq_bind, Option.bind_some, guard, fits, if_true]
  simp only [of, div_eq plane.width_pos, last, Option.bind_some, moved, all]
  rfl

theorem scrollRight_of : (of plane).scrollRight = some (of plane.scrollRight) := by
  have wide := width_wide plane
  apply scrollRows_of
  · intro cells base room
    have copies := copyWithin_eq cells room (Nat.zero_le (plane.width - 4))
      (Nat.sub_le plane.width 4) (by omega : 4 + (plane.width - 4 - 0) ≤ plane.width)
    have fills (cells : Vector UInt8 8192) :=
      fill_eq cells plane.background room (Nat.zero_le 4) wide
    simp only [of, sub_eq wide, copies, fills, Option.bind_eq_bind, Option.bind_some]
    exact congrArg some
      (copied_movedRow plane.background plane.width cells room wide (.inl ⟨rfl, rfl, rfl⟩))
  · intro row column narrow
    by_cases right : 4 ≤ column
    · rw [takenCell, if_pos ⟨right, by omega⟩, if_pos right]
      rfl
    · rw [takenCell, if_neg fun both => right both.1, if_neg right]
      rfl

theorem scrollLeft_of : (of plane).scrollLeft = some (of plane.scrollLeft) := by
  have wide := width_wide plane
  apply scrollRows_of
  · intro cells base room
    have copies := copyWithin_eq cells room wide (Nat.le_refl plane.width)
      (by omega : 0 + (plane.width - 4) ≤ plane.width)
    have fills (cells : Vector UInt8 8192) :=
      fill_eq cells plane.background room (Nat.sub_le plane.width 4) (Nat.le_refl plane.width)
    have moved := copied_movedRow plane.background plane.width cells room wide
      (.inr ⟨rfl, rfl, rfl⟩)
    rw [Nat.sub_add_cancel wide] at moved
    simp only [of, sub_eq wide, copies, fills, Option.bind_eq_bind, Option.bind_some]
    exact congrArg some moved
  · intro row column narrow
    by_cases left : column + 4 < plane.width
    · rw [takenCell, if_pos ⟨Nat.zero_le column, by omega⟩, if_pos left]
      rfl
    · rw [takenCell, if_neg (by omega), if_neg left]
      rfl

end

end Display

end Chip8.Checked
