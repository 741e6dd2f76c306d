import Chip8.Proofs.Checked.Screen
import Chip8.Proofs.HiddenCells
import Chip8.Proofs.Restart

/-!
# Scrolling

A scroll moves rows or columns of the visible part and fills the gap with
background. Seen cell by cell it has a simple law, and from that law it follows
how scrolls go together: two downwards are one by the sum, down and sideways
can be swapped, and to the right and back again loses the columns at the right
edge and nothing else.

The cells lie in one row order in an array that may be larger than the screen,
and they are moved by copies of whole blocks onto themselves. That these do what
the law says is the subject of the checked screen, and is stated here with it.
-/
namespace Chip8.Plane

/-- The visible cell at a row and a column of the screen. -/
def pixel (plane : Plane) (row column : Nat) : Option UInt8 :=
  plane.visible[row * plane.width + column]?

/-- A plane on which every visible cell has become what `source` gives for it. -/
structure Shifted (before after : Plane) (source : Nat → Nat → Option UInt8) : Prop where
  pixel : ∀ row < before.height, ∀ column < before.width,
    after.pixel row column = source row column
  hidden (place : Nat) : before.width * before.height ≤ place →
    after.cells[place]? = before.cells[place]?
  screen : SameScreen before after
  dirty : after.dirty = true

section

variable (plane : Plane) {row column : Nat}

theorem pixel_eq_cell (within : row < plane.height) (narrow : column < plane.width) :
    plane.pixel row column = some (plane.cell row column) := by
  have inside := plane.place_inside within narrow
  have bound := Nat.lt_of_lt_of_le inside plane.resolution.area_le
  rw [pixel, visible_getElem?, if_pos inside, cell, Vector.getElem?_eq_getElem bound,
    Option.getD_some]

section

variable (colour : Nat → Nat → UInt8)

theorem repaint_pixel (within : row < plane.height) (narrow : column < plane.width) :
    (plane.repaint colour).pixel row column = some (colour row column) := by
  have inside : row * plane.width + column < plane.area := plane.place_inside within narrow
  have quotient : (row * plane.width + column) / plane.width = row := by
    rw [Nat.mul_comm, Nat.mul_add_div plane.width_pos, Nat.div_eq_of_lt narrow, Nat.add_zero]
  have remainder : (row * plane.width + column) % plane.width = column := by
    rw [Nat.mul_comm, Nat.mul_add_mod, Nat.mod_eq_of_lt narrow]
  have painted := plane.repaint_getElem? colour inside
  rw [quotient, remainder] at painted
  exact ((plane.repaint colour).visible_getElem? _).trans ((if_pos inside).trans painted)

theorem repaint_cell (within : row < plane.height) (narrow : column < plane.width) :
    (plane.repaint colour).cell row column = colour row column := by
  have painted := plane.repaint_pixel colour within narrow
  rw [pixel_eq_cell (plane.repaint colour) within narrow] at painted
  exact Option.some.inj painted

theorem repaint_shifted {source : Nat → Nat → Option UInt8}
    (paints : ∀ row < plane.height, ∀ column < plane.width,
      some (colour row column) = source row column) :
    plane.Shifted (plane.repaint colour) source where
  pixel row within column narrow :=
    (plane.repaint_pixel colour within narrow).trans (paints row within column narrow)
  hidden _ outside := plane.repaint_hidden colour outside
  screen := ⟨rfl, rfl, rfl, rfl⟩
  dirty := rfl

/-- Of two coats of paint only the second is seen. -/
theorem repaint_repaint (colour' : Nat → Nat → UInt8) :
    (plane.repaint colour).repaint colour' = plane.repaint colour' := by
  refine Plane.ext rfl rfl rfl rfl rfl ?_
  apply Vector.ext
  intro place _
  have covered (one other old : UInt8) : (if place < plane.area then one
      else if place < plane.area then other else old) =
        if place < plane.area then one else old := by
    split <;> rfl
  simp only [repaint, Vector.getElem_mapIdx]
  exact covered _ _ _

end

theorem repaint_congr {colour colour' : Nat → Nat → UInt8}
    (same : ∀ row < plane.height, ∀ column < plane.width, colour row column = colour' row column) :
    plane.repaint colour = plane.repaint colour' := by
  refine Plane.ext rfl rfl rfl rfl rfl ?_
  apply Vector.ext
  intro place _
  simp only [repaint, Vector.getElem_mapIdx]
  split
  next inside =>
    have inside : place < plane.width * plane.height := inside
    exact same _ (Nat.div_lt_of_lt_mul inside) _ (Nat.mod_lt _ plane.width_pos)
  next => rfl

end

section

variable (plane : Plane)

theorem scrollDown_scrollDown (first second : Nat) :
    (plane.scrollDown first).scrollDown second = plane.scrollDown (first + second) := by
  rw [scrollDown, scrollDown, repaint_repaint, scrollDown]
  apply repaint_congr
  intro row within column narrow
  by_cases late : second ≤ row
  · have above : row - second < plane.height := by omega
    rw [if_pos late, repaint_cell plane _ above narrow, Nat.sub_sub, Nat.add_comm second]
    by_cases kept : first ≤ row - second
    · rw [if_pos kept, if_pos (by omega)]
    · rw [if_neg kept, if_neg (by omega)]
  · rw [if_neg late, if_neg (by omega)]
    rfl

/-- What moves cells along their rows, by the columns alone, can be done before or after. -/
theorem scrollDown_sideways (rows : Nat) {sideways : Plane → Plane} {reaches : Nat → Prop}
    [DecidablePred reaches] {origin : Nat → Nat}
    (paints : ∀ other : Plane, other.width = plane.width →
      sideways other = other.repaint fun row column =>
        if reaches column then other.cell row (origin column) else other.background)
    (narrows : ∀ column < plane.width, reaches column → origin column < plane.width) :
    sideways (plane.scrollDown rows) = (sideways plane).scrollDown rows := by
  rw [paints plane rfl, paints (plane.scrollDown rows) rfl, scrollDown, scrollDown,
    repaint_repaint, repaint_repaint]
  apply repaint_congr
  intro row within column narrow
  have above : row - rows < plane.height := Nat.lt_of_le_of_lt (Nat.sub_le row rows) within
  rw [repaint_cell plane _ above narrow]
  by_cases reached : reaches column
  · rw [if_pos reached, if_pos reached, repaint_cell plane _ within (narrows column narrow reached)]
    rfl
  · rw [if_neg reached, if_neg reached]
    exact (ite_self _).symm

theorem scrollDown_scrollRight (rows : Nat) :
    (plane.scrollDown rows).scrollRight = plane.scrollRight.scrollDown rows :=
  plane.scrollDown_sideways rows (fun _ _ => rfl) fun _ narrow _ =>
    Nat.lt_of_le_of_lt (Nat.sub_le _ 4) narrow

theorem scrollDown_scrollLeft (rows : Nat) :
    (plane.scrollDown rows).scrollLeft = plane.scrollLeft.scrollDown rows := by
  have moves (other : Plane) (same : other.width = plane.width) :
      other.scrollLeft = other.repaint fun row column =>
        if column + 4 < plane.width then other.cell row (column + 4) else other.background := by
    rw [scrollLeft, same]
  exact plane.scrollDown_sideways rows moves fun _ _ within => within

theorem scrollRight_scrollLeft : plane.scrollRight.scrollLeft = plane.repaint fun row column =>
    if column + 4 < plane.width then plane.cell row column else plane.background := by
  rw [scrollLeft, scrollRight, repaint_repaint]
  apply repaint_congr
  intro row within column _
  by_cases left : column + 4 < plane.width
  · have reached : 4 ≤ column + 4 := Nat.le_add_left 4 column
    rw [if_pos left, repaint_cell plane _ within left, if_pos reached, Nat.add_sub_cancel]
    exact if_pos left
  · rw [if_neg left]
    exact if_neg left

/-- Every scroll is the shift of rows or columns that it should be, with background in the gap,
and touches nothing else. Scrolls downwards add up, they can be swapped with those sideways, and a
scroll to the right and back blanks the last four columns. Copying blocks of the row order and
filling what is left over comes to the same. -/
theorem scrolls_shift (plane : Plane) :
    (∀ rows, plane.Shifted (plane.scrollDown rows) fun row column =>
      if rows ≤ row then plane.pixel (row - rows) column else some plane.background) ∧
    (plane.Shifted plane.scrollRight fun row column =>
      if 4 ≤ column then plane.pixel row (column - 4) else some plane.background) ∧
    (plane.Shifted plane.scrollLeft fun row column =>
      if column + 4 < plane.width then plane.pixel row (column + 4) else some plane.background) ∧
    (∀ first second,
      (plane.scrollDown first).scrollDown second = plane.scrollDown (first + second)) ∧
    (plane.Shifted plane.scrollRight.scrollLeft fun row column =>
      if column + 4 < plane.width then plane.pixel row column else some plane.background) ∧
    (∀ rows, (plane.scrollDown rows).scrollRight = plane.scrollRight.scrollDown rows ∧
      (plane.scrollDown rows).scrollLeft = plane.scrollLeft.scrollDown rows) ∧
    (∀ rows, (Checked.Display.of plane).scrollDown rows = some (.of (plane.scrollDown rows))) ∧
    (Checked.Display.of plane).scrollRight = some (.of plane.scrollRight) ∧
    (Checked.Display.of plane).scrollLeft = some (.of plane.scrollLeft) := by
  refine ⟨?down, ?right, ?left, plane.scrollDown_scrollDown, ?back, ?swaps,
    Checked.Display.scrollDown_of plane, Checked.Display.scrollRight_of plane,
    Checked.Display.scrollLeft_of plane⟩
  case down =>
    intro rows
    apply repaint_shifted
    intro row within column narrow
    split
    · have above : row - rows < plane.height := Nat.lt_of_le_of_lt (Nat.sub_le row rows) within
      exact (plane.pixel_eq_cell above narrow).symm
    · rfl
  case right =>
    apply repaint_shifted
    intro row within column narrow
    split
    · have before : column - 4 < plane.width := Nat.lt_of_le_of_lt (Nat.sub_le column 4) narrow
      exact (plane.pixel_eq_cell within before).symm
    · rfl
  case left =>
    apply repaint_shifted
    intro row within column _
    split
    next inside => exact (plane.pixel_eq_cell within inside).symm
    · rfl
  case back =>
    rw [scrollRight_scrollLeft]
    apply repaint_shifted
    intro row within column narrow
    split
    · exact (plane.pixel_eq_cell within narrow).symm
    · rfl
  case swaps =>
    exact fun rows => ⟨plane.scrollDown_scrollRight rows, plane.scrollDown_scrollLeft rows⟩

end

end Chip8.Plane
