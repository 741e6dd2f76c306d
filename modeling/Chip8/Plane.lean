/-!
# The pixel plane

The plane always has the 128 by 64 cells of the high resolution. In the low
resolution only the first 64 times 32 of them are visible, row after row; the
others keep what they held.

Two drawing rules share the cells. The plain low resolution screen flips the
low bit of a cell. In the high resolution, or once a program has chosen
colours, a pixel swaps the foreground for the background and puts the
foreground in place of anything else.
-/
namespace Chip8

inductive Resolution
  | low
  | high
deriving DecidableEq, Repr

namespace Resolution

def width : Resolution → Nat
  | low => 64
  | high => 128

def height : Resolution → Nat
  | low => 32
  | high => 64

/-- Any width but that of the high resolution stands for the low one. -/
def ofWidth (width : Nat) : Resolution := if width = high.width then high else low

/-- The number of visible cells. -/
def area (resolution : Resolution) : Nat := resolution.width * resolution.height

theorem area_le (resolution : Resolution) : resolution.area ≤ 8192 := by
  cases resolution <;> decide

end Resolution

inductive DrawMode
  | flip
  | overwrite
deriving DecidableEq, Repr

def defaultBackground : UInt8 := 0x00

def defaultForeground : UInt8 := 0xFF

structure Plane where
  resolution : Resolution := .low
  background : UInt8 := defaultBackground
  foreground : UInt8 := defaultForeground
  /-- Set once a program has chosen colours. -/
  coloured : Bool := false
  /-- Set by every change, cleared when the host has been shown the plane. -/
  dirty : Bool := true
  cells : Vector UInt8 8192 := Vector.replicate 8192 defaultBackground
deriving DecidableEq

namespace Plane

def width (plane : Plane) : Nat := plane.resolution.width

def height (plane : Plane) : Nat := plane.resolution.height

def area (plane : Plane) : Nat := plane.resolution.area

def mode (plane : Plane) : DrawMode :=
  if plane.resolution = .high ∨ plane.coloured then .overwrite else .flip

/-- The visible cells, row after row. -/
def visible (plane : Plane) : Array UInt8 := plane.cells.toArray.extract 0 plane.area

/-- The cell at a row and a column. Outside the array there is only background. -/
def cell (plane : Plane) (row column : Nat) : UInt8 :=
  plane.cells[row * plane.width + column]?.getD plane.background

/-- The plane after the host has been shown it. -/
def shown (plane : Plane) : Plane := { plane with dirty := false }

/-- Gives every visible cell a value by row and column. -/
def repaint (plane : Plane) (colour : Nat → Nat → UInt8) : Plane :=
  { plane with
    dirty := true
    cells := plane.cells.mapIdx fun place old =>
      if place < plane.area then colour (place / plane.width) (place % plane.width) else old }

def clear (plane : Plane) : Plane :=
  plane.repaint fun _ _ => plane.background

def resize (plane : Plane) (resolution : Resolution) : Plane :=
  clear { plane with resolution }

def setColours (plane : Plane) (background foreground : UInt8) : Plane :=
  clear { plane with background, foreground, coloured := true }

/-- Rows pushed off the bottom are lost. -/
def scrollDown (plane : Plane) (rows : Nat) : Plane :=
  plane.repaint fun row column =>
    if rows ≤ row then plane.cell (row - rows) column else plane.background

/-- Moves every row by four columns. -/
def scrollRight (plane : Plane) : Plane :=
  plane.repaint fun row column =>
    if 4 ≤ column then plane.cell row (column - 4) else plane.background

/-- Moves every row by four columns. -/
def scrollLeft (plane : Plane) : Plane :=
  plane.repaint fun row column =>
    if column + 4 < plane.width then plane.cell row (column + 4) else plane.background

/-- What a lit pixel makes of a cell. -/
def touched (plane : Plane) (cell : UInt8) : UInt8 :=
  match plane.mode with
  | .flip => cell ^^^ 1
  | .overwrite => if cell = plane.foreground then plane.background else plane.foreground

/-- Whether a lit pixel collides with a cell. -/
def collides (plane : Plane) (cell : UInt8) : Bool :=
  match plane.mode with
  | .flip => cell &&& 1 = 1
  | .overwrite => cell = plane.foreground

/-- Draws one lit pixel and says whether it collided. Only the place in the
row order is checked: a pixel past the right edge runs on into the next row,
one past the last row is dropped. -/
def plot (plane : Plane) (x y : Nat) : Plane × Bool :=
  let place := x + y * plane.width
  if inside : place < plane.area then
    have := plane.resolution.area_le
    have : place < 8192 := Nat.lt_of_lt_of_le inside this
    let cell := plane.cells[place]
    ({ plane with dirty := true, cells := plane.cells.set place (plane.touched cell) },
      plane.collides cell)
  else (plane, false)

end Plane

end Chip8
