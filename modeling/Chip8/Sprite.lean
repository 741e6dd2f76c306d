import Chip8.Plane

/-!
# Sprites

A sprite is a grid of bits: rows of one or two bytes, the highest bit of each
byte to the left. Drawing it plots its lit spots one after the other, row by
row from the left.
-/
namespace Chip8

structure Sprite where
  rows : Nat
  /-- Bytes a row. -/
  stride : Nat
  /-- The bytes, row after row. -/
  byte : Nat → UInt8

namespace Sprite

def columns (sprite : Sprite) : Nat := 8 * sprite.stride

def lit (sprite : Sprite) (row column : Nat) : Bool :=
  (sprite.byte (row * sprite.stride + column / 8)).toNat.testBit (7 - column % 8)

/-- The lit spots, each as its row and column. -/
def spots (sprite : Sprite) : List (Nat × Nat) :=
  (List.range sprite.rows).flatMap fun row =>
    ((List.range sprite.columns).filter (sprite.lit row)).map fun column => (row, column)

end Sprite

/-- Draws a sprite with its top left corner at a place, and says whether any lit spot collided. -/
def Plane.stamp (plane : Plane) (sprite : Sprite) (x y : Nat) : Plane × Bool :=
  sprite.spots.foldl (fun (plane, collision) (row, column) =>
    let (plane, hit) := plane.plot (x + column) (y + row)
    (plane, collision || hit)) (plane, false)

end Chip8
