import Chip8.Hexdump
import Chip8.Machine.Basic

/-!
# Snapshots

A snapshot is what can be seen of a machine at one time: a time stamp, a name,
the registers, the call stack, all of memory and a picture of 64 by 32 spots.
The picture of the high resolution shows every second cell of every second
row, so that the whole screen fits.
-/
namespace Chip8

structure Snapshot where
  seconds : Nat
  name : String
  counter : UInt16
  pointer : Nibble
  index : UInt16
  registers : Bank UInt8
  stack : Bank UInt16
  memory : Vector UInt8 memorySize
  /-- Rows of spots, each lit or not. -/
  picture : Vector (Vector Bool 64) 32
deriving DecidableEq

namespace Plane

/-- The picture of a plane: a spot is lit where its cell differs from the background. -/
def picture (plane : Plane) : Vector (Vector Bool 64) 32 :=
  let stride := plane.width / 64
  Vector.ofFn fun y => Vector.ofFn fun x =>
    plane.cell (y.val * stride) (x.val * stride) ≠ plane.background

end Plane

namespace Machine

/-- Whole seconds are shown, none for a time before the clock's origin. -/
def snapshot (machine : Machine) (now : Instant) (name : String) : Snapshot where
  seconds := now.toNat / 1000000000
  name := name
  counter := machine.counter
  pointer := machine.stack.pointer
  index := machine.registers.index
  registers := machine.registers.v
  stack := machine.stack.slots
  memory := machine.memory.cells
  picture := machine.plane.picture

end Machine

namespace Snapshot

/-- A word as two bytes, the high one first. -/
def wordBytes (word : UInt16) : List UInt8 := [(word >>> 8).toUInt8, word.toUInt8]

def heading (snapshot : Snapshot) : List Char :=
  Nat.toDigits 10 snapshot.seconds ++ '\n' :: (snapshot.name.toList ++ ['\n', '\n'])

def pointers (snapshot : Snapshot) : List Char :=
  "PC: ".toList ++ Hex.marked 1 snapshot.counter.toNat
    ++ ", SP: ".toList ++ Hex.marked 1 snapshot.pointer.val
    ++ ", I: ".toList ++ Hex.marked 1 snapshot.index.toNat ++ ['\n', '\n']

def registerLine (number : Nat) (value : UInt8) : List Char :=
  'V' :: (Hex.upper 1 number ++ ':' :: ' ' :: (Hex.marked 1 value.toNat ++ ['\n']))

def registerLines (snapshot : Snapshot) : List Char :=
  (snapshot.registers.toList.mapIdx registerLine).flatten

def pictureRow (row : Vector Bool 64) : List Char :=
  row.toList.map fun lit => if lit then '#' else '.'

/-- Every row of the picture follows a line end, the last is followed by one too. -/
def screen (snapshot : Snapshot) : List Char :=
  (snapshot.picture.toList.flatMap fun row => '\n' :: pictureRow row) ++ ['\n']

def text (snapshot : Snapshot) : List Char :=
  snapshot.heading ++ snapshot.pointers ++ snapshot.registerLines
    ++ '\n' :: Hexdump.text (snapshot.stack.toList.flatMap wordBytes)
    ++ '\n' :: Hexdump.text snapshot.memory.toList
    ++ snapshot.screen

end Snapshot

end Chip8
