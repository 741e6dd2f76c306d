import Chip8.Rom
import Chip8.Word

/-!
# Memory

Memory has 4096 bytes. Every address is a 16 bit word of which only the low
twelve bits count, so an access past the end goes on at the start. The font
lies at address 0, the program region from 0x200 to the end.
-/
namespace Chip8

/-- Five rows for each of the glyphs 0 to F, a row in the high half of a byte. -/
def font : Vector UInt8 80 := #v[
  0xF0, 0x90, 0x90, 0x90, 0xF0,
  0x20, 0x60, 0x20, 0x20, 0x70,
  0xF0, 0x10, 0xF0, 0x80, 0xF0,
  0xF0, 0x10, 0xF0, 0x10, 0xF0,
  0x90, 0x90, 0xF0, 0x10, 0x10,
  0xF0, 0x80, 0xF0, 0x10, 0xF0,
  0xF0, 0x80, 0xF0, 0x90, 0xF0,
  0xF0, 0x10, 0x20, 0x40, 0x40,
  0xF0, 0x90, 0xF0, 0x90, 0xF0,
  0xF0, 0x90, 0xF0, 0x10, 0xF0,
  0xF0, 0x90, 0xF0, 0x90, 0x90,
  0xE0, 0x90, 0xE0, 0x90, 0xE0,
  0xF0, 0x80, 0x80, 0x80, 0xF0,
  0xE0, 0x90, 0x90, 0x90, 0xE0,
  0xF0, 0x80, 0xF0, 0x80, 0xF0,
  0xF0, 0x80, 0xF0, 0x80, 0x80]

def glyphSize : Nat := 5

abbrev memorySize : Nat := 4096

/-- Where programs start. -/
abbrev programStart : Nat := 0x200

abbrev programRoom : Nat := memorySize - programStart

structure Memory where
  cells : Vector UInt8 memorySize
deriving DecidableEq

namespace Memory

/-- The cell that an address reaches. -/
def cell (address : UInt16) : Address := Address.ofNat address.toNat

def read (memory : Memory) (address : UInt16) : UInt8 := memory.cells.get (cell address)

def write (memory : Memory) (address : UInt16) (value : UInt8) : Memory :=
  { cells := memory.cells.set (cell address) value }

/-- The opcode at an address, high byte first. Each byte wraps by itself. -/
def readWord (memory : Memory) (address : UInt16) : UInt16 :=
  (memory.read address).toUInt16 <<< 8 ||| (memory.read (address + 1)).toUInt16

/-- Writes bytes to an address and those after it. -/
def writeFrom (memory : Memory) (address : UInt16) : List UInt8 → Memory
  | [] => memory
  | byte :: rest => (memory.write address byte).writeFrom (address + 1) rest

/-- Nothing but the font. -/
def blank : Memory :=
  { cells := (Vector.replicate memorySize 0).mapIdx fun place old => font[place]?.getD old }

/-- Puts a program image into the program region. -/
def load (memory : Memory) (rom : Rom) : Memory :=
  { cells := memory.cells.mapIdx fun place old =>
      if programStart ≤ place then rom.overlay (place - programStart) old else old }

end Memory

end Chip8
