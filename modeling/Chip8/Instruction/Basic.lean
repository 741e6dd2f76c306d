import Chip8.Word

/-!
# Instructions

Operands are in range by their types: register numbers and nibbles have four
bits, immediate bytes eight and addresses twelve.
-/
namespace Chip8

inductive Instruction
  | scrollDown (n : Nibble)
  | clearScreen
  | returnFromCall
  | scrollRight
  | scrollLeft
  | exit
  | lowResolution
  | highResolution
  | setFrequency
  | softReset
  | setColours
  | jump (nnn : Address)
  | call (nnn : Address)
  | skipIfByte (x : Nibble) (kk : UInt8)
  | skipUnlessByte (x : Nibble) (kk : UInt8)
  | skipIfEqual (x y : Nibble)
  | loadByte (x : Nibble) (kk : UInt8)
  | addByte (x : Nibble) (kk : UInt8)
  | copy (x y : Nibble)
  | or (x y : Nibble)
  | and (x y : Nibble)
  | xor (x y : Nibble)
  | add (x y : Nibble)
  | subtract (x y : Nibble)
  | shiftRight (x : Nibble)
  | subtractFrom (x y : Nibble)
  | shiftLeft (x : Nibble)
  | skipUnlessEqual (x y : Nibble)
  | setIndex (nnn : Address)
  | jumpOffset (nnn : Address)
  | random (x : Nibble) (kk : UInt8)
  | draw (x y n : Nibble)
  | skipIfKey (x : Nibble)
  | skipUnlessKey (x : Nibble)
  | readDelay (x : Nibble)
  | awaitKey (x : Nibble)
  | setDelay (x : Nibble)
  | setSound (x : Nibble)
  | addToIndex (x : Nibble)
  | pointAtGlyph (x : Nibble)
  | storeDecimal (x : Nibble)
  | saveRegisters (x : Nibble)
  | loadRegisters (x : Nibble)
deriving DecidableEq, Repr

namespace Instruction

/-- Whether the instruction addresses the host itself, which a dialect may forbid. -/
def isHostExtension : Instruction → Bool
  | setFrequency | softReset | setColours => true
  | _ => false

end Instruction

end Chip8
