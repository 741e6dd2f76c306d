import Chip8.Fault
import Chip8.Instruction.Basic

/-!
# Decoding

An opcode is read as four nibbles. The first selects a family; the others are
operands or select within the family. Both shifts ignore their third nibble,
every other instruction has exactly one opcode.
-/
namespace Chip8

/-- The nibble of `opcode` that has `place` nibbles to its right. -/
def nibble (opcode : UInt16) (place : Nat) : Nibble :=
  Nibble.ofNat (opcode.toNat >>> (4 * place))

namespace Instruction

/-- Family 0: the screen, the end of a call or of the program, and the host. -/
def ofSystem (x y n : Nibble) : Option Instruction :=
  match x, y, n with
  | 0x0, 0xC, n => some (scrollDown n)
  | 0x0, 0xE, 0x0 => some clearScreen
  | 0x0, 0xE, 0xE => some returnFromCall
  | 0x0, 0xF, 0xB => some scrollRight
  | 0x0, 0xF, 0xC => some scrollLeft
  | 0x0, 0xF, 0xD => some exit
  | 0x0, 0xF, 0xE => some lowResolution
  | 0x0, 0xF, 0xF => some highResolution
  | 0x1, 0x0, 0x0 => some setFrequency
  | 0x1, 0x0, 0x1 => some softReset
  | 0x1, 0x0, 0x2 => some setColours
  | _, _, _ => none

/-- Family 8: arithmetic on two registers. -/
def ofArithmetic (x y n : Nibble) : Option Instruction :=
  match n with
  | 0x0 => some (copy x y)
  | 0x1 => some (or x y)
  | 0x2 => some (and x y)
  | 0x3 => some (xor x y)
  | 0x4 => some (add x y)
  | 0x5 => some (subtract x y)
  | 0x6 => some (shiftRight x)
  | 0x7 => some (subtractFrom x y)
  | 0xE => some (shiftLeft x)
  | _ => none

/-- Family E: skips on the keypad. -/
def ofKeypad (x y n : Nibble) : Option Instruction :=
  match y, n with
  | 0x9, 0xE => some (skipIfKey x)
  | 0xA, 0x1 => some (skipUnlessKey x)
  | _, _ => none

/-- Family F: timers, the index and transfers to and from memory. -/
def ofTransfer (x y n : Nibble) : Option Instruction :=
  match y, n with
  | 0x0, 0x7 => some (readDelay x)
  | 0x0, 0xA => some (awaitKey x)
  | 0x1, 0x5 => some (setDelay x)
  | 0x1, 0x8 => some (setSound x)
  | 0x1, 0xE => some (addToIndex x)
  | 0x2, 0x9 => some (pointAtGlyph x)
  | 0x3, 0x3 => some (storeDecimal x)
  | 0x5, 0x5 => some (saveRegisters x)
  | 0x6, 0x5 => some (loadRegisters x)
  | _, _ => none

def ofNibbles (family x y n : Nibble) : Option Instruction :=
  let kk := UInt8.ofNat (16 * y.val + n.val)
  let nnn := Address.ofNat (256 * x.val + 16 * y.val + n.val)
  match family with
  | 0x0 => ofSystem x y n
  | 0x1 => some (jump nnn)
  | 0x2 => some (call nnn)
  | 0x3 => some (skipIfByte x kk)
  | 0x4 => some (skipUnlessByte x kk)
  | 0x5 => if n = 0 then some (skipIfEqual x y) else none
  | 0x6 => some (loadByte x kk)
  | 0x7 => some (addByte x kk)
  | 0x8 => ofArithmetic x y n
  | 0x9 => if n = 0 then some (skipUnlessEqual x y) else none
  | 0xA => some (setIndex nnn)
  | 0xB => some (jumpOffset nnn)
  | 0xC => some (random x kk)
  | 0xD => some (draw x y n)
  | 0xE => ofKeypad x y n
  | _ => ofTransfer x y n

/-- Opcodes of the extended instruction set that this machine knows and refuses. -/
def isUnsupported (opcode : UInt16) : Bool :=
  nibble opcode 3 = 0xF ∧ (opcode.toUInt8 = 0x30 ∨ opcode.toUInt8 = 0x75 ∨ opcode.toUInt8 = 0x85)

def decode (opcode : UInt16) : Except Fault Instruction :=
  match ofNibbles (nibble opcode 3) (nibble opcode 2) (nibble opcode 1) (nibble opcode 0) with
  | some instruction => .ok instruction
  | none => .error (if isUnsupported opcode then .unsupported opcode else .invalidOpcode opcode)

end Instruction

end Chip8
