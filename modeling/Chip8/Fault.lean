import Chip8.Text.Hex

/-!
# Faults

The two reasons why a step cannot be taken. Each carries the opcode at fault.
-/
namespace Chip8

inductive Fault
  | invalidOpcode (opcode : UInt16)
  | unsupported (opcode : UInt16)
deriving DecidableEq, Repr

namespace Fault

def opcode : Fault → UInt16
  | invalidOpcode opcode | unsupported opcode => opcode

def message : Fault → String
  | invalidOpcode opcode => "invalid opcode: " ++ String.ofList (Hex.marked 4 opcode.toNat)
  | unsupported opcode =>
    "unsupported superchip instruction: " ++ String.ofList (Hex.marked 4 opcode.toNat)
      ++ " (0xF030, 0xFx75 and 0xFx85 are not supported)"

end Fault

end Chip8
