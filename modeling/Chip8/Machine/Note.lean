import Chip8.Instruction.Text
import Chip8.Log
import Chip8.Plane
import Chip8.Rom
import Chip8.Text.Hex

/-!
# Notes

What the machine has to say about its own work, by cause. Level and wording
follow from the cause.
-/
namespace Chip8

inductive Note
  | truncated (size room : Nat)
  | programLoaded (counter : UInt16)
  | executing (counter opcode : UInt16) (instruction : Instruction)
  | exited (counter : UInt16)
  | switched (resolution : Resolution)
deriving DecidableEq, Repr

namespace Note

def level : Note → Level
  | truncated _ _ => .warn
  | programLoaded _ | exited _ | switched _ => .debug
  | executing _ _ _ => .trace

/-- An address in a note, with at least three digits. -/
def address (counter : UInt16) : String := String.ofList (Hex.marked 3 counter.toNat)

def text : Note → String
  | truncated size room =>
    "rom is " ++ toString size ++ " bytes but only " ++ toString room ++ " fit in memory, truncating"
  | programLoaded counter => "program loaded, program counter at " ++ address counter
  | executing counter opcode instruction =>
    address counter ++ ": " ++ String.ofList (Hex.marked 4 opcode.toNat) ++ " " ++ instruction.text
  | exited counter => "program exited at " ++ address counter
  | switched resolution =>
    "display switched to " ++ toString resolution.width ++ "x" ++ toString resolution.height

end Note

/-- What there is to say about copying an image into `room`. -/
def Rom.notes (rom : Rom) (room : Nat) : List Note :=
  if room < rom.bytes.size then [.truncated rom.bytes.size room] else []

end Chip8
