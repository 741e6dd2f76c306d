import Chip8.Instruction.Basic

/-!
# Instructions as text

The form of an instruction in a trace: a name, then its operands with their
letters and in decimal.
-/
namespace Chip8.Instruction

def name : Instruction → String
  | scrollDown _ => "ScrollDown"
  | clearScreen => "ClearScreen"
  | returnFromCall => "ReturnFromSubroutine"
  | scrollRight => "ScrollRight"
  | scrollLeft => "ScrollLeft"
  | exit => "Exit"
  | lowResolution => "LowResolution"
  | highResolution => "HighResolution"
  | setFrequency => "SetCpuFrequency"
  | softReset => "SoftReset"
  | setColours => "SetColors"
  | jump _ => "Jump"
  | call _ => "CallSubroutineAtNNN"
  | skipIfByte _ _ => "SkipNextInstructionIfXIsKK"
  | skipUnlessByte _ _ => "SkipNextInstructionIfXIsNotKK"
  | skipIfEqual _ _ => "SkipNextInstructionIfXIsY"
  | loadByte _ _ => "LoadRegisterX"
  | addByte _ _ => "AddToRegisterX"
  | copy _ _ => "LoadRegisterYIntoX"
  | or _ _ => "LoadXOrYinX"
  | and _ _ => "LoadXAndYInX"
  | xor _ _ => "LoadXXorYInX"
  | add _ _ => "AddYToX"
  | subtract _ _ => "SubYFromX"
  | shiftRight _ => "ShiftXRight1"
  | subtractFrom _ _ => "SubXFromY"
  | shiftLeft _ => "ShiftXLeft1"
  | skipUnlessEqual _ _ => "SkipNextInstructionIfXIsNotY"
  | setIndex _ => "SetIndexRegister"
  | jumpOffset _ => "JumpToAddressPlusV0"
  | random _ _ => "SetXToRandom"
  | draw _ _ _ => "Display"
  | skipIfKey _ => "SkipIfVxPressed"
  | skipUnlessKey _ => "SkipIfVxNotPressed"
  | readDelay _ => "SetXToDelayTimer"
  | awaitKey _ => "WaitForKeyPressed"
  | setDelay _ => "SetDelayTimerToX"
  | setSound _ => "SetSoundTimerToX"
  | addToIndex _ => "AddXtoI"
  | pointAtGlyph _ => "SetIToSpriteX"
  | storeDecimal _ => "LoadBCDOfX"
  | saveRegisters _ => "Write0ThroughX"
  | loadRegisters _ => "Load0ThroughX"

/-- Operands with their letters, in the order of the opcode's digits. -/
def operands : Instruction → List (String × Nat)
  | clearScreen | returnFromCall | scrollRight | scrollLeft | exit | lowResolution
  | highResolution | setFrequency | softReset | setColours => []
  | scrollDown n => [("n", n.val)]
  | jump nnn | call nnn | setIndex nnn | jumpOffset nnn => [("nnn", nnn.val)]
  | skipIfByte x kk | skipUnlessByte x kk | loadByte x kk | addByte x kk | random x kk =>
    [("x", x.val), ("kk", kk.toNat)]
  | skipIfEqual x y | copy x y | or x y | and x y | xor x y | add x y | subtract x y
  | subtractFrom x y | skipUnlessEqual x y => [("x", x.val), ("y", y.val)]
  | draw x y n => [("x", x.val), ("y", y.val), ("n", n.val)]
  | shiftRight x | shiftLeft x | skipIfKey x | skipUnlessKey x | readDelay x | awaitKey x
  | setDelay x | setSound x | addToIndex x | pointAtGlyph x | storeDecimal x
  | saveRegisters x | loadRegisters x => [("x", x.val)]

def text (instruction : Instruction) : String :=
  match instruction.operands with
  | [] => instruction.name
  | operands =>
    let fields := operands.map fun (letter, value) => letter ++ ": " ++ toString value
    instruction.name ++ " \x7b " ++ ", ".intercalate fields ++ " \x7d"

end Chip8.Instruction
