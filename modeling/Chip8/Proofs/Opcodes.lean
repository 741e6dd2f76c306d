import Chip8.Machine.Step
import Mathlib.Tactic.Common

/-!
# Opcodes

The table of opcodes, read from the instructions to their numbers. Decoding
reads it the other way: whatever an opcode decodes to is the instruction that
the opcode was written for. So a condition on the decoded instruction is one
on the number that was fetched.
-/
namespace Chip8

/-- An opcode is the number of its four nibbles. -/
theorem toNat_eq_nibbles (opcode : UInt16) :
    opcode.toNat = 0x1000 * (nibble opcode 3).val + 0x100 * (nibble opcode 2).val
      + 0x10 * (nibble opcode 1).val + (nibble opcode 0).val := by
  have bound := opcode.toNat_lt
  simp only [nibble, Nibble.ofNat, Fin.val_ofNat, Nat.shiftRight_eq_div_pow]
  omega

namespace Instruction

/-- The opcode of an instruction. Both shifts have sixteen, told apart by a nibble that they
ignore. -/
def code (ignored : Nibble) : Instruction → Nat
  | scrollDown n => 0x00C0 + n.val
  | clearScreen => 0x00E0
  | returnFromCall => 0x00EE
  | scrollRight => 0x00FB
  | scrollLeft => 0x00FC
  | exit => 0x00FD
  | lowResolution => 0x00FE
  | highResolution => 0x00FF
  | setFrequency => 0x0100
  | softReset => 0x0101
  | setColours => 0x0102
  | jump nnn => 0x1000 + nnn.val
  | call nnn => 0x2000 + nnn.val
  | skipIfByte x kk => 0x3000 + 0x100 * x.val + kk.toNat
  | skipUnlessByte x kk => 0x4000 + 0x100 * x.val + kk.toNat
  | skipIfEqual x y => 0x5000 + 0x100 * x.val + 0x10 * y.val
  | loadByte x kk => 0x6000 + 0x100 * x.val + kk.toNat
  | addByte x kk => 0x7000 + 0x100 * x.val + kk.toNat
  | copy x y => 0x8000 + 0x100 * x.val + 0x10 * y.val
  | or x y => 0x8001 + 0x100 * x.val + 0x10 * y.val
  | and x y => 0x8002 + 0x100 * x.val + 0x10 * y.val
  | xor x y => 0x8003 + 0x100 * x.val + 0x10 * y.val
  | add x y => 0x8004 + 0x100 * x.val + 0x10 * y.val
  | subtract x y => 0x8005 + 0x100 * x.val + 0x10 * y.val
  | shiftRight x => 0x8006 + 0x100 * x.val + 0x10 * ignored.val
  | subtractFrom x y => 0x8007 + 0x100 * x.val + 0x10 * y.val
  | shiftLeft x => 0x800E + 0x100 * x.val + 0x10 * ignored.val
  | skipUnlessEqual x y => 0x9000 + 0x100 * x.val + 0x10 * y.val
  | setIndex nnn => 0xA000 + nnn.val
  | jumpOffset nnn => 0xB000 + nnn.val
  | random x kk => 0xC000 + 0x100 * x.val + kk.toNat
  | draw x y n => 0xD000 + 0x100 * x.val + 0x10 * y.val + n.val
  | skipIfKey x => 0xE09E + 0x100 * x.val
  | skipUnlessKey x => 0xE0A1 + 0x100 * x.val
  | readDelay x => 0xF007 + 0x100 * x.val
  | awaitKey x => 0xF00A + 0x100 * x.val
  | setDelay x => 0xF015 + 0x100 * x.val
  | setSound x => 0xF018 + 0x100 * x.val
  | addToIndex x => 0xF01E + 0x100 * x.val
  | pointAtGlyph x => 0xF029 + 0x100 * x.val
  | storeDecimal x => 0xF033 + 0x100 * x.val
  | saveRegisters x => 0xF055 + 0x100 * x.val
  | loadRegisters x => 0xF065 + 0x100 * x.val

section

variable {family x y n : Nibble} {instruction : Instruction}

theorem code_ofSystem (decoded : ofSystem x y n = some instruction) :
    instruction.code y = 0x100 * x.val + 0x10 * y.val + n.val := by
  -- A row of the table fixes some of the nibbles, and its opcode is the sum of all of them.
  unfold ofSystem at decoded
  split at decoded
  all_goals cases decoded
  all_goals simp only [code]
  all_goals omega

theorem code_ofArithmetic (decoded : ofArithmetic x y n = some instruction) :
    instruction.code y = 0x8000 + 0x100 * x.val + 0x10 * y.val + n.val := by
  unfold ofArithmetic at decoded
  split at decoded
  all_goals cases decoded
  all_goals simp only [code]
  all_goals omega

theorem code_ofKeypad (decoded : ofKeypad x y n = some instruction) :
    instruction.code y = 0xE000 + 0x100 * x.val + 0x10 * y.val + n.val := by
  unfold ofKeypad at decoded
  split at decoded
  all_goals cases decoded
  all_goals simp only [code]
  all_goals omega

theorem code_ofTransfer (decoded : ofTransfer x y n = some instruction) :
    instruction.code y = 0xF000 + 0x100 * x.val + 0x10 * y.val + n.val := by
  unfold ofTransfer at decoded
  split at decoded
  all_goals cases decoded
  all_goals simp only [code]
  all_goals omega

theorem code_ofNibbles (decoded : ofNibbles family x y n = some instruction) :
    instruction.code y = 0x1000 * family.val + 0x100 * x.val + 0x10 * y.val + n.val := by
  have address : (Address.ofNat (256 * x.val + 16 * y.val + n.val)).val =
      256 * x.val + 16 * y.val + n.val := Nat.mod_eq_of_lt (by omega)
  have byte : (UInt8.ofNat (16 * y.val + n.val)).toNat = 16 * y.val + n.val :=
    Nat.mod_eq_of_lt (by omega)
  unfold ofNibbles at decoded
  simp only at decoded
  split at decoded
  case h_1 =>
    rw [code_ofSystem decoded]
    omega
  case h_9 =>
    rw [code_ofArithmetic decoded]
    omega
  case h_15 =>
    rw [code_ofKeypad decoded]
    omega
  -- What is left of the sixteen families is the last.
  case h_16 =>
    have last : family = 0xF := by grind
    rw [last, code_ofTransfer decoded]
    omega
  case h_6 | h_10 =>
    split at decoded
    next zero =>
      cases decoded
      simp only [code, zero]
      omega
    · cases decoded
  -- The other families have no second table: their operands stand in the opcode as they are.
  all_goals
    cases decoded
    simp only [code, address, byte]
    omega

end

variable {opcode : UInt16} {instruction : Instruction}

theorem ofNibbles_of_decode (decoded : decode opcode = .ok instruction) :
    ofNibbles (nibble opcode 3) (nibble opcode 2) (nibble opcode 1) (nibble opcode 0)
      = some instruction := by
  unfold decode at decoded
  split at decoded
  next found =>
    cases decoded
    exact found
  · cases decoded

/-- An opcode is that of the instruction that it decodes to. -/
theorem code_of_decode (decoded : decode opcode = .ok instruction) :
    instruction.code (nibble opcode 1) = opcode.toNat := by
  rw [code_ofNibbles (ofNibbles_of_decode decoded), toNat_eq_nibbles]

/-- Where an instruction has a single opcode, nothing else decodes to it. -/
theorem decode_iff_of_single {only : UInt16} (decoded : decode only = .ok instruction)
    (single : ∀ ignored, instruction.code ignored = only.toNat) :
    decode opcode = .ok instruction ↔ opcode = only := by
  constructor
  · intro other
    rw [← UInt16.toNat_inj, ← code_of_decode other, single]
  · rintro rfl
    exact decoded

theorem decode_exit_iff : decode opcode = .ok .exit ↔ opcode = 0x00FD :=
  decode_iff_of_single rfl fun _ => rfl

theorem decode_setFrequency_iff : decode opcode = .ok .setFrequency ↔ opcode = 0x0100 :=
  decode_iff_of_single rfl fun _ => rfl

theorem decode_softReset_iff : decode opcode = .ok .softReset ↔ opcode = 0x0101 :=
  decode_iff_of_single rfl fun _ => rfl

theorem decode_setColours_iff : decode opcode = .ok .setColours ↔ opcode = 0x0102 :=
  decode_iff_of_single rfl fun _ => rfl

theorem isHostExtension_iff : instruction.isHostExtension = true ↔
    instruction = .setFrequency ∨ instruction = .softReset ∨ instruction = .setColours := by
  cases instruction <;> simp [isHostExtension]

/-- A fault carries the opcode that did not decode. -/
theorem opcode_of_decode {fault : Fault} (refused : decode opcode = .error fault) :
    fault.opcode = opcode := by
  unfold decode at refused
  split at refused
  · cases refused
  · cases refused
    split <;> rfl

end Instruction

namespace Dialect

variable {dialect : Dialect} {opcode : UInt16}

theorem decode_eq_ok_iff {instruction : Instruction} : dialect.decode opcode = .ok instruction ↔
    Instruction.decode opcode = .ok instruction ∧
      (instruction.isHostExtension = true → dialect.hostExtensions = true) := by
  unfold decode
  cases Instruction.decode opcode with
  | error fault => simp
  | ok found =>
    simp only [Except.ok.injEq]
    -- A dialect that forbids extensions refuses them and nothing else.
    split
    next refused =>
      simp only [reduceCtorEq, false_iff, not_and]
      rintro rfl permitted
      exact refused.2 (permitted refused.1)
    next allowed =>
      rw [Except.ok.injEq, iff_self_and]
      rintro rfl extended
      exact Decidable.not_not.mp fun forbidden => allowed ⟨extended, forbidden⟩

/-- What does not address the host is decoded in every dialect. -/
theorem decode_of_plain {instruction : Instruction} (dialect : Dialect)
    (plain : instruction.isHostExtension = false)
    (decoded : Instruction.decode opcode = .ok instruction) :
    dialect.decode opcode = .ok instruction :=
  decode_eq_ok_iff.mpr ⟨decoded, fun extended => by cases plain.symm.trans extended⟩

/-- A fault carries the opcode that was refused, also where it does decode. -/
theorem opcode_of_decode {fault : Fault} (refused : dialect.decode opcode = .error fault) :
    fault.opcode = opcode := by
  unfold decode at refused
  split at refused
  next undecoded =>
    cases refused
    exact Instruction.opcode_of_decode undecoded
  · split at refused
    · cases refused
      rfl
    · cases refused

end Dialect

end Chip8
