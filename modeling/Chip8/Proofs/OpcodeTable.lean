import Chip8.Proofs.Opcodes

/-!
# The table of opcodes, both ways

Each row of the table fixes the digits that select an instruction and leaves
the operands in the others, so an instruction is decoded from what it is
written as. With the way back, decoding is the inverse of writing. Only a shift
has a digit to spare, so only shifts have more than one opcode. What no
instruction is written as is a fault, of one kind where the extended
instruction set would have had an instruction and of another anywhere else.
-/
namespace Chip8

namespace Instruction

/-- The opcode is one that the table has for an instruction. -/
def Written (opcode : UInt16) : Prop :=
  ∃ (instruction : Instruction) (ignored : Nibble), opcode.toNat = instruction.code ignored

/-- Opcodes of the forms Fx30, Fx75 and Fx85. -/
def Extended (opcode : UInt16) : Prop :=
  ∃ x : Nibble, opcode.toNat = 0xF030 + 0x100 * x.val ∨ opcode.toNat = 0xF075 + 0x100 * x.val ∨
    opcode.toNat = 0xF085 + 0x100 * x.val

theorem byte_digits (kk : UInt8) : ∃ y n : Nibble, UInt8.ofNat (16 * y.val + n.val) = kk := by
  have bound := kk.toNat_lt
  have whole : 16 * (kk.toNat / 16) + kk.toNat % 16 = kk.toNat := Nat.div_add_mod _ _
  refine ⟨⟨kk.toNat / 16, by omega⟩, ⟨kk.toNat % 16, by omega⟩, ?_⟩
  rw [whole, UInt8.ofNat_toNat]

theorem address_digits (nnn : Address) :
    ∃ x y n : Nibble, Address.ofNat (256 * x.val + 16 * y.val + n.val) = nnn := by
  have bound := nnn.isLt
  have whole : 256 * (nnn.val / 256) + 16 * (nnn.val / 16 % 16) + nnn.val % 16 = nnn.val := by
    omega
  refine ⟨⟨nnn.val / 256, by omega⟩, ⟨nnn.val / 16 % 16, by omega⟩, ⟨nnn.val % 16, by omega⟩, ?_⟩
  rw [whole]
  exact Fin.ext (Nat.mod_eq_of_lt bound)

/-- Every instruction has digits that select it. A shift is selected whatever its third digit. -/
theorem exists_digits (ignored : Nibble) (instruction : Instruction) :
    ∃ family x y n, ofNibbles family x y n = some instruction ∧
      instruction.code y = instruction.code ignored := by
  -- A family on addresses has three digits for its operand, one on a register and a byte has two.
  have onAddress (family : Nibble) (of : Address → Instruction) (nnn : Address)
      (row : ∀ x y n, ofNibbles family x y n =
        some (of (Address.ofNat (256 * x.val + 16 * y.val + n.val))))
      (single : ∀ y, (of nnn).code y = (of nnn).code ignored) :
      ∃ family x y n, ofNibbles family x y n = some (of nnn) ∧
        (of nnn).code y = (of nnn).code ignored := by
    obtain ⟨x, y, n, same⟩ := address_digits nnn
    exact ⟨family, x, y, n, by rw [row, same], single y⟩
  have onByte (family x : Nibble) (of : UInt8 → Instruction) (kk : UInt8)
      (row : ∀ y n, ofNibbles family x y n = some (of (UInt8.ofNat (16 * y.val + n.val))))
      (single : ∀ y, (of kk).code y = (of kk).code ignored) :
      ∃ family x y n, ofNibbles family x y n = some (of kk) ∧
        (of kk).code y = (of kk).code ignored := by
    obtain ⟨y, n, same⟩ := byte_digits kk
    exact ⟨family, x, y, n, by rw [row, same], single y⟩
  cases instruction with
  | scrollDown n => exact ⟨0x0, 0x0, 0xC, n, rfl, rfl⟩
  | clearScreen => exact ⟨0x0, 0x0, 0xE, 0x0, rfl, rfl⟩
  | returnFromCall => exact ⟨0x0, 0x0, 0xE, 0xE, rfl, rfl⟩
  | scrollRight => exact ⟨0x0, 0x0, 0xF, 0xB, rfl, rfl⟩
  | scrollLeft => exact ⟨0x0, 0x0, 0xF, 0xC, rfl, rfl⟩
  | exit => exact ⟨0x0, 0x0, 0xF, 0xD, rfl, rfl⟩
  | lowResolution => exact ⟨0x0, 0x0, 0xF, 0xE, rfl, rfl⟩
  | highResolution => exact ⟨0x0, 0x0, 0xF, 0xF, rfl, rfl⟩
  | setFrequency => exact ⟨0x0, 0x1, 0x0, 0x0, rfl, rfl⟩
  | softReset => exact ⟨0x0, 0x1, 0x0, 0x1, rfl, rfl⟩
  | setColours => exact ⟨0x0, 0x1, 0x0, 0x2, rfl, rfl⟩
  | jump nnn => exact onAddress 0x1 jump nnn (fun _ _ _ => rfl) fun _ => rfl
  | call nnn => exact onAddress 0x2 call nnn (fun _ _ _ => rfl) fun _ => rfl
  | skipIfByte x kk => exact onByte 0x3 x (skipIfByte x) kk (fun _ _ => rfl) fun _ => rfl
  | skipUnlessByte x kk => exact onByte 0x4 x (skipUnlessByte x) kk (fun _ _ => rfl) fun _ => rfl
  | skipIfEqual x y => exact ⟨0x5, x, y, 0x0, rfl, rfl⟩
  | loadByte x kk => exact onByte 0x6 x (loadByte x) kk (fun _ _ => rfl) fun _ => rfl
  | addByte x kk => exact onByte 0x7 x (addByte x) kk (fun _ _ => rfl) fun _ => rfl
  | copy x y => exact ⟨0x8, x, y, 0x0, rfl, rfl⟩
  | or x y => exact ⟨0x8, x, y, 0x1, rfl, rfl⟩
  | and x y => exact ⟨0x8, x, y, 0x2, rfl, rfl⟩
  | xor x y => exact ⟨0x8, x, y, 0x3, rfl, rfl⟩
  | add x y => exact ⟨0x8, x, y, 0x4, rfl, rfl⟩
  | subtract x y => exact ⟨0x8, x, y, 0x5, rfl, rfl⟩
  | shiftRight x => exact ⟨0x8, x, ignored, 0x6, rfl, rfl⟩
  | subtractFrom x y => exact ⟨0x8, x, y, 0x7, rfl, rfl⟩
  | shiftLeft x => exact ⟨0x8, x, ignored, 0xE, rfl, rfl⟩
  | skipUnlessEqual x y => exact ⟨0x9, x, y, 0x0, rfl, rfl⟩
  | setIndex nnn => exact onAddress 0xA setIndex nnn (fun _ _ _ => rfl) fun _ => rfl
  | jumpOffset nnn => exact onAddress 0xB jumpOffset nnn (fun _ _ _ => rfl) fun _ => rfl
  | random x kk => exact onByte 0xC x (random x) kk (fun _ _ => rfl) fun _ => rfl
  | draw x y n => exact ⟨0xD, x, y, n, rfl, rfl⟩
  | skipIfKey x => exact ⟨0xE, x, 0x9, 0xE, rfl, rfl⟩
  | skipUnlessKey x => exact ⟨0xE, x, 0xA, 0x1, rfl, rfl⟩
  | readDelay x => exact ⟨0xF, x, 0x0, 0x7, rfl, rfl⟩
  | awaitKey x => exact ⟨0xF, x, 0x0, 0xA, rfl, rfl⟩
  | setDelay x => exact ⟨0xF, x, 0x1, 0x5, rfl, rfl⟩
  | setSound x => exact ⟨0xF, x, 0x1, 0x8, rfl, rfl⟩
  | addToIndex x => exact ⟨0xF, x, 0x1, 0xE, rfl, rfl⟩
  | pointAtGlyph x => exact ⟨0xF, x, 0x2, 0x9, rfl, rfl⟩
  | storeDecimal x => exact ⟨0xF, x, 0x3, 0x3, rfl, rfl⟩
  | saveRegisters x => exact ⟨0xF, x, 0x5, 0x5, rfl, rfl⟩
  | loadRegisters x => exact ⟨0xF, x, 0x6, 0x5, rfl, rfl⟩

section

variable {opcode : UInt16} {instruction : Instruction} {ignored : Nibble}

/-- The nibbles of an opcode are the digits that it is made of. -/
theorem ofNibbles_of_toNat (family x y n : Nibble)
    (digits : opcode.toNat = 0x1000 * family.val + 0x100 * x.val + 0x10 * y.val + n.val) :
    ofNibbles (nibble opcode 3) (nibble opcode 2) (nibble opcode 1) (nibble opcode 0)
      = ofNibbles family x y n := by
  have nibbles := toNat_eq_nibbles opcode
  have selector : nibble opcode 3 = family := Fin.ext (by omega)
  have first : nibble opcode 2 = x := Fin.ext (by omega)
  have second : nibble opcode 1 = y := Fin.ext (by omega)
  have third : nibble opcode 0 = n := Fin.ext (by omega)
  rw [selector, first, second, third]

theorem decode_of_code (written : opcode.toNat = instruction.code ignored) :
    decode opcode = .ok instruction := by
  obtain ⟨family, x, y, n, row, same⟩ := exists_digits ignored instruction
  have digits := code_ofNibbles row
  rw [same, ← written] at digits
  rw [decode, ofNibbles_of_toNat family x y n digits, row]

theorem permitted_of_code (dialect : Dialect) (ignored : Nibble)
    (plain : instruction.isHostExtension = false)
    (written : opcode.toNat = instruction.code ignored) :
    dialect.decode opcode = .ok instruction :=
  dialect.decode_of_plain plain (decode_of_code written)

theorem code_lt (instruction : Instruction) (ignored : Nibble) :
    instruction.code ignored < 65536 := by
  obtain ⟨family, x, y, n, row, same⟩ := exists_digits ignored instruction
  have digits := code_ofNibbles row
  omega

theorem written_iff : Written opcode ↔ ∃ instruction, decode opcode = .ok instruction := by
  constructor
  · rintro ⟨instruction, ignored, written⟩
    exact ⟨instruction, decode_of_code written⟩
  · rintro ⟨instruction, decoded⟩
    exact ⟨instruction, _, (code_of_decode decoded).symm⟩

theorem isUnsupported_iff : isUnsupported opcode = true ↔ Extended opcode := by
  have byte (value : UInt8) : opcode.toUInt8 = value ↔ opcode.toNat % 256 = value.toNat := by
    rw [← UInt8.toNat_inj, UInt16.toNat_toUInt8]
  have low : (opcode.toUInt8 = 0x30 ∨ opcode.toUInt8 = 0x75 ∨ opcode.toUInt8 = 0x85) ↔
      opcode.toNat % 256 = 0x30 ∨ opcode.toNat % 256 = 0x75 ∨ opcode.toNat % 256 = 0x85 :=
    or_congr (byte _) (or_congr (byte _) (byte _))
  have nibbles := toNat_eq_nibbles opcode
  rw [isUnsupported, decide_eq_true_iff, low]
  constructor
  · rintro ⟨family, low⟩
    refine ⟨nibble opcode 2, ?_⟩
    rw [family] at nibbles
    omega
  · rintro ⟨x, digits⟩
    refine ⟨Fin.ext ?_, ?_⟩
    all_goals omega

theorem decode_unwritten (unwritten : ¬Written opcode) :
    (Extended opcode → decode opcode = .error (.unsupported opcode)) ∧
      (¬Extended opcode → decode opcode = .error (.invalidOpcode opcode)) := by
  have refused : decode opcode =
      .error (if isUnsupported opcode then .unsupported opcode else .invalidOpcode opcode) := by
    cases found : ofNibbles (nibble opcode 3) (nibble opcode 2) (nibble opcode 1)
        (nibble opcode 0) with
    | none => rw [decode, found]
    | some instruction =>
      have decoded : decode opcode = .ok instruction := by rw [decode, found]
      exact absurd (written_iff.mpr ⟨instruction, decoded⟩) unwritten
  rw [refused]
  exact ⟨fun extended => by rw [if_pos (isUnsupported_iff.mpr extended)],
    fun other => by rw [if_neg (mt isUnsupported_iff.mp other)]⟩

/-- The table has no instruction where the extended one does. -/
theorem Extended.unwritten (extended : Extended opcode) : ¬Written opcode := by
  rw [written_iff]
  rintro ⟨instruction, decoded⟩
  have row := ofNibbles_of_decode decoded
  obtain ⟨x, digits⟩ := extended
  have refused (y n : Nibble) (absent : ofNibbles 0xF x y n = none) :
      opcode.toNat ≠ 0xF000 + 0x100 * x.val + 0x10 * y.val + n.val := by
    intro digits
    rw [ofNibbles_of_toNat 0xF x y n digits, absent] at row
    cases row
  rcases digits with digits | digits | digits
  · exact refused 0x3 0x0 rfl (by omega)
  · exact refused 0x7 0x5 rfl (by omega)
  · exact refused 0x8 0x5 rfl (by omega)

/-- Only a shift is decoded from two opcodes, which then differ in the digit that it ignores. -/
theorem shift_of_two {one other : UInt16} (differ : one ≠ other)
    (decoded : decode one = .ok instruction) (decoded' : decode other = .ok instruction) :
    ∃ x y y' : Nibble, y ≠ y' ∧
      (one.toNat = 0x8006 + 0x100 * x.val + 0x10 * y.val ∧
          other.toNat = 0x8006 + 0x100 * x.val + 0x10 * y'.val ∨
        one.toNat = 0x800E + 0x100 * x.val + 0x10 * y.val ∧
          other.toNat = 0x800E + 0x100 * x.val + 0x10 * y'.val) := by
  have written := code_of_decode decoded
  have written' := code_of_decode decoded'
  have apart : one.toNat ≠ other.toNat := mt UInt16.toNat_inj.mp differ
  have ignored : nibble one 1 ≠ nibble other 1 := fun same =>
    apart (by rw [← written, ← written', same])
  cases instruction with
  | shiftRight x => exact ⟨x, _, _, ignored, Or.inl ⟨written.symm, written'.symm⟩⟩
  | shiftLeft x => exact ⟨x, _, _, ignored, Or.inr ⟨written.symm, written'.symm⟩⟩
  -- Any other instruction has a code that does not look at the digit.
  | _ => exact absurd (written.symm.trans written') apart

theorem isHostExtension_iff_decode : instruction.isHostExtension = true ↔
    decode 0x0100 = .ok instruction ∨ decode 0x0101 = .ok instruction ∨
      decode 0x0102 = .ok instruction := by
  have frequency : decode 0x0100 = .ok .setFrequency := rfl
  have reset : decode 0x0101 = .ok .softReset := rfl
  have colours : decode 0x0102 = .ok .setColours := rfl
  rw [isHostExtension_iff, frequency, reset, colours]
  simp only [Except.ok.injEq, eq_comm]

end

/-- Decoding is the inverse of the table. What the table has for an instruction decodes to it and
nothing else does; what the table does not have is a fault that carries the opcode. -/
theorem decode_inverts_table :
    (∀ (instruction : Instruction) (ignored : Nibble), instruction.code ignored < 65536 ∧
      decode (UInt16.ofNat (instruction.code ignored)) = .ok instruction) ∧
    (∀ opcode instruction, decode opcode = .ok instruction →
      opcode.toNat = instruction.code (nibble opcode 1)) ∧
    (∀ one other instruction, one ≠ other → decode one = .ok instruction →
      decode other = .ok instruction →
      ∃ x y y' : Nibble, y ≠ y' ∧
        (one.toNat = 0x8006 + 0x100 * x.val + 0x10 * y.val ∧
            other.toNat = 0x8006 + 0x100 * x.val + 0x10 * y'.val ∨
          one.toNat = 0x800E + 0x100 * x.val + 0x10 * y.val ∧
            other.toNat = 0x800E + 0x100 * x.val + 0x10 * y'.val)) ∧
    (∀ opcode, ¬Written opcode →
      (Extended opcode → decode opcode = .error (.unsupported opcode)) ∧
        (¬Extended opcode → decode opcode = .error (.invalidOpcode opcode))) ∧
    (∀ opcode, Extended opcode → ¬Written opcode) ∧
    ∀ instruction : Instruction, instruction.isHostExtension = true ↔
      decode 0x0100 = .ok instruction ∨ decode 0x0101 = .ok instruction ∨
        decode 0x0102 = .ok instruction := by
  refine ⟨fun instruction ignored => ?_, fun opcode instruction decoded => ?_,
    fun one other instruction => shift_of_two, fun opcode => decode_unwritten,
    fun opcode => Extended.unwritten, fun instruction => isHostExtension_iff_decode⟩
  · have bound := instruction.code_lt ignored
    exact ⟨bound, decode_of_code (UInt16.toNat_ofNat_of_lt bound)⟩
  · exact (code_of_decode decoded).symm

/-- Two opcodes of one shift, and one that only the extended set has. -/
theorem decode_inverts_table_shift :
    decode 0x8A16 = .ok (.shiftRight 0xA) ∧ decode 0x8AF6 = .ok (.shiftRight 0xA) ∧
      Extended 0xF130 ∧ decode 0xF130 = .error (.unsupported 0xF130) := by
  obtain ⟨decodes, -, -, refuses, unwritten, -⟩ := decode_inverts_table
  have extended : Extended 0xF130 := ⟨1, Or.inl rfl⟩
  exact ⟨(decodes (.shiftRight 0xA) 1).2, (decodes (.shiftRight 0xA) 0xF).2, extended,
    (refuses _ (unwritten _ extended)).1 extended⟩

end Instruction

end Chip8
