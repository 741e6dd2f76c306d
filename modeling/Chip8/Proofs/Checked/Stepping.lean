import Chip8.Proofs.Checked.Loops

/-!
# Checked steps

Every instruction, and with it every step, succeeds on the image of a machine
and does to it what the machine itself does.
-/
namespace Chip8.Checked

namespace Machine

variable (machine : Chip8.Machine) (answers : Answers)

/-- A whole byte moved by one place, and its highest bit. -/
theorem shifted_left (byte : UInt8) :
    UInt8.ofNat (byte.toNat <<< 1 % 1 <<< 8) = byte <<< 1 ∧
      (byte.toNat >>> 7 = 1 ↔ 128 ≤ byte) := by
  constructor
  · apply UInt8.toNat_inj.mp
    rw [UInt8.toNat_ofNat', UInt8.toNat_shiftLeft]
    exact Nat.mod_mod _ _
  · have bound := byte.toNat_lt
    rw [UInt8.le_iff_toNat_le, Nat.shiftRight_eq_div_pow]
    show _ ↔ 128 ≤ byte.toNat
    omega

theorem shifted_right (byte : UInt8) : UInt8.ofNat (byte.toNat >>> 1) = byte >>> 1 := by
  apply UInt8.toNat_inj.mp
  have bound := byte.toNat_lt
  rw [UInt8.toNat_ofNat', UInt8.toNat_shiftRight, Nat.shiftRight_eq_div_pow]
  show byte.toNat / 2 % 256 = byte.toNat >>> 1
  rw [Nat.shiftRight_eq_div_pow]
  omega

/-- A byte cut to a key. -/
theorem masked_key (byte : UInt8) : byte &&& 0xF = UInt8.ofNat (Nibble.ofNat byte.toNat).val := by
  apply UInt8.toNat_inj.mp
  rw [UInt8.toNat_and, byte_of_nibble]
  exact Nat.and_two_pow_sub_one_eq_mod byte.toNat 4

theorem execute_of (instruction : Instruction) :
    (of machine).execute answers instruction =
      some (.of (machine.execute answers instruction)) := by
  have get (x : Nibble) : getRegister (of machine).registers x.val =
      some (machine.registers.get x) := getRegister_of machine.registers x
  have set (x : Nibble) (value : UInt8) : setRegister (of machine).registers x.val value =
      some (machine.registers.set x value) := setRegister_of machine.registers x value
  have display : (of machine).display = .of machine.plane := rfl
  have stack : (of machine).stack = .of machine.stack := rfl
  have counter : (of machine).counter = machine.counter := rfl
  cases instruction with
  | scrollDown | clearScreen | scrollRight | scrollLeft | setColours =>
    simp only [execute, display, get, Display.scrollDown_of, Display.clear_of,
      Display.scrollRight_of, Display.scrollLeft_of, Display.setColours_of,
      Option.bind_eq_bind, Option.bind_some]
    rfl
  | returnFromCall | call =>
    simp only [execute, stack, counter, Stack.pop_of, Stack.push_of, Option.bind_eq_bind,
      Option.bind_some]
    rfl
  | exit | jump | setIndex => rfl
  | lowResolution => exact switchTo_of machine .low
  | highResolution => exact switchTo_of machine .high
  | setFrequency =>
    have wish : mul doubleLimit (machine.registers.get 0).toNat 10 =
        some ((machine.registers.get 0).toNat * 10) := by
      have := (machine.registers.get 0).toNat_lt
      apply mul_eq
      show _ < 4294967296
      omega
    simp only [execute, get, wish, Option.bind_eq_bind, Option.bind_some]
    rfl
  | softReset =>
    simp only [execute, reset_of, Option.bind_eq_bind, Option.bind_some]
    rfl
  | skipIfByte | skipUnlessByte | skipIfEqual | skipUnlessEqual =>
    simp only [execute, get, skipIf_of, Option.bind_eq_bind, Option.bind_some]
    rfl
  | loadByte | addByte | copy | or | and | xor | readDelay =>
    simp only [execute, get, setTo_of, Option.bind_eq_bind, Option.bind_some]
    rfl
  | add | subtract | subtractFrom =>
    simp only [execute, get, setWithFlag_of, Option.bind_eq_bind, Option.bind_some]
    rfl
  | shiftRight x =>
    simp only [execute, get, shiftRight_eq (by decide : 1 < 8), shifted_right, setWithFlag_of,
      Option.bind_eq_bind, Option.bind_some]
    rfl
  | shiftLeft x =>
    simp only [execute, get, shiftRight_eq (by decide : 7 < 8), shiftLeft_eq (by decide : 1 < 8),
      shifted_left, setWithFlag_of, Option.bind_eq_bind, Option.bind_some]
    rfl
  | jumpOffset nnn =>
    have fits : nnn.val + (machine.registers.get 0).toNat < 65536 := by
      have := (machine.registers.get 0).toNat_lt
      omega
    have counter : UInt16.ofNat (nnn.val + (machine.registers.get 0).toNat) =
        nnn.toWord + (machine.registers.get 0).toUInt16 := by
      apply UInt16.toNat_inj.mp
      rw [UInt16.toNat_ofNat', UInt16.toNat_add, UInt8.toNat_toUInt16, Address.toWord,
        UInt16.toNat_ofNat', Nat.mod_add_mod]
    simp only [execute, get, add_word fits, counter, Option.bind_eq_bind, Option.bind_some]
    rfl
  | random x kk =>
    simp only [execute, set, Option.bind_eq_bind, Option.bind_some]
    rfl
  | draw x y n => exact drawSprite_of machine x y n
  | skipIfKey | skipUnlessKey =>
    simp only [execute, get, masked_key, nibble_of_byte, skipIf_of, Option.bind_eq_bind,
      Option.bind_some]
    rfl
  | awaitKey x => exact awaitKey_of machine answers.held x
  | setDelay | addToIndex =>
    simp only [execute, get, Option.bind_eq_bind, Option.bind_some]
    rfl
  | setSound x =>
    simp only [execute, get, setSound_of, Option.bind_eq_bind, Option.bind_some]
    rfl
  | pointAtGlyph x =>
    have fits : (machine.registers.get x).toNat * glyphSize < 65536 := by
      have := (machine.registers.get x).toNat_lt
      show _ * 5 < _
      omega
    simp only [execute, get, mul_word fits, Option.bind_eq_bind, Option.bind_some]
    rfl
  | storeDecimal x =>
    simp only [execute, get, storeDecimal_of, Option.bind_eq_bind, Option.bind_some]
    rfl
  | saveRegisters x => exact saveRegisters_of machine x
  | loadRegisters x => exact loadRegisters_of machine x

theorem tick_of (now : Instant) : (of machine).tick now =
    some (of (machine.tick now).1, asked (machine.tick now).2) := by
  have gate : (of machine).gate = machine.gate := rfl
  have registers : (of machine).registers = machine.registers := rfl
  rw [asked, Chip8.Machine.tick_calls, Chip8.Machine.tick_eq]
  simp only [tick, gate, registers, countSound_of, Registers.countSound_countDelay,
    Option.bind_eq_bind, Option.bind_some, decide_eq_true_iff]
  cases (machine.gate.poll now).2 with
  | false => rfl
  | true =>
    by_cases last : machine.registers.sound = 1
    · simp only [last, if_true, and_self]
      rfl
    · simp only [last, if_true, if_false, and_false]
      rfl

/-- What follows the decoding of a step. -/
theorem obey_of (instruction : Instruction) : (do
    let turn ← (of machine.advanced).execute answers instruction
    match turn.outcome with
    | .exited => return Except.ok turn
    | .running =>
      let ticked ← turn.machine.tick answers.pollClock
      return .ok { machine := ticked.1, calls := turn.calls ++ ticked.2 }) =
    some (Except.ok (Turn.of (machine.obey answers instruction)) : Except Fault Turn) := by
  -- Whether the timers get their chance depends on the instruction alone.
  have outcome := Chip8.Machine.execute_outcome answers machine.advanced instruction
  simp only [execute_of, Option.bind_eq_bind, Option.bind_some, Turn.of, outcome]
  by_cases leaves : instruction = .exit
  · rw [leaves]
    rfl
  · simp only [leaves, if_false, tick_of, Option.bind_some,
      Chip8.Machine.obey_running answers machine instruction leaves, asked, calls_note,
      calls_append, List.map_append]
    rfl

theorem step_of : (of machine).step answers = some ((machine.step answers).map Turn.of) := by
  have opcode : readWord (of machine).memory (of machine).counter = some machine.fetch :=
    readWord_of machine.memory machine.counter
  have dialect : (of machine).dialect = machine.dialect := rfl
  rw [step, opcode]
  simp only [decode_of, dialect, Option.bind_eq_bind, Option.bind_some]
  -- Both decode before the dialect has its say.
  cases plain : Instruction.decode machine.fetch with
  | error fault =>
    have refused : machine.dialect.decode machine.fetch = .error fault := by
      rw [Dialect.decode, plain]
    rw [Chip8.Machine.step_refused answers refused]
    rfl
  | ok instruction =>
    by_cases forbidden : instruction.isHostExtension ∧ ¬machine.dialect.hostExtensions
    · have refused : machine.dialect.decode machine.fetch =
          .error (.invalidOpcode machine.fetch) := by
        rw [Dialect.decode, plain]
        exact if_pos forbidden
      rw [Chip8.Machine.step_refused answers refused]
      simp only [if_pos forbidden]
      rfl
    · have decoded : machine.dialect.decode machine.fetch = .ok instruction := by
        rw [Dialect.decode, plain]
        exact if_neg forbidden
      rw [Chip8.Machine.step_decoded answers decoded]
      simp only [if_neg forbidden]
      exact obey_of machine answers instruction

end Machine

end Chip8.Checked
