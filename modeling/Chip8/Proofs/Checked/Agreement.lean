import Chip8.Proofs.Checked.Machine

/-!
# Agreement

Every operation of the checked machine succeeds on the image of a machine, and
does to it what the machine itself does.
-/
namespace Chip8.Checked

theorem byte_of_nibble (nibble : Nibble) : (UInt8.ofNat nibble.val).toNat = nibble.val := by
  revert nibble
  decide

/-- A nibble is found again in the byte that holds it. -/
theorem nibble_of_byte (nibble : Nibble) :
    Nibble.ofNat (UInt8.ofNat nibble.val).toNat = nibble := by
  rw [byte_of_nibble]
  exact Fin.ext (Nat.mod_eq_of_lt nibble.isLt)

theorem masked_nibble (nibble : Nibble) : nibble.val &&& 0xF = nibble.val := by
  revert nibble
  decide

namespace Stack

def of (stack : CallStack) : Stack where
  slots := stack.slots
  pointer := UInt8.ofNat stack.pointer.val

variable (stack : CallStack)

theorem push_of (address : UInt16) :
    (of stack).push address = some (of (stack.push address)) := by
  -- The mask leads from each of the sixteen pointers to the next one, and round.
  have pointer : UInt8.ofNat (stack.pointer.val + 1) &&& 0xF =
      UInt8.ofNat (stack.pointer + 1).val := by
    generalize stack.pointer = pointer
    revert pointer
    decide
  have room : stack.pointer.val + 1 < byteLimit :=
    Nat.lt_of_le_of_lt stack.pointer.isLt (by decide)
  simp only [push, of, byte_of_nibble, put_eq _ _ stack.pointer.isLt, add_eq room, pointer,
    Option.bind_eq_bind, Option.bind_some]
  rfl

/-- Nothing but the mask keeps the pointer to its four bits: past them there is no slot. -/
example : Stack.push { pointer := 16 } 0x200 = none := by decide

theorem pop_of :
    (of stack).pop = some (stack.pop.1, of stack.pop.2) := by
  have pointer : (UInt8.ofNat stack.pointer.val - 1) &&& 0xF =
      UInt8.ofNat (stack.pointer - 1).val := by
    generalize stack.pointer = pointer
    revert pointer
    decide
  simp only [pop, of, pointer, byte_of_nibble, Vector.getElem?_eq_getElem (stack.pointer - 1).isLt,
    Option.bind_eq_bind, Option.bind_some]
  rfl

end Stack

section

variable (opcode : UInt16)

theorem digit_of {number place : Nat} (digits : number + place = 3) :
    digit opcode number = some (nibble opcode place) := by
  have few : number < 4 := by omega
  have fours : 4 * number < byteLimit := by
    show _ < 256
    omega
  -- Digits are numbered from the left here and from the right there.
  have places : 12 - 4 * number = 4 * place := by omega
  have cut (shifted : Nat) : Nibble.ofNat (shifted &&& 0xF) = Nibble.ofNat shifted := by
    apply Fin.ext
    show (shifted &&& 15) % 16 = shifted % 16
    rw [Nat.and_two_pow_sub_one_eq_mod shifted 4, Nat.mod_mod]
  simp only [digit, guard, few, if_true, mul_eq fours, sub_eq (by omega : 4 * number ≤ 12), cut,
    places, shiftRight_eq (by omega : 4 * place < 16), Option.bind_eq_bind, Option.bind_some]
  rfl

theorem decode_of : decode opcode = some (Instruction.decode opcode) := by
  have zero : digit opcode 0 = some (nibble opcode 3) := digit_of opcode rfl
  have one : digit opcode 1 = some (nibble opcode 2) := digit_of opcode rfl
  have two : digit opcode 2 = some (nibble opcode 1) := digit_of opcode rfl
  have three : digit opcode 3 = some (nibble opcode 0) := digit_of opcode rfl
  simp only [decode, zero, one, two, three, Option.bind_eq_bind, Option.bind_some]
  rfl

end

section

variable (memory : Memory)

theorem masked_address (address : UInt16) :
    (address &&& 0x0FFF).toNat = (Memory.cell address).val := by
  rw [UInt16.toNat_and]
  exact Nat.and_two_pow_sub_one_eq_mod address.toNat 12

theorem readByte_of (address : UInt16) :
    readByte memory address = some (memory.read address) := by
  rw [readByte, masked_address, Vector.getElem?_eq_getElem (Memory.cell address).isLt]
  rfl

theorem writeByte_of (address : UInt16) (value : UInt8) :
    writeByte memory address value = some (memory.write address value) := by
  rw [writeByte, masked_address, put_eq _ _ (Memory.cell address).isLt]
  rfl

theorem readWord_of (address : UInt16) :
    readWord memory address = some (memory.readWord address) := by
  have high (byte : UInt8) : UInt16.ofNat (byte.toNat <<< 8 % 1 <<< 16) = byte.toUInt16 <<< 8 := by
    apply UInt16.toNat_inj.mp
    rw [UInt16.toNat_ofNat', UInt16.toNat_shiftLeft, UInt8.toNat_toUInt16]
    exact Nat.mod_mod _ _
  simp only [readWord, readByte_of, shiftLeft_eq (by decide : 8 < 16), high, Option.bind_eq_bind,
    Option.bind_some]
  rfl

theorem blank_eq : blank = some Memory.blank := by
  have copies : copyFrom (Vector.replicate memorySize (0 : UInt8)) 0 80 font.toArray = _ :=
    copyFrom_eq _ (by decide) rfl
  simp only [blank, copies, Option.bind_eq_bind, Option.bind_some]
  apply congrArg some
  apply congrArg Memory.mk
  apply Vector.ext
  intro place inside
  simp only [overlaid, Vector.getElem_mapIdx, Nat.zero_le, if_true, Nat.sub_zero,
    Vector.getElem?_toArray]

theorem load_of (rom : Rom) : load memory rom = some (memory.load rom) := by
  have room : sub memorySize programStart = some programRoom := sub_eq (by decide)
  have fits : min rom.bytes.size programRoom ≤ programRoom := Nat.min_le_right _ _
  have size : (rom.bytes.extract 0 (min rom.bytes.size programRoom)).size =
      min rom.bytes.size programRoom := by
    rw [Array.size_extract, Nat.sub_zero, Nat.min_eq_left (Nat.min_le_left _ _)]
  have copies := copyFrom_eq memory.cells (Nat.add_le_of_le_sub' (by decide) fits) size
  simp only [load, room, guard, Nat.min_le_left, fits, and_self, if_true, copies,
    Option.bind_eq_bind, Option.bind_some]
  apply congrArg some
  apply congrArg Memory.mk
  apply Vector.ext
  intro place inside
  simp only [overlaid, Vector.getElem_mapIdx, Rom.overlay, Array.getElem?_extract, Nat.sub_zero,
    Nat.zero_add, Nat.min_eq_left (Nat.min_le_left rom.bytes.size programRoom)]
  by_cases above : programStart ≤ place
  · -- What an image has beyond the room would lie beyond the memory.
    have within : place - programStart < programRoom := Nat.sub_lt_sub_right above inside
    by_cases image : place - programStart < rom.bytes.size
    · rw [if_pos above, if_pos above, if_pos (Nat.lt_min.mpr ⟨image, within⟩)]
    · rw [if_pos above, if_pos above, if_neg fun both => image (Nat.lt_min.mp both).1,
        Array.getElem?_eq_none (Nat.not_lt.mp image)]
  · rw [if_neg above, if_neg above]

end

section

variable (registers : Registers)

theorem getRegister_of (x : Nibble) : getRegister registers x.val = some (registers.get x) := by
  rw [getRegister, masked_nibble, Vector.getElem?_eq_getElem x.isLt]
  rfl

theorem setRegister_of (x : Nibble) (value : UInt8) :
    setRegister registers x.val value = some (registers.set x value) := by
  rw [setRegister, masked_nibble, put_eq _ _ x.isLt]
  rfl

theorem setFlag_of (value : Bool) : setFlag registers value = some (registers.setFlag value) :=
  setRegister_of registers 0xF _

theorem countSound_of : countSound registers = some registers.countSound := by
  by_cases silent : registers.sound = 0
  · rw [countSound, Registers.countSound, silent, if_pos rfl]
    rfl
  · have sounds : 0 < registers.sound := UInt8.pos_iff_ne_zero.mpr silent
    have positive : 1 ≤ registers.sound.toNat := UInt8.lt_iff_toNat_lt.mp sounds
    -- A count that is positive neither wraps nor leaves its range.
    have counted : UInt8.ofNat (registers.sound.toNat - 1) = registers.sound - 1 := by
      have least : 1 ≤ registers.sound := UInt8.le_iff_toNat_le.mpr positive
      apply UInt8.toNat_inj.mp
      rw [UInt8.toNat_ofNat', UInt8.toNat_sub_of_le _ _ least]
      have := registers.sound.toNat_lt
      exact Nat.mod_eq_of_lt (by omega)
    have last : (registers.sound.toNat - 1 = 0) = (registers.sound = 1) := by
      rw [eq_iff_iff, ← UInt8.toNat_inj]
      show _ ↔ registers.sound.toNat = 1
      omega
    simp only [countSound, Registers.countSound, silent, sounds, if_true, if_false,
      sub_eq positive, counted, last, Option.bind_eq_bind, Option.bind_some]
    rfl

end

/-- A call with its numbers made plain. -/
def Call.of : Chip8.Call → Call
  | .takeWords => .takeWords
  | .loadProgram room _ => .loadProgram room
  | .draw cells => .draw cells
  | .askKey key => .askKey (UInt8.ofNat key.val)
  | .beginTone => .beginTone
  | .endTone => .endTone
  | .setFrequency hertz => .setFrequency hertz
  | .resized resolution => .resized resolution.width

/-- What events ask of the host. -/
def asked (events : List Event) : List Call := (calls events).map Call.of

theorem asked_append (early late : List Event) :
    asked (early ++ late) = asked early ++ asked late := by
  rw [asked, calls_append, List.map_append]
  rfl

/-- A machine with its numbers made plain. -/
def Machine.of (machine : Chip8.Machine) : Machine where
  counter := machine.counter
  memory := machine.memory
  registers := machine.registers
  stack := .of machine.stack
  display := .of machine.plane
  words := machine.words
  gate := machine.gate
  dialect := machine.dialect

def Turn.of (turn : Chip8.Turn) : Turn where
  machine := .of turn.machine
  calls := asked turn.events
  outcome := turn.outcome

namespace Machine

variable (machine : Chip8.Machine)

theorem fresh_of (dialect : Dialect) (answers : Answers) :
    fresh dialect answers = some (.of (.fresh dialect answers)) := by
  simp only [fresh, Display.new_eq, blank_eq, load_of, Option.bind_eq_bind, Option.bind_some]
  rfl

theorem programRoom_eq : sub memorySize programStart = some 3584 := sub_eq (by decide)

theorem asked_loading (rom : Rom) : asked (Chip8.Machine.loading rom) = [.loadProgram 3584] := by
  rw [asked, Chip8.Machine.loading_calls]
  rfl

theorem boot_of (dialect : Dialect) (answers : Answers) :
    boot dialect answers = some (.of (.fresh dialect answers),
      asked (Chip8.Machine.boot dialect answers).2) := by
  have calls : asked (Chip8.Machine.boot dialect answers).2 =
      .takeWords :: asked (Chip8.Machine.loading answers.rom) := rfl
  rw [calls, asked_loading]
  simp only [boot, fresh_of, programRoom_eq, Option.bind_eq_bind, Option.bind_some]
  rfl

theorem reset_of (answers : Answers) : (of machine).reset answers =
    some (.of (machine.reset answers).1, asked (machine.reset answers).2) := by
  have narrow : (of machine).display.width = 64 ↔ machine.plane.resolution = .low := by
    show machine.plane.resolution.width = 64 ↔ _
    cases machine.plane.resolution <;> decide
  have calls : asked (machine.reset answers).2 =
      .takeWords :: ((if machine.registers.sound = 0 then [] else [.endTone])
        ++ (if machine.plane.resolution = .low then [] else [.resized 64])
        ++ [.loadProgram 3584]) := by
    rw [asked, Chip8.Machine.reset_calls]
    split <;> split <;> rfl
  rw [calls]
  simp only [reset, narrow, Display.new_eq, blank_eq, load_of, programRoom_eq,
    Option.bind_eq_bind, Option.bind_some]
  rfl

theorem refresh_of : (of machine).refresh =
    some (.of machine.refresh.1, asked machine.refresh.2) := by
  rw [asked, Chip8.Machine.refresh_calls, Chip8.Machine.refresh_eq]
  have pixels : (of machine).display.pixels = some machine.plane.visible :=
    Display.pixels_of machine.plane
  have dirty : (of machine).display.dirty = machine.plane.dirty := rfl
  rw [refresh, pixels, dirty]
  cases changed : machine.plane.dirty with
  | true => rfl
  | false =>
    -- A clean plane is not shown again, and would not change if it were.
    have clean : machine.plane.shown = machine.plane := by rw [Plane.shown, ← changed]
    rw [clean]
    rfl

theorem skipIf_of (condition : Bool) :
    (of machine).skipIf condition = of (machine.skipIf condition) := by
  cases condition <;> rfl

theorem setTo_of (x : Nibble) (value : UInt8) :
    (of machine).setTo x.val value = some (.of { machine := machine.set x value }) := by
  have set : setRegister (of machine).registers x.val value =
      some (machine.registers.set x value) := setRegister_of machine.registers x value
  rw [setTo, set]
  rfl

theorem setWithFlag_of (x : Nibble) (value : UInt8) (flag : Bool) :
    (of machine).setWithFlag x.val value flag =
      some (.of { machine := machine.setWithFlag x value flag }) := by
  have set : setRegister (of machine).registers x.val value =
      some (machine.registers.set x value) := setRegister_of machine.registers x value
  rw [setWithFlag, set]
  simp only [Option.bind_eq_bind, Option.bind_some, setFlag_of]
  rfl

theorem switchTo_of (resolution : Resolution) :
    (of machine).switchTo resolution.width = some (.of (machine.switchTo resolution)) := by
  have resized : (of machine).display.resize resolution.width =
      some (.of (machine.plane.resize resolution)) := Display.resize_of machine.plane resolution
  rw [switchTo, resized]
  rfl

theorem setSound_of (value : UInt8) :
    (of machine).setSound value = .of (machine.setSound value) := by
  have calls : asked (machine.setSound value).events = ((of machine).setSound value).calls := by
    rw [asked, Chip8.Machine.setSound_calls]
    show _ = if machine.registers.sound = 0 ∧ value ≠ 0 then [Call.beginTone]
      else if machine.registers.sound ≠ 0 ∧ value = 0 then [Call.endTone] else []
    split
    · rfl
    · split <;> rfl
  rw [Turn.of, calls]
  rfl

theorem storeDecimal_of (value : UInt8) : (of machine).storeDecimal value =
    some (.of { machine := machine.store [value / 100, value / 10 % 10, value % 10] }) := by
  have next : machine.registers.index + 1 + 1 = machine.registers.index + 2 :=
    UInt16.add_assoc _ _ _
  have memory : (of machine).memory = machine.memory := rfl
  have index : (of machine).registers.index = machine.registers.index := rfl
  simp only [storeDecimal, memory, index, writeByte_of, Option.bind_eq_bind, Option.bind_some]
  rw [Chip8.Machine.store, Memory.writeFrom, Memory.writeFrom, Memory.writeFrom, Memory.writeFrom,
    next]
  rfl

end Machine

end Chip8.Checked
