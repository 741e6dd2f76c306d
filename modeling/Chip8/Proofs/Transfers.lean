import Chip8.Proofs.Footprint
import Chip8.Proofs.OpcodeTable

/-!
# Transfers between registers and memory

Registers are saved to memory from the index on and loaded from there. The
addresses run past the end of memory, and past the last 16 bit word, to its
start. As no more than sixteen cells take part they are all different even so,
and each holds in the end what was written there. So what was saved is what is
loaded, and saving what was loaded changes nothing. The decimal digits of a
register are three such cells.
-/
namespace Chip8

namespace Memory

variable (memory : Memory) (address : UInt16)

/-- A cell further on, whether or not the address wrapped on the way. -/
theorem cell_add (offset : Nat) :
    cell (address + UInt16.ofNat offset) = Address.ofNat (address.toNat + offset) := by
  apply Fin.ext
  simp only [cell, Address.ofNat, Fin.val_ofNat, UInt16.toNat_add, UInt16.toNat_ofNat']
  omega

theorem cell_succ (offset : Nat) : Address.ofNat ((address + 1).toNat + offset) =
    Address.ofNat (address.toNat + (offset + 1)) := by
  have next : (address + 1).toNat = (address.toNat + 1) % 65536 := UInt16.toNat_add address 1
  apply Fin.ext
  simp only [Address.ofNat, Fin.val_ofNat, next]
  omega

/-- As long as they do not run into their own start, bytes are found where they were written. -/
theorem writeFrom_within (bytes : List UInt8) (few : bytes.length ≤ 4096) {offset : Nat}
    (within : offset < bytes.length) :
    (memory.writeFrom address bytes).cells.get (Address.ofNat (address.toNat + offset)) =
      bytes[offset] := by
  induction bytes generalizing memory address offset with
  | nil => exact absurd within (Nat.not_lt_zero offset)
  | cons byte rest ih =>
    rw [List.length_cons] at few within
    rw [writeFrom]
    cases offset with
    | zero =>
      -- The bytes that follow come round to the first cell only if memory cannot hold them all.
      have elsewhere : ∀ offset < rest.length, (Address.ofNat (address.toNat + 0)).val ≠
          ((address + 1).toNat + offset) % 4096 := by
        intro offset within
        have next : (address + 1).toNat = (address.toNat + 1) % 65536 := UInt16.toNat_add address 1
        simp only [Address.ofNat, Fin.val_ofNat, next]
        omega
      rw [writeFrom_elsewhere _ _ _ elsewhere]
      exact Vector.getElem_set_self _
    | succ offset =>
      rw [← cell_succ]
      exact ih _ _ (Nat.le_of_succ_le few) (Nat.lt_of_succ_lt_succ within)

/-- An opcode is fetched where its bytes were written, also across the end of memory. -/
theorem readWord_writeFrom (high low : UInt8) :
    (memory.writeFrom address [high, low]).readWord address =
      high.toUInt16 <<< 8 ||| low.toUInt16 := by
  have written := @writeFrom_within memory address [high, low] (by simp)
  have first : (memory.writeFrom address [high, low]).read address = high :=
    written (by decide : 0 < 2)
  have second : (memory.writeFrom address [high, low]).read (address + 1) = low :=
    (congrArg _ (cell_add address 1)).trans (written (by decide : 1 < 2))
  rw [readWord, first, second]

/-- Bytes that are already there are written without effect. -/
theorem writeFrom_same (bytes : List UInt8)
    (there : ∀ (offset : Nat) (within : offset < bytes.length),
      memory.cells.get (Address.ofNat (address.toNat + offset)) = bytes[offset]) :
    memory.writeFrom address bytes = memory := by
  induction bytes generalizing address with
  | nil => rfl
  | cons byte rest ih =>
    have first : memory.write address byte = memory := by
      have here := there 0 (Nat.zero_lt_succ _)
      rw [List.getElem_cons_zero] at here
      rw [write, ← here]
      exact congrArg mk (Vector.set_getElem_self _)
    rw [writeFrom, first]
    apply ih
    intro offset within
    rw [cell_succ]
    exact there (offset + 1) (Nat.succ_lt_succ within)

end Memory

/-- Three digits of a byte, from the highest. -/
theorem decimal_digits (value : UInt8) :
    (value / 100).toNat ≤ 2 ∧ (value / 10 % 10).toNat ≤ 9 ∧ (value % 10).toNat ≤ 9 ∧
      100 * (value / 100).toNat + 10 * (value / 10 % 10).toNat + (value % 10).toNat =
        value.toNat := by
  have bound := value.toNat_lt
  have hundreds : (value / 100).toNat = value.toNat / 100 := UInt8.toNat_div value 100
  have tens : (value / 10 % 10).toNat = value.toNat / 10 % 10 := by
    rw [UInt8.toNat_mod, UInt8.toNat_div]
    rfl
  have units : (value % 10).toNat = value.toNat % 10 := UInt8.toNat_mod value 10
  omega

namespace Machine

section

variable (machine : Machine) (answers : Answers) (x : Nibble)

/-- The byte that lies so far from the index, around the end of memory. -/
def atIndex (offset : Nat) : UInt8 :=
  machine.memory.cells.get (Address.ofNat (machine.registers.index.toNat + offset))

theorem obey_save :
    let saved := (machine.obey answers (.saveRegisters x)).machine
    saved.memory = machine.memory.writeFrom machine.registers.index
        (machine.registers.v.toList.take (x.val + 1)) ∧
      saved.registers.index = machine.registers.index ∧
      saved.registers.v = machine.registers.v := by
  have same := obey_same answers machine (.saveRegisters x) (by simp)
  exact ⟨same.memory, same.index, same.v⟩

theorem obey_load :
    let loaded := (machine.obey answers (.loadRegisters x)).machine
    loaded.memory = machine.memory ∧ loaded.registers.index = machine.registers.index ∧
      ∀ place, loaded.registers.get place =
        if place ≤ x then machine.atIndex place.val else machine.registers.get place := by
  have same := obey_same answers machine (.loadRegisters x) (by simp)
  have memory := same.memory
  have index := same.index
  rw [execute_computed answers machine.advanced (by rfl)] at memory index
  refine ⟨memory, index, fun place => ?_⟩
  rw [Registers.get, same.v]
  have loaded := machine.advanced.loadRegisters_get x place
  rw [Memory.read, Memory.cell_add] at loaded
  exact loaded

theorem obey_decimal :
    let split := (machine.obey answers (.storeDecimal x)).machine
    let value := machine.registers.get x
    split.memory = machine.memory.writeFrom machine.registers.index
        [value / 100, value / 10 % 10, value % 10] ∧
      split.registers.index = machine.registers.index := by
  have same := obey_same answers machine (.storeDecimal x) (by simp)
  exact ⟨same.memory, same.index⟩

/-- The registers that are saved, as bytes. -/
theorem getElem_saved {place : Nat}
    (within : place < (machine.registers.v.toList.take (x.val + 1)).length) :
    (machine.registers.v.toList.take (x.val + 1))[place] =
      machine.registers.get (Nibble.ofNat place) := by
  rw [List.length_take, Vector.length_toList] at within
  have few : place < 16 := by omega
  have number : (Nibble.ofNat place).val = place := Nat.mod_eq_of_lt few
  rw [List.getElem_take, Vector.getElem_toList, Registers.get, get_eq_getElem]
  simp only [number]

theorem obey_save_cell {place : Nibble} (saves : place ≤ x) :
    (machine.obey answers (.saveRegisters x)).machine.memory.cells.get
        (Address.ofNat (machine.registers.index.toNat + place.val)) =
      machine.registers.get place := by
  have length : (machine.registers.v.toList.take (x.val + 1)).length = x.val + 1 := by
    rw [List.length_take, Vector.length_toList]
    omega
  have within : place.val < (machine.registers.v.toList.take (x.val + 1)).length := by
    rw [length]
    exact Nat.lt_succ_of_le saves
  have number : Nibble.ofNat place.val = place := Fin.ext (Nat.mod_eq_of_lt place.isLt)
  obtain ⟨memory, -, -⟩ := machine.obey_save answers x
  rw [memory, Memory.writeFrom_within _ _ _ (by omega) within, getElem_saved, number]

theorem obey_save_elsewhere {place : Address} (elsewhere : ∀ register : Nibble, register ≤ x →
      place ≠ Address.ofNat (machine.registers.index.toNat + register.val)) :
    (machine.obey answers (.saveRegisters x)).machine.memory.cells.get place =
      machine.memory.cells.get place := by
  obtain ⟨memory, -, -⟩ := machine.obey_save answers x
  rw [memory]
  apply Memory.writeFrom_elsewhere
  intro offset within same
  rw [List.length_take, Vector.length_toList] at within
  exact elsewhere ⟨offset, by omega⟩ (by omega : offset ≤ x.val) (Fin.ext same)

end

section

variable (machine : Machine) (answers answers' : Answers) (x : Nibble)

theorem load_after_save (place : Nibble) :
    let saved := (machine.obey answers (.saveRegisters x)).machine
    (saved.obey answers' (.loadRegisters x)).machine.registers.get place =
      machine.registers.get place := by
  intro saved
  obtain ⟨-, index, v⟩ := machine.obey_save answers x
  obtain ⟨-, -, loaded⟩ := saved.obey_load answers' x
  rw [loaded]
  split
  next saves =>
    rw [atIndex, index]
    exact machine.obey_save_cell answers x saves
  next => exact congrArg (·.get place) v

theorem save_after_load :
    let loaded := (machine.obey answers (.loadRegisters x)).machine
    (loaded.obey answers' (.saveRegisters x)).machine.memory = machine.memory := by
  intro loaded
  obtain ⟨memory, index, registers⟩ := machine.obey_load answers x
  obtain ⟨saved, -, -⟩ := loaded.obey_save answers' x
  rw [saved, memory, index]
  apply Memory.writeFrom_same
  intro offset within
  have few := within
  rw [List.length_take, Vector.length_toList] at few
  have number : (Nibble.ofNat offset).val = offset := Nat.mod_eq_of_lt (by omega)
  have among : Nibble.ofNat offset ≤ x := (by omega : (Nibble.ofNat offset).val ≤ x.val)
  -- Each register that is saved was loaded, from the cell that it is saved to.
  rw [getElem_saved, registers, if_pos among, number, atIndex]

theorem load_after_decimal :
    let split := (machine.obey answers (.storeDecimal x)).machine
    let digit := (split.obey answers' (.loadRegisters 2)).machine.registers.get
    let value := machine.registers.get x
    digit 0 = value / 100 ∧ digit 1 = value / 10 % 10 ∧ digit 2 = value % 10 := by
  intro split digit value
  obtain ⟨memory, index⟩ := machine.obey_decimal answers x
  obtain ⟨-, -, loaded⟩ := split.obey_load answers' 2
  have found (place : Nibble) (few : place.val < 3) :
      digit place = [value / 100, value / 10 % 10, value % 10][place.val] := by
    have among : place ≤ 2 := Nat.le_of_lt_succ few
    have written := machine.memory.writeFrom_within machine.registers.index
      [value / 100, value / 10 % 10, value % 10] (by simp) few
    rw [← written]
    refine (loaded place).trans ?_
    rw [if_pos among, atIndex, memory, index]
  exact ⟨found 0 (by decide), found 1 (by decide), found 2 (by decide)⟩

end

/-- Saving and loading undo each other at any index, as do splitting a value into its digits and
putting them together. Saving writes as many bytes as it saves registers, and the index stays. -/
theorem transfers_round_trip (machine : Machine) (answers answers' : Answers) (x : Nibble) :
    let v := fun place => machine.registers.get place
    let cell := fun offset => Address.ofNat (machine.registers.index.toNat + offset)
    let saving := machine.obey answers (.saveRegisters x)
    let loading := machine.obey answers (.loadRegisters x)
    let splitting := machine.obey answers (.storeDecimal x)
    (machine.fetch.toNat = 0xF055 + 0x100 * x.val → machine.step answers = .ok saving) ∧
    (machine.fetch.toNat = 0xF065 + 0x100 * x.val → machine.step answers = .ok loading) ∧
    (machine.fetch.toNat = 0xF033 + 0x100 * x.val → machine.step answers = .ok splitting) ∧
    (∀ place, (saving.machine.obey answers' (.loadRegisters x)).machine.registers.get place =
      v place) ∧
    (loading.machine.obey answers' (.saveRegisters x)).machine.memory = machine.memory ∧
    (∀ place ≤ x, saving.machine.memory.cells.get (cell place.val) = v place) ∧
    (∀ other, (∀ place : Nibble, place ≤ x → other ≠ cell place.val) →
      saving.machine.memory.cells.get other = machine.memory.cells.get other) ∧
    (let digit := fun place =>
      ((splitting.machine.obey answers' (.loadRegisters 2)).machine.registers.get place).toNat
    digit 0 ≤ 2 ∧ digit 1 ≤ 9 ∧ digit 2 ≤ 9 ∧
      100 * digit 0 + 10 * digit 1 + digit 2 = (v x).toNat) ∧
    saving.machine.registers.index = machine.registers.index ∧
    loading.machine.registers.index = machine.registers.index ∧
    splitting.machine.registers.index = machine.registers.index := by
  intro v cell saving loading splitting
  have stepped (instruction : Instruction) (plain : instruction.isHostExtension = false)
      (written : machine.fetch.toNat = instruction.code 0) :
      machine.step answers = .ok (machine.obey answers instruction) :=
    step_decoded answers (Instruction.permitted_of_code machine.dialect 0 plain written)
  obtain ⟨hundreds, tens, units⟩ := machine.load_after_decimal answers answers' x
  refine ⟨stepped (.saveRegisters x) rfl, stepped (.loadRegisters x) rfl,
    stepped (.storeDecimal x) rfl, machine.load_after_save answers answers' x,
    machine.save_after_load answers answers' x, fun place => machine.obey_save_cell answers x,
    fun other => machine.obey_save_elsewhere answers x, ?_, (machine.obey_save answers x).2.1,
    (machine.obey_load answers x).2.1, (machine.obey_decimal answers x).2⟩
  simp only [splitting, hundreds, tens, units]
  exact decimal_digits (v x)

/-- Two registers that are saved from the last address on, the second over the font. -/
theorem transfers_round_trip_wrapped :
    let answers : Answers :=
      { resetClock := 0, pollClock := 0, held := fun _ => false, rom := { bytes := #[] },
        words := .cycling #[] }
    let machine : Machine :=
      { fresh {} answers with
        memory := Memory.blank.writeFrom 0x200 [0xF1, 0x55]
        registers := { v := Bank.put (Vector.replicate 16 7) 1 254, index := 0xFFFF } }
    let saved := (machine.obey answers (.saveRegisters 1)).machine
    let split := (machine.obey answers (.storeDecimal 1)).machine
    let digits := (split.obey answers (.loadRegisters 2)).machine
    machine.fetch.toNat = 0xF155 ∧
      machine.step answers = .ok (machine.obey answers (.saveRegisters 1)) ∧
      saved.memory.cells.get 0xFFF = 7 ∧ saved.memory.cells.get 0 = 254 ∧
      saved.memory.cells.get 1 = machine.memory.cells.get 1 ∧
      (digits.registers.get 0).toNat = 2 ∧ (digits.registers.get 1).toNat = 5 ∧
      (digits.registers.get 2).toNat = 4 := by
  intro answers machine saved split digits
  have fetched : machine.fetch.toNat = 0xF155 :=
    congrArg UInt16.toNat (Memory.readWord_writeFrom Memory.blank 0x200 0xF1 0x55)
  obtain ⟨steps, -, -, -, -, written, elsewhere, parts, -⟩ :=
    transfers_round_trip machine answers answers 1
  -- The index is read once, so that no cell is sought by evaluating the machine.
  have cells (offset : Nat) :
      Address.ofNat (machine.registers.index.toNat + offset) = Address.ofNat (65535 + offset) :=
    rfl
  have last := written 0 (by decide)
  have first := written 1 (by decide)
  have apart := elsewhere 1
  simp only [cells] at last first apart
  have whole : (digits.registers.get 0).toNat ≤ 2 ∧ (digits.registers.get 1).toNat ≤ 9 ∧
      (digits.registers.get 2).toNat ≤ 9 ∧
      100 * (digits.registers.get 0).toNat + 10 * (digits.registers.get 1).toNat +
        (digits.registers.get 2).toNat = 254 := parts
  exact ⟨fetched, steps fetched, last, first, apart (by decide), by omega, by omega, by omega⟩

end Machine

end Chip8
