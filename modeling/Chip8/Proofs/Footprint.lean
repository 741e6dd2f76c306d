import Chip8.Proofs.Opcodes
import Chip8.Proofs.Session
import Chip8.Proofs.SpriteDrawing

/-!
# Footprints

What an instruction may touch can be read off the instruction and its operands.
A table for each part of the machine says which instructions change it and
where; whatever no table names is as it was before the step. Where the next
instruction is fetched is a table too, so control only flows along it.

The tables are about the machine as it is when the step begins. The timers are
left out of them, with their gate and the tone that a tick may end.
-/
namespace Chip8

namespace Instruction

/-- The registers that an instruction sets. Waiting sets one only once a key is held. -/
def Sets (answers : Answers) (instruction : Instruction) (place : Nibble) : Prop :=
  match instruction with
  | loadByte x _ | addByte x _ | copy x _ | or x _ | and x _ | xor x _ | random x _
  | readDelay x => place = x
  | awaitKey x => place = x ∧ ∃ key, answers.held key = true
  | add x _ | subtract x _ | shiftRight x | subtractFrom x _ | shiftLeft x =>
    place = x ∨ place = 0xF
  | draw _ _ _ => place = 0xF
  | loadRegisters x => place ≤ x
  | _ => False

/-- Instructions that touch no more than registers and the counter. -/
def computes : Instruction → Bool
  | jump _ | jumpOffset _ | skipIfByte _ _ | skipUnlessByte _ _ | skipIfEqual _ _
  | skipUnlessEqual _ _ | skipIfKey _ | skipUnlessKey _ | loadByte _ _ | addByte _ _ | copy _ _
  | or _ _ | and _ _ | xor _ _ | add _ _ | subtract _ _ | shiftRight _ | subtractFrom _ _
  | shiftLeft _ | readDelay _ | awaitKey _ | loadRegisters _ => true
  | _ => false

/-- How many bytes an instruction writes, from the index on. -/
def stored : Instruction → Nat
  | storeDecimal _ => 3
  | saveRegisters x => x.val + 1
  | _ => 0

def pointsIndex : Instruction → Bool
  | setIndex _ | addToIndex _ | pointAtGlyph _ => true
  | _ => false

def isCall : Instruction → Bool
  | call _ => true
  | _ => false

/-- How far the stack pointer moves, among sixteen slots. -/
def descent : Instruction → Nat
  | call _ => 1
  | returnFromCall => 15
  | _ => 0

def drawsWords : Instruction → Bool
  | random _ _ => true
  | _ => false

def paints : Instruction → Bool
  | scrollDown _ | clearScreen | scrollRight | scrollLeft | lowResolution | highResolution
  | setColours | draw _ _ _ => true
  | _ => false

def resizes : Instruction → Bool
  | lowResolution | highResolution => true
  | _ => false

end Instruction

namespace Machine

/-- Where the next instruction is fetched. -/
def successor (answers : Answers) (machine : Machine) (instruction : Instruction) : Nat :=
  let v := machine.registers.get
  let past := fun bytes => (machine.counter.toNat + bytes) % 65536
  match instruction with
  | .jump nnn | .call nnn => nnn.val
  | .jumpOffset nnn => nnn.val + (v 0).toNat
  | .returnFromCall => (machine.stack.slots.get (machine.stack.pointer - 1)).toNat
  | .awaitKey _ => if ∃ key, answers.held key = true then past 2 else machine.counter.toNat
  | .skipIfByte x kk => past (if v x = kk then 4 else 2)
  | .skipUnlessByte x kk => past (if v x ≠ kk then 4 else 2)
  | .skipIfEqual x y => past (if v x = v y then 4 else 2)
  | .skipUnlessEqual x y => past (if v x ≠ v y then 4 else 2)
  | .skipIfKey x => past (if answers.held (Nibble.ofNat (v x).toNat) then 4 else 2)
  | .skipUnlessKey x => past (if !answers.held (Nibble.ofNat (v x).toNat) then 4 else 2)
  | _ => past 2

/-- What an instruction asks the host for. -/
def Asks (machine : Machine) : Instruction → Call → Prop
  | .setFrequency, .setFrequency hertz => hertz = 10 * (machine.registers.get 0).toNat
  | .lowResolution, .resized resolution => resolution = .low
  | .highResolution, .resized resolution => resolution = .high
  | .setSound _, .beginTone | .setSound _, .endTone => True
  | .skipIfKey x, .askKey key | .skipUnlessKey x, .askKey key =>
    key.val = (machine.registers.get x).toNat % 16
  | .awaitKey _, .askKey _ => True
  | _, _ => False

/-- What a step of an instruction may do, by the tables above. -/
structure Footprint (answers : Answers) (before : Machine) (instruction : Instruction)
    (asked : List Call) (after : Machine) : Prop where
  register (place : Nibble) : ¬instruction.Sets answers place →
    after.registers.get place = before.registers.get place
  cell (place : Address) : (∀ offset < instruction.stored,
      place.val ≠ (before.registers.index.toNat + offset) % 4096) →
    after.memory.cells.get place = before.memory.cells.get place
  index : instruction.pointsIndex = false → after.registers.index = before.registers.index
  slot (place : Nibble) : after.stack.slots.get place =
    if instruction.isCall = true ∧ place = before.stack.pointer then before.counter + 2
    else before.stack.slots.get place
  pointer : after.stack.pointer.val = (before.stack.pointer.val + instruction.descent) % 16
  words : instruction.drawsWords = false → after.words = before.words
  plane : instruction.paints = false → after.plane = before.plane
  width : instruction.resizes = false → after.plane.width = before.plane.width
  colours : instruction ≠ .setColours → after.plane.background = before.plane.background ∧
    after.plane.foreground = before.plane.foreground ∧
    after.plane.coloured = before.plane.coloured
  dialect : after.dialect = before.dialect
  counter : after.counter.toNat = before.successor answers instruction
  asks : ∀ call ∈ asked, before.Asks instruction call

end Machine

namespace Registers

variable (registers : Registers)

theorem get_set_of_ne {x place : Nibble} (value : UInt8) (differs : place ≠ x) :
    (registers.set x value).get place = registers.get place := by
  rw [get_set, if_neg (Ne.symm differs)]

theorem get_setFlag_of_ne {place : Nibble} (value : Bool) (differs : place ≠ 0xF) :
    (registers.setFlag value).get place = registers.get place :=
  registers.get_set_of_ne _ differs

end Registers

namespace Memory

theorem write_elsewhere (memory : Memory) (address : UInt16) (value : UInt8) {place : Address}
    (differs : place.val ≠ address.toNat % 4096) :
    (memory.write address value).cells.get place = memory.cells.get place := by
  simp only [write, get_eq_getElem]
  exact Vector.getElem_set_ne _ _ fun same => differs same.symm

theorem writeFrom_elsewhere (memory : Memory) (address : UInt16) (bytes : List UInt8)
    {place : Address}
    (differs : ∀ offset < bytes.length, place.val ≠ (address.toNat + offset) % 4096) :
    (memory.writeFrom address bytes).cells.get place = memory.cells.get place := by
  induction bytes generalizing memory address with
  | nil => rfl
  | cons byte rest ih =>
    have first := differs 0 (Nat.zero_lt_succ _)
    rw [writeFrom, ih, write_elsewhere memory address byte first]
    intro offset within
    have later := differs (offset + 1) (Nat.succ_lt_succ within)
    -- The next address may have wrapped at sixteen bits, which is a multiple of the size.
    have next : (address + 1).toNat = (address.toNat + 1) % 65536 := UInt16.toNat_add address 1
    omega

end Memory

namespace Machine

section

variable (answers : Answers) (machine : Machine)

theorem setWithFlag_get {x place : Nibble} (value : UInt8) (flag : Bool)
    (other : ¬(place = x ∨ place = 0xF)) :
    (machine.setWithFlag x value flag).registers.get place = machine.registers.get place := by
  rw [not_or] at other
  rw [setWithFlag, Registers.get_setFlag_of_ne _ _ other.2, Registers.get_set_of_ne _ _ other.1]

theorem loadRegisters_get (x place : Nibble) : (machine.loadRegisters x).registers.get place =
    if place ≤ x then machine.memory.read (machine.registers.index + UInt16.ofNat place.val)
    else machine.registers.get place := by
  simp only [loadRegisters, Registers.get, get_eq_getElem, Vector.getElem_ofFn]

variable {instruction : Instruction}

theorem execute_computed (computes : instruction.computes = true) :
    let after := (execute answers machine instruction).machine
    after = { machine with
      counter := after.counter
      registers := { machine.registers with v := after.registers.v } } := by
  cases instruction with
  | skipIfByte | skipUnlessByte | skipIfEqual | skipUnlessEqual | skipIfKey | skipUnlessKey =>
    simp only [execute, skipIf_eq]
  | awaitKey x =>
    simp only [execute, awaitKey_eq]
    split <;> rfl
  | loadRegisters x =>
    simp only [execute]
    rw [loadRegisters_eq]
  | _ => first | exact absurd computes Bool.false_ne_true | rfl

variable (hard : instruction ≠ .softReset)
include hard

theorem execute_get (place : Nibble) (other : ¬instruction.Sets answers place) :
    (execute answers machine instruction).machine.registers.get place =
      machine.registers.get place := by
  cases instruction with
  | softReset => exact absurd rfl hard
  | skipIfByte | skipUnlessByte | skipIfEqual | skipUnlessEqual | skipIfKey | skipUnlessKey =>
    simp only [execute, skipIf_eq]
  | loadByte | addByte | copy | or | and | xor | random | readDelay =>
    exact machine.registers.get_set_of_ne _ other
  | add | subtract | shiftRight | subtractFrom | shiftLeft =>
    exact setWithFlag_get machine _ _ other
  | draw => exact machine.registers.get_setFlag_of_ne _ other
  | awaitKey x =>
    simp only [execute, awaitKey_eq]
    split
    next key found =>
      have held := List.find?_some found
      exact machine.registers.get_set_of_ne _ fun same => other ⟨same, key, held⟩
    · rfl
  | loadRegisters x =>
    simp only [execute, loadRegisters_get]
    exact if_neg other
  | _ => rfl

theorem execute_cell (place : Address) (other : ∀ offset < instruction.stored,
    place.val ≠ (machine.registers.index.toNat + offset) % 4096) :
    (execute answers machine instruction).machine.memory.cells.get place =
      machine.memory.cells.get place := by
  -- Half of all instructions only compute, and of those there is nothing more to say.
  by_cases computes : instruction.computes = true
  · rw [execute_computed answers machine computes]
  cases instruction with
  | softReset => exact absurd rfl hard
  | storeDecimal => exact machine.memory.writeFrom_elsewhere _ _ other
  | saveRegisters x =>
    apply machine.memory.writeFrom_elsewhere
    intro offset within
    apply other offset
    rw [List.length_take] at within
    exact Nat.lt_of_lt_of_le within (Nat.min_le_left _ _)
  | _ => first | rfl | exact absurd rfl computes

theorem execute_index (other : instruction.pointsIndex = false) :
    (execute answers machine instruction).machine.registers.index = machine.registers.index := by
  by_cases computes : instruction.computes = true
  · rw [execute_computed answers machine computes]
  cases instruction with
  | softReset => exact absurd rfl hard
  | setIndex | addToIndex | pointAtGlyph => cases other
  | _ => first | rfl | exact absurd rfl computes

theorem execute_words (other : instruction.drawsWords = false) :
    (execute answers machine instruction).machine.words = machine.words := by
  by_cases computes : instruction.computes = true
  · rw [execute_computed answers machine computes]
  cases instruction with
  | softReset => exact absurd rfl hard
  | random => cases other
  | _ => first | rfl | exact absurd rfl computes

theorem execute_unpainted (other : instruction.paints = false) :
    (execute answers machine instruction).machine.plane = machine.plane := by
  by_cases computes : instruction.computes = true
  · rw [execute_computed answers machine computes]
  cases instruction with
  | softReset => exact absurd rfl hard
  | scrollDown | clearScreen | scrollRight | scrollLeft | lowResolution | highResolution
  | setColours | draw => cases other
  | _ => first | rfl | exact absurd rfl computes

theorem execute_width (other : instruction.resizes = false) :
    (execute answers machine instruction).machine.plane.width = machine.plane.width := by
  by_cases paints : instruction.paints = true
  · cases instruction with
    | lowResolution | highResolution => cases other
    | draw x y height =>
      simp only [execute, drawSprite_plane]
      exact congrArg Resolution.width (machine.plane.plots_screen _).resolution
    | _ => first | rfl | cases paints
  · rw [execute_unpainted answers machine hard (Bool.not_eq_true _ ▸ paints)]

theorem execute_colours (other : instruction ≠ .setColours) :
    let after := (execute answers machine instruction).machine
    after.plane.background = machine.plane.background ∧
      after.plane.foreground = machine.plane.foreground ∧
      after.plane.coloured = machine.plane.coloured := by
  by_cases paints : instruction.paints = true
  · cases instruction with
    | setColours => exact absurd rfl other
    | draw x y height =>
      have same := machine.plane.plots_screen (machine.points x y height)
      simp only [execute, drawSprite_plane]
      exact ⟨same.background, same.foreground, same.coloured⟩
    | _ => first | exact ⟨rfl, rfl, rfl⟩ | cases paints
  · dsimp only
    rw [execute_unpainted answers machine hard (Bool.not_eq_true _ ▸ paints)]
    exact ⟨rfl, rfl, rfl⟩

theorem execute_slot (place : Nibble) :
    (execute answers machine instruction).machine.stack.slots.get place =
      if instruction.isCall = true ∧ place = machine.stack.pointer then machine.counter
      else machine.stack.slots.get place := by
  by_cases computes : instruction.computes = true
  · have other : instruction.isCall = false := by
      cases instruction <;> first | rfl | cases computes
    rw [execute_computed answers machine computes, other]
    rfl
  cases instruction with
  | softReset => exact absurd rfl hard
  | call nnn =>
    have pushed := Bank.get_put machine.stack.slots machine.stack.pointer place machine.counter
    simp only [eq_comm (a := machine.stack.pointer)] at pushed
    simp only [Instruction.isCall, true_and]
    exact pushed
  | _ => first | exact absurd rfl computes | rfl

theorem execute_pointer :
    (execute answers machine instruction).machine.stack.pointer.val =
      (machine.stack.pointer.val + instruction.descent) % 16 := by
  have still : machine.stack.pointer.val = (machine.stack.pointer.val + 0) % 16 :=
    (Nat.mod_eq_of_lt machine.stack.pointer.isLt).symm
  by_cases computes : instruction.computes = true
  · have other : instruction.descent = 0 := by
      cases instruction <;> first | rfl | cases computes
    rw [execute_computed answers machine computes, other]
    exact still
  cases instruction with
  | softReset => exact absurd rfl hard
  | call => rfl
  | returnFromCall =>
    -- Among sixteen slots, one up is fifteen down.
    have back : ∀ pointer : Nibble, (pointer - 1).val = (pointer.val + 15) % 16 := by decide
    exact back machine.stack.pointer
  | _ => first | exact absurd rfl computes | exact still

theorem execute_dialect :
    (execute answers machine instruction).machine.dialect = machine.dialect := by
  by_cases computes : instruction.computes = true
  · rw [execute_computed answers machine computes]
  cases instruction with
  | softReset => exact absurd rfl hard
  | _ => first | rfl | exact absurd rfl computes

omit hard

theorem advanced_toNat (bytes : UInt16) :
    (machine.counter + bytes).toNat = (machine.counter.toNat + bytes.toNat) % 65536 :=
  UInt16.toNat_add machine.counter bytes

theorem skipIf_toNat (condition : Bool) : (machine.advanced.skipIf condition).counter.toNat =
    (machine.counter.toNat + if condition then 4 else 2) % 65536 := by
  cases condition with
  | false => exact machine.advanced_toNat 2
  | true =>
    change (machine.counter + 2 + 2).toNat = _
    rw [UInt16.add_assoc]
    exact machine.advanced_toNat 4

theorem skipIf_decide_toNat (condition : Prop) [Decidable condition] :
    (machine.advanced.skipIf condition).counter.toNat =
      (machine.counter.toNat + if condition then 4 else 2) % 65536 := by
  rw [skipIf_toNat]
  simp only [decide_eq_true_eq]

theorem awaitKey_toNat (x : Nibble) :
    (machine.advanced.awaitKey answers.held x).machine.counter.toNat =
      if ∃ key, answers.held key = true then (machine.counter.toNat + 2) % 65536
      else machine.counter.toNat := by
  -- With no key held the counter is set back, so that the instruction is fetched again.
  rw [awaitKey_eq]
  split
  next key found =>
    rw [if_pos ⟨key, List.find?_some found⟩]
    exact machine.advanced_toNat 2
  next missing =>
    have released : ¬∃ key, answers.held key = true := by
      rintro ⟨key, held⟩
      exact List.find?_eq_none.mp missing key (List.mem_finRange key) held
    rw [if_neg released]
    exact congrArg UInt16.toNat (UInt16.add_sub_cancel machine.counter 2)

theorem execute_counter (hard : instruction ≠ .softReset) :
    (execute answers machine.advanced instruction).machine.counter.toNat =
      machine.successor answers instruction := by
  have word (nnn : Address) : nnn.toWord.toNat = nnn.val :=
    UInt16.toNat_ofNat_of_lt (Nat.lt_of_lt_of_le nnn.isLt (by decide))
  cases instruction with
  | softReset => exact absurd rfl hard
  | jump nnn => exact word nnn
  | call nnn => exact word nnn
  | jumpOffset nnn =>
    -- Twelve bits and a byte stay below sixteen bits, so nothing wraps.
    have offset := (machine.registers.get 0).toNat_lt
    change (nnn.toWord + (machine.registers.get 0).toUInt16).toNat = _
    rw [UInt16.toNat_add, word, UInt8.toNat_toUInt16, Nat.mod_eq_of_lt (by omega)]
    rfl
  | returnFromCall => rfl
  | awaitKey x => exact awaitKey_toNat answers machine x
  | skipIfByte | skipUnlessByte | skipIfEqual | skipUnlessEqual =>
    exact skipIf_decide_toNat machine _
  | skipIfKey | skipUnlessKey => exact skipIf_toNat machine _
  | loadRegisters x =>
    simp only [execute]
    rw [loadRegisters_eq]
    exact machine.advanced_toNat 2
  | _ => exact machine.advanced_toNat 2

theorem execute_asks (hard : instruction ≠ .softReset) :
    ∀ call ∈ calls (execute answers machine instruction).events,
      machine.Asks instruction call := by
  intro call asked
  cases instruction with
  | softReset => exact absurd rfl hard
  | setFrequency =>
    cases List.mem_singleton.mp asked
    exact Nat.mul_comm _ _
  | lowResolution | highResolution | skipIfKey | skipUnlessKey =>
    cases List.mem_singleton.mp asked
    exact rfl
  | setSound x =>
    rw [execute, setSound_calls] at asked
    split at asked
    · cases List.mem_singleton.mp asked
      trivial
    · split at asked
      · cases List.mem_singleton.mp asked
        trivial
      · cases asked
  | awaitKey x =>
    -- However early a held key is found, all that is asked about are keys.
    obtain ⟨keys, asks⟩ := awaitKey_calls answers.held machine x
    rw [execute, asks] at asked
    obtain ⟨key, -, rfl⟩ := List.mem_map.mp asked
    trivial
  | _ => cases asked

theorem execute_footprint (hard : instruction ≠ .softReset) :
    let turn := execute answers machine.advanced instruction
    machine.Footprint answers instruction (calls turn.events) turn.machine where
  register := execute_get answers machine.advanced hard
  cell := execute_cell answers machine.advanced hard
  index := execute_index answers machine.advanced hard
  slot := execute_slot answers machine.advanced hard
  pointer := execute_pointer answers machine.advanced hard
  words := execute_words answers machine.advanced hard
  plane := execute_unpainted answers machine.advanced hard
  width := execute_width answers machine.advanced hard
  colours := execute_colours answers machine.advanced hard
  dialect := execute_dialect answers machine.advanced hard
  counter := execute_counter answers machine hard
  asks := execute_asks answers machine.advanced hard

end

section

variable {answers : Answers} {machine after : Machine} {instruction : Instruction}

/-- A tick touches nothing that a footprint speaks of. -/
theorem Footprint.ticked {asked : List Call}
    (footprint : machine.Footprint answers instruction asked after) (now : Instant) :
    machine.Footprint answers instruction asked (after.tick now).1 := by
  obtain ⟨register, cell, index, slot, pointer, words, plane, width, colours, dialect, counter,
    asks⟩ := footprint
  rw [tick_eq]
  split
  all_goals
    exact ⟨register, cell, index, slot, pointer, words, plane, width, colours, dialect, counter,
      asks⟩

theorem obey_footprint (hard : instruction ≠ .softReset) :
    ∃ asked ticked, calls (machine.obey answers instruction).events = asked ++ ticked ∧
      (ticked = [] ∨ ticked = [.endTone]) ∧
      machine.Footprint answers instruction asked (machine.obey answers instruction).machine := by
  have footprint := execute_footprint answers machine hard
  -- All but an exit are followed by a tick, and of the host that can only end the tone.
  by_cases leaves : instruction = .exit
  · subst leaves
    exact ⟨[], [], rfl, Or.inl rfl, footprint⟩
  · rw [obey_running answers machine instruction leaves]
    refine ⟨_, _, calls_append _ _, ?_, footprint.ticked answers.pollClock⟩
    rw [tick_calls]
    split
    · exact Or.inr rfl
    · exact Or.inl rfl

/-- A step is that of the one instruction that its opcode was written for. Unless the machine
starts over, the instruction's footprint is all there is to see of the step. -/
theorem step_leaves_footprint {turn : Turn} (stepped : machine.step answers = .ok turn) :
    ∃ instruction, Instruction.decode machine.fetch = .ok instruction ∧
      machine.fetch.toNat = instruction.code (nibble machine.fetch 1) ∧
      (instruction ≠ .softReset →
        ∃ asked ticked, calls turn.events = asked ++ ticked ∧
          (ticked = [] ∨ ticked = [.endTone]) ∧
          machine.Footprint answers instruction asked turn.machine) := by
  cases decoded : machine.dialect.decode machine.fetch with
  | error fault =>
    rw [step_refused answers decoded] at stepped
    cases stepped
  | ok instruction =>
    rw [step_decoded answers decoded] at stepped
    cases stepped
    have plain := (Dialect.decode_eq_ok_iff.mp decoded).1
    exact ⟨instruction, plain, (Instruction.code_of_decode plain).symm, obey_footprint⟩

/-- A call from beyond the memory into the last slot of the stack. -/
theorem step_leaves_footprint_call :
    let answers : Answers :=
      { resetClock := 0, pollClock := 0, held := fun _ => false, rom := { bytes := #[0x22, 0x06] },
        words := .cycling #[] }
    let machine : Machine :=
      { fresh {} answers with counter := 0x1200, stack := { pointer := 15 } }
    let turn := machine.obey answers (.call 0x206)
    machine.step answers = .ok turn ∧
    turn.machine.stack.slots.get 15 = 0x1202 ∧ turn.machine.stack.slots.get 0 = 0 ∧
    turn.machine.stack.pointer.val = 0 ∧ turn.machine.counter.toNat = 0x206 ∧
    turn.machine.words = machine.words := by
  intro answers machine turn
  have fetched : machine.fetch = 0x2206 := by
    simp only [machine, fresh, fetch, Memory.readWord, Memory.read, get_eq_getElem, Memory.load,
      Memory.blank, Vector.getElem_mapIdx, Vector.getElem_replicate]
    decide
  have decoded : Instruction.decode machine.fetch = .ok (.call 0x206) := by
    rw [fetched]
    rfl
  have stepped : machine.step answers = .ok turn :=
    step_decoded answers (Dialect.decode_eq_ok_iff.mpr ⟨decoded, nofun⟩)
  obtain ⟨instruction, known, -, footprints⟩ := step_leaves_footprint stepped
  obtain rfl : .call 0x206 = instruction := Except.ok.inj (decoded.symm.trans known)
  obtain ⟨_, _, -, -, footprint⟩ := footprints nofun
  refine ⟨stepped, footprint.slot 15, (footprint.slot 0).trans rfl, footprint.pointer.trans ?_,
    footprint.counter, footprint.words rfl⟩
  decide

end

end Machine

end Chip8
