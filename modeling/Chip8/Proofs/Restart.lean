import Chip8.Proofs.Session

/-!
# Starting over

Nothing of a machine outlives a reset but its dialect. What a new machine is
like can be said part by part, from the font at the bottom of memory to the
gate that starts now, and no two machines fit that description. A reset leaves
the one that does, from whatever state a program has reached, and so does the
instruction that asks for one: it runs after the counter has moved and before
the timers get their chance, but the counter is set again and no time has
passed for the new gate.
-/
namespace Chip8

attribute [ext] Memory Plane Registers CallStack TimerGate Machine

/-- Memory that holds the font, a program image and nothing else. -/
structure Memory.Loaded (rom : Rom) (memory : Memory) : Prop where
  font : ∀ place < 80, memory.cells[place]? = Chip8.font[place]?
  program (place : Nat) : 512 ≤ place → place < min 4096 (512 + rom.bytes.size) →
    memory.cells[place]? = rom.bytes[place - 512]?
  blank (place : Nat) : 80 ≤ place → place < 4096 →
    (place < 512 ∨ 512 + rom.bytes.size ≤ place) → memory.cells[place]? = some 0

namespace Memory

/-- The program region is where the image goes, and what lies below it stays. -/
theorem load_region (memory : Memory) (rom : Rom) :
    let loaded := (memory.load rom).cells.toArray
    loaded.extract programStart memorySize =
        rom.copyInto (memory.cells.toArray.extract programStart memorySize) ∧
      loaded.extract 0 programStart = memory.cells.toArray.extract 0 programStart := by
  constructor
  · apply Array.ext
    · simp [load, Rom.copyInto]
    · intro place _ _
      simp [load, Rom.copyInto]
  · apply Array.ext
    · simp [load]
    · intro place _ inside
      have below : ¬programStart ≤ place := by simp at inside; omega
      simp [load, below]

theorem load_blank_getElem? (rom : Rom) (place : Nat) (inside : place < 4096) :
    (blank.load rom).cells[place]? =
      some (if 512 ≤ place then rom.overlay (place - 512) (Chip8.font[place]?.getD 0)
        else Chip8.font[place]?.getD 0) := by
  simp only [load, blank, Vector.getElem?_mapIdx, Vector.getElem?_replicate, if_pos inside,
    Option.map_some]

theorem load_blank_loaded (rom : Rom) : Loaded rom (blank.load rom) where
  font place inside := by
    rw [load_blank_getElem? rom place (by omega), if_neg (by omega),
      Vector.getElem?_eq_getElem inside, Option.getD_some]
  program place start inside := by
    have within : place - 512 < rom.bytes.size := by omega
    rw [load_blank_getElem? rom place (by omega), if_pos start, Rom.overlay,
      Array.getElem?_eq_getElem within, Option.getD_some]
  blank place past inside unused := by
    have unprinted : Chip8.font[place]? = none := Vector.getElem?_eq_none past
    rw [load_blank_getElem? rom place inside, unprinted, Option.getD_none]
    split
    · have absent : rom.bytes[place - 512]? = none := Array.getElem?_eq_none (by omega)
      rw [Rom.overlay, absent, Option.getD_none]
    · rfl

/-- A byte of the program, where it was loaded. -/
theorem Loaded.read {rom : Rom} {memory : Memory} (loaded : Loaded rom memory) (place : Nat)
    {byte : UInt8} (start : 512 ≤ place) (inside : place < 4096)
    (found : rom.bytes[place - 512]? = some byte) : memory.read (UInt16.ofNat place) = byte := by
  obtain ⟨within, -⟩ := Array.getElem?_eq_some_iff.mp found
  have there := loaded.program place start (by omega)
  have cell : Memory.cell (UInt16.ofNat place) = ⟨place, inside⟩ := by
    apply Fin.ext
    simp only [Memory.cell, Address.ofNat, Fin.val_ofNat, UInt16.toNat_ofNat']
    change place % 65536 % 4096 = place
    omega
  rw [found, Vector.getElem?_eq_getElem inside, Option.some.injEq] at there
  rw [Memory.read, cell, get_eq_getElem]
  exact there

/-- An opcode of the program, where it was loaded. -/
theorem Loaded.readWord {rom : Rom} {memory : Memory} (loaded : Loaded rom memory) (place : Nat)
    {high low : UInt8} (start : 512 ≤ place) (inside : place + 1 < 4096)
    (first : rom.bytes[place - 512]? = some high)
    (second : rom.bytes[place + 1 - 512]? = some low) :
    memory.readWord (UInt16.ofNat place) = high.toUInt16 <<< 8 ||| low.toUInt16 := by
  have next : UInt16.ofNat place + 1 = UInt16.ofNat (place + 1) := (UInt16.ofNat_add place 1).symm
  rw [Memory.readWord, next, loaded.read place start (by omega) first,
    loaded.read (place + 1) (by omega) inside second]

/-- Font, program and blank space leave no place undetermined. -/
theorem Loaded.unique {rom : Rom} {one other : Memory} (first : Loaded rom one)
    (second : Loaded rom other) : one = other := by
  apply Memory.ext
  apply Vector.ext
  intro place inside
  have inside : place < 4096 := inside
  have same : one.cells[place]? = other.cells[place]? := by
    by_cases printed : place < 80
    · rw [first.font place printed, second.font place printed]
    · by_cases used : 512 ≤ place ∧ place < min 4096 (512 + rom.bytes.size)
      · rw [first.program place used.1 used.2, second.program place used.1 used.2]
      · rw [first.blank place (by omega) inside (by omega),
          second.blank place (by omega) inside (by omega)]
  rw [Vector.getElem?_eq_getElem inside, Vector.getElem?_eq_getElem inside] at same
  exact Option.some.inj same

end Memory

/-- The plane that every machine starts with. -/
structure Plane.Blank (plane : Plane) : Prop where
  width : plane.width = 64
  mode : plane.mode = .flip
  background : plane.background = 0x00
  foreground : plane.foreground = 0xFF
  cell (place : Fin 8192) : plane.cells.get place = 0x00
  dirty : plane.dirty = true

namespace Plane

theorem new_blank : Blank {} where
  width := rfl
  mode := rfl
  background := rfl
  foreground := rfl
  cell place := Vector.getElem_replicate place.isLt
  dirty := rfl

theorem Blank.unique {one other : Plane} (first : Blank one) (second : Blank other) :
    one = other := by
  -- Both hidden parts, the resolution and whether colours were chosen, show in what is listed.
  have resolution (plane : Plane) (blank : Blank plane) : plane.resolution = .low := by
    have width := blank.width
    rw [Plane.width] at width
    cases found : plane.resolution with
    | low => rfl
    | high =>
      rw [found] at width
      cases width
  have coloured (plane : Plane) (blank : Blank plane) : plane.coloured = false := by
    have mode := blank.mode
    rw [Plane.mode] at mode
    cases found : plane.coloured with
    | false => rfl
    | true =>
      rw [found, if_pos (Or.inr rfl)] at mode
      cases mode
  apply Plane.ext
  · exact (resolution one first).trans (resolution other second).symm
  · exact first.background.trans second.background.symm
  · exact first.foreground.trans second.foreground.symm
  · exact (coloured one first).trans (coloured other second).symm
  · exact first.dirty.trans second.dirty.symm
  · apply Vector.ext
    intro place inside
    exact (first.cell ⟨place, inside⟩).trans (second.cell ⟨place, inside⟩).symm

end Plane

namespace Machine

/-- A machine that has done nothing but load its program. -/
structure Pristine (dialect : Dialect) (answers : Answers) (machine : Machine) : Prop where
  counter : machine.counter = 0x200
  memory : machine.memory.Loaded answers.rom
  register (x : Nibble) : machine.registers.get x = 0
  index : machine.registers.index = 0
  delay : machine.registers.delay = 0
  sound : machine.registers.sound = 0
  slot (place : Nibble) : machine.stack.slots.get place = 0
  pointer : machine.stack.pointer = 0
  plane : machine.plane.Blank
  words : machine.words = answers.words
  gate : machine.gate.lastTick = answers.resetClock
  dialect : machine.dialect = dialect

theorem fresh_pristine (dialect : Dialect) (answers : Answers) :
    Pristine dialect answers (fresh dialect answers) where
  counter := rfl
  memory := Memory.load_blank_loaded answers.rom
  register x := Vector.getElem_replicate x.isLt
  index := rfl
  delay := rfl
  sound := rfl
  slot place := Vector.getElem_replicate place.isLt
  pointer := rfl
  plane := Plane.new_blank
  words := rfl
  gate := rfl
  dialect := rfl

theorem Pristine.unique {dialect : Dialect} {answers : Answers} {one other : Machine}
    (first : Pristine dialect answers one) (second : Pristine dialect answers other) :
    one = other := by
  have bank {Cell : Type} {value : Cell} {one other : Bank Cell}
      (first : ∀ place, one.get place = value) (second : ∀ place, other.get place = value) :
      one = other := by
    apply Vector.ext
    intro place inside
    exact (first ⟨place, inside⟩).trans (second ⟨place, inside⟩).symm
  apply Machine.ext
  · exact first.counter.trans second.counter.symm
  · exact first.memory.unique second.memory
  · apply Registers.ext
    · exact bank first.register second.register
    · exact first.index.trans second.index.symm
    · exact first.delay.trans second.delay.symm
    · exact first.sound.trans second.sound.symm
  · exact CallStack.ext (bank first.slot second.slot) (first.pointer.trans second.pointer.symm)
  · exact first.plane.unique second.plane
  · exact first.words.trans second.words.symm
  · exact TimerGate.ext (first.gate.trans second.gate.symm)
  · exact first.dialect.trans second.dialect.symm

/-- What an operation comes to that starts a machine over. -/
structure StartsOver (before : Machine) (answers : Answers) (operation : Operation) : Prop where
  machine : (before.perform operation).machine = (boot before.dialect answers).1
  calls : calls (before.perform operation).events =
    .takeWords :: ((if before.registers.sound ≠ 0 then [.endTone] else [])
      ++ (if before.plane.width = 128 then [.resized .low] else [])
      ++ [.loadProgram 3584 (min answers.rom.bytes.size 3584)])
  later (rest : List Operation) :
    let response := before.perform operation
    let new := (boot before.dialect answers).1.run rest
    before.run (operation :: rest) =
      { machine := new.machine
        events := response.events ++ new.events
        replies := response.reply :: new.replies }

theorem reset_machine (answers : Answers) (machine : Machine) :
    (machine.reset answers).1 = (boot machine.dialect answers).1 := rfl

/-- A gate that was started now does not open now. -/
theorem tick_fresh (dialect : Dialect) (answers : Answers) :
    (fresh dialect answers).tick answers.resetClock = (fresh dialect answers, []) := by
  have closed : (fresh dialect answers).gate.poll answers.resetClock =
      ((fresh dialect answers).gate, false) := by
    apply if_pos
    rw [fresh, Int.sub_self]
    decide
  rw [tick, closed]

theorem step_softReset (answers : Answers) (machine : Machine) (fetched : machine.fetch = 0x0101)
    (extended : machine.dialect.hostExtensions = true)
    (still : answers.pollClock = answers.resetClock) :
    machine.step answers = .ok
      { machine := (machine.reset answers).1
        events := .note (.executing machine.counter machine.fetch .softReset)
          :: (machine.reset answers).2 } := by
  have decoded : machine.dialect.decode machine.fetch = .ok .softReset := by
    rw [fetched, Dialect.decode, show Instruction.decode 0x0101 = .ok .softReset from rfl, extended]
    rfl
  have ticked : (machine.advanced.reset answers).1.tick answers.pollClock =
      ((machine.reset answers).1, []) := by
    rw [still]
    exact tick_fresh machine.dialect answers
  rw [step_decoded answers decoded, obey_running answers machine .softReset nofun]
  simp only [execute, ticked, List.append_nil]
  rfl

theorem startsOver_of_reset {machine : Machine} {answers : Answers} {operation : Operation}
    (left : (machine.perform operation).machine = (machine.reset answers).1)
    (asked : calls (machine.perform operation).events = calls (machine.reset answers).2) :
    machine.StartsOver answers operation where
  machine := left.trans (reset_machine answers machine)
  calls := by
    have wide : machine.plane.width = 128 ↔ ¬machine.plane.resolution = .low := by
      rw [Plane.width]
      cases machine.plane.resolution <;> decide
    rw [asked, reset_calls]
    simp only [wide, ne_eq, ite_not]
    rfl
  later rest := by
    rw [← reset_machine, ← left]
    rfl

/-- A reset leaves just what a new machine is like, whatever the machine was. So does a program
that asks for one, if no time passes meanwhile, and nothing that happens later tells the
difference. -/
theorem reset_starts_over (machine : Machine) (answers : Answers) :
    (∀ other, Pristine machine.dialect answers other ↔
      other = (boot machine.dialect answers).1) ∧
    machine.StartsOver answers (.reset answers) ∧
    (machine.fetch = 0x0101 → machine.dialect.hostExtensions = true →
      answers.pollClock = answers.resetClock →
      machine.StartsOver answers (.step answers) ∧
        (machine.perform (.step answers)).reply = .stepped .running) := by
  refine ⟨fun other => ⟨?_, ?_⟩, startsOver_of_reset rfl rfl, ?_⟩
  · intro pristine
    exact pristine.unique (fresh_pristine machine.dialect answers)
  · rintro rfl
    exact fresh_pristine machine.dialect answers
  · intro fetched extended still
    have stepped := step_softReset answers machine fetched extended still
    have performed : machine.perform (.step answers) =
        { machine := (machine.reset answers).1
          events := .note (.executing machine.counter machine.fetch .softReset)
            :: (machine.reset answers).2
          reply := .stepped .running } := by
      rw [perform_ok stepped]
    rw [performed]
    exact ⟨startsOver_of_reset (by rw [performed]) (by rw [performed]; rfl), rfl⟩

/-- A program that sounds the tone on a wide screen, deep in its calls, and starts itself over. -/
theorem reset_starts_over_sounding :
    let answers : Answers :=
      { resetClock := 5, pollClock := 5, held := fun _ => false, rom := { bytes := #[0x01, 0x01] },
        words := .cycling #[] }
    let machine : Machine :=
      { fresh { hostExtensions := true } answers with
        registers := { index := 0xFFFF, delay := 9, sound := 3 }
        stack := { pointer := 15 }
        plane := Plane.resize {} .high }
    machine.fetch = 0x0101 ∧
    machine.StartsOver answers (.step answers) ∧
    calls (machine.perform (.step answers)).events =
      [.takeWords, .endTone, .resized .low, .loadProgram 3584 2] := by
  intro answers machine
  have fetched : machine.fetch = 0x0101 := by
    simp only [machine, fresh, fetch, Memory.readWord, Memory.read, get_eq_getElem, Memory.load,
      Memory.blank, Vector.getElem_mapIdx, Vector.getElem_replicate]
    decide
  obtain ⟨-, -, soft⟩ := reset_starts_over machine answers
  obtain ⟨starts, -⟩ := soft fetched rfl rfl
  refine ⟨fetched, starts, ?_⟩
  rw [starts.calls]
  rfl

end Machine

end Chip8
