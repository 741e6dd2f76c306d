import Chip8.Proofs.Session

/-!
# Twelve bit addresses

The counter, the index and the saved return addresses have sixteen bits, but
memory has only 4096 cells and each access cuts its address to twelve bits by
itself. So machines that differ in the upper bits of these words alone step
alike: they get the same replies, ask the host for the same and go on to differ
in nothing else. The upper bits show in notes and snapshots only.

A machine like another one is that machine with other addresses. An instruction
that does not work with addresses cannot tell the two apart by definition, and
the others are checked one by one.
-/
namespace Chip8

/-- Words that address the same cell of memory. -/
def SameCell (one other : UInt16) : Prop := one.toNat % 4096 = other.toNat % 4096

instance (one other : UInt16) : Decidable (SameCell one other) :=
  inferInstanceAs (Decidable (_ = _))

namespace SameCell

variable {one other : UInt16}

theorem add (same : SameCell one other) (count : UInt16) :
    SameCell (one + count) (other + count) := by
  unfold SameCell at *
  rw [UInt16.toNat_add, UInt16.toNat_add]
  omega

theorem sub (same : SameCell one other) (count : UInt16) :
    SameCell (one - count) (other - count) := by
  unfold SameCell at *
  rw [UInt16.toNat_sub, UInt16.toNat_sub]
  have := count.toNat_lt
  omega

theorem cell (same : SameCell one other) : Memory.cell other = Memory.cell one :=
  Fin.ext same.symm

theorem read (same : SameCell one other) (memory : Memory) :
    memory.read other = memory.read one := by
  rw [Memory.read, same.cell, Memory.read]

theorem readWord (same : SameCell one other) (memory : Memory) :
    memory.readWord other = memory.readWord one := by
  rw [Memory.readWord, same.read, (same.add 1).read, Memory.readWord]

theorem writeFrom (same : SameCell one other) (memory : Memory) (bytes : List UInt8) :
    memory.writeFrom other bytes = memory.writeFrom one bytes := by
  induction bytes generalizing memory one other with
  | nil => rfl
  | cons byte rest ih =>
    have written : memory.write other byte = memory.write one byte := by
      simp only [Memory.write, same.cell]
    rw [Memory.writeFrom, written, ih (same.add 1), Memory.writeFrom]

end SameCell

namespace Machine

/-- The addresses that a machine holds outside its memory. -/
structure Addresses where
  counter : UInt16
  index : UInt16
  slots : Bank UInt16

structure Addresses.Same (one other : Addresses) : Prop where
  counter : SameCell one.counter other.counter
  index : SameCell one.index other.index
  slot (place : Nibble) : SameCell (one.slots.get place) (other.slots.get place)

def addresses (machine : Machine) : Addresses where
  counter := machine.counter
  index := machine.registers.index
  slots := machine.stack.slots

/-- The machine with other addresses and all else as it is. -/
def readdress (machine : Machine) (addresses : Addresses) : Machine :=
  { machine with
    counter := addresses.counter
    registers := { machine.registers with index := addresses.index }
    stack := { machine.stack with slots := addresses.slots } }

/-- Machines that differ in the upper bits of their addresses alone. -/
structure Alike (one other : Machine) : Prop where
  addresses : one.addresses.Same other.addresses
  rest : other = one.readdress other.addresses

end Machine

/-- Turns that the host cannot tell apart, with machines that differ in upper bits alone. -/
structure Turn.Alike (one other : Turn) : Prop where
  outcome : one.outcome = other.outcome
  calls : calls one.events = calls other.events
  machine : one.machine.Alike other.machine

namespace Machine

theorem Alike.refl (machine : Machine) : machine.Alike machine := ⟨⟨rfl, rfl, fun _ => rfl⟩, rfl⟩

section

variable {machine : Machine} {addresses : Addresses} (same : machine.addresses.Same addresses)
include same

theorem goTo_alike {one other : UInt16} (cell : SameCell one other) :
    (machine.goTo one).Alike ((machine.readdress addresses).goTo other) :=
  ⟨⟨cell, same.index, same.slot⟩, rfl⟩

theorem pointAt_alike {one other : UInt16} (cell : SameCell one other) :
    (machine.pointAt one).Alike ((machine.readdress addresses).pointAt other) :=
  ⟨⟨same.counter, cell, same.slot⟩, rfl⟩

theorem advanced_same :
    machine.advanced.addresses.Same (machine.readdress addresses).advanced.addresses :=
  ⟨same.counter.add 2, same.index, same.slot⟩

theorem skipIf_alike (condition : Bool) :
    (machine.skipIf condition).Alike ((machine.readdress addresses).skipIf condition) := by
  cases condition with
  | false => exact ⟨same, rfl⟩
  | true => exact goTo_alike same (same.counter.add 2)

theorem sprite_readdress (height : Nibble) :
    (machine.readdress addresses).sprite height = machine.sprite height := by
  have bytes : (fun place => machine.memory.read (addresses.index + UInt16.ofNat place)) =
      fun place => machine.memory.read (machine.registers.index + UInt16.ofNat place) := by
    funext place
    exact (same.index.add _).read machine.memory
  simp only [sprite, readdress, bytes]

theorem drawSprite_alike (x y height : Nibble) : (machine.drawSprite x y height).Alike
    ((machine.readdress addresses).drawSprite x y height) := by
  simp only [drawSprite_eq, sprite_readdress same]
  exact ⟨same, rfl⟩

theorem store_alike (bytes : List UInt8) :
    (machine.store bytes).Alike ((machine.readdress addresses).store bytes) := by
  have written : machine.memory.writeFrom addresses.index bytes =
      machine.memory.writeFrom machine.registers.index bytes :=
    same.index.writeFrom machine.memory bytes
  simp only [store, readdress, written]
  exact ⟨same, rfl⟩

theorem loadRegisters_alike (x : Nibble) :
    (machine.loadRegisters x).Alike ((machine.readdress addresses).loadRegisters x) := by
  have read (place : Nibble) :
      machine.memory.read (addresses.index + UInt16.ofNat place.val) =
        machine.memory.read (machine.registers.index + UInt16.ofNat place.val) :=
    (same.index.add _).read machine.memory
  have loaded : ((machine.readdress addresses).loadRegisters x).registers.v =
      (machine.loadRegisters x).registers.v := by
    simp only [loadRegisters, readdress, Registers.get, read]
  rw [loadRegisters_eq machine, loadRegisters_eq (machine.readdress addresses), loaded]
  generalize (machine.loadRegisters x).registers.v = v
  exact ⟨same, rfl⟩

theorem awaitKey_alike (held : Nibble → Bool) (x : Nibble) :
    (machine.awaitKey held x).Alike ((machine.readdress addresses).awaitKey held x) := by
  simp only [awaitKey]
  cases (List.finRange 16).find? held with
  | some key => exact ⟨rfl, rfl, same, rfl⟩
  | none => exact ⟨rfl, rfl, goTo_alike same (same.counter.sub 2)⟩

/-- The call saves the counter, so a slot comes to differ in upper bits. -/
theorem call_alike (nnn : Address) (answers : Answers) :
    (execute answers machine (.call nnn)).Alike
      (execute answers (machine.readdress addresses) (.call nnn)) := by
  refine ⟨rfl, rfl, ⟨⟨rfl, same.index, fun place => ?_⟩, rfl⟩⟩
  change SameCell ((machine.stack.slots.put machine.stack.pointer machine.counter).get place)
    ((addresses.slots.put machine.stack.pointer addresses.counter).get place)
  rw [Bank.get_put, Bank.get_put]
  split
  · exact same.counter
  · exact same.slot place

theorem execute_alike (answers : Answers) (instruction : Instruction) :
    (execute answers machine instruction).Alike
      (execute answers (machine.readdress addresses) instruction) := by
  cases instruction with
  -- The slot under the pointer goes to the counter with whatever upper bits it holds.
  | returnFromCall => exact ⟨rfl, rfl, ⟨same.slot _, same.index, same.slot⟩, rfl⟩
  | softReset => exact ⟨rfl, rfl, .refl _⟩
  | jump nnn => exact ⟨rfl, rfl, goTo_alike same rfl⟩
  | call nnn => exact call_alike same nnn answers
  | jumpOffset nnn => exact ⟨rfl, rfl, goTo_alike same rfl⟩
  | skipIfByte | skipUnlessByte | skipIfEqual | skipUnlessEqual | skipIfKey | skipUnlessKey =>
    exact ⟨rfl, rfl, skipIf_alike same _⟩
  | setIndex nnn => exact ⟨rfl, rfl, pointAt_alike same rfl⟩
  | draw x y height => exact ⟨rfl, rfl, drawSprite_alike same x y height⟩
  | awaitKey x => exact awaitKey_alike same answers.held x
  | addToIndex x => exact ⟨rfl, rfl, pointAt_alike same (same.index.add _)⟩
  | pointAtGlyph x => exact ⟨rfl, rfl, pointAt_alike same rfl⟩
  | storeDecimal | saveRegisters => exact ⟨rfl, rfl, store_alike same _⟩
  | loadRegisters x => exact ⟨rfl, rfl, loadRegisters_alike same x⟩
  -- The rest neither reads nor writes an address.
  | _ => exact ⟨rfl, rfl, same, rfl⟩

theorem fetch_readdress : (machine.readdress addresses).fetch = machine.fetch :=
  same.counter.readWord machine.memory

end

theorem tick_addresses (now : Instant) (machine : Machine) :
    (machine.tick now).1.addresses = machine.addresses := by
  simp only [tick_eq, addresses]
  cases (machine.gate.poll now).2 <;> rfl

theorem Alike.tick {one other : Machine} (alike : one.Alike other) (now : Instant) :
    calls (one.tick now).2 = calls (other.tick now).2 ∧
      (one.tick now).1.Alike (other.tick now).1 := by
  rw [alike.rest, tick_calls, tick_calls]
  refine ⟨rfl, ?_, ?_⟩
  · rw [tick_addresses, tick_addresses]
    exact alike.addresses
  · simp only [tick_eq, readdress]
    cases (one.gate.poll now).2 <;> rfl

theorem Alike.obey {one other : Machine} (alike : one.Alike other) (answers : Answers)
    (instruction : Instruction) :
    (one.obey answers instruction).Alike (other.obey answers instruction) := by
  have executed : (execute answers one.advanced instruction).Alike
      (execute answers other.advanced instruction) := by
    have same := advanced_same alike.addresses
    rw [← alike.rest] at same
    have advanced : other.advanced = one.advanced.readdress other.advanced.addresses := by
      rw [alike.rest]
      rfl
    rw [advanced]
    exact execute_alike same answers instruction
  by_cases leaves : instruction = .exit
  · rw [leaves] at executed ⊢
    exact ⟨rfl, rfl, executed.machine⟩
  · obtain ⟨ticks, machine⟩ := executed.machine.tick answers.pollClock
    rw [obey_running answers one instruction leaves, obey_running answers other instruction leaves]
    refine ⟨rfl, ?_, machine⟩
    simp only [calls_note, calls_append, executed.calls, ticks]

/-- What two attempts at a step have in common: the fault, or the turn up to upper bits. -/
inductive StepsAlike : Except Fault Turn → Except Fault Turn → Prop
  | refused (fault : Fault) : StepsAlike (.error fault) (.error fault)
  | taken {one other : Turn} (alike : one.Alike other) : StepsAlike (.ok one) (.ok other)

theorem Alike.step {one other : Machine} (alike : one.Alike other) (answers : Answers) :
    StepsAlike (one.step answers) (other.step answers) := by
  have fetched : other.fetch = one.fetch := by
    rw [alike.rest]
    exact fetch_readdress alike.addresses
  have dialect : other.dialect = one.dialect := by
    rw [alike.rest]
    rfl
  have alike' : other.dialect.decode other.fetch = one.dialect.decode one.fetch := by
    rw [fetched, dialect]
  cases decoded : one.dialect.decode one.fetch with
  | error fault =>
    rw [step_refused answers decoded, step_refused answers (alike'.trans decoded)]
    exact .refused fault
  | ok instruction =>
    rw [step_decoded answers decoded, step_decoded answers (alike'.trans decoded)]
    exact .taken (alike.obey answers instruction)

theorem Alike.perform {one other : Machine} (alike : one.Alike other) (operation : Operation) :
    (one.perform operation).reply = (other.perform operation).reply ∧
      calls (one.perform operation).events = calls (other.perform operation).events ∧
      (one.perform operation).machine.Alike (other.perform operation).machine := by
  cases operation with
  | step answers =>
    have steps := alike.step answers
    -- Nothing but how the two attempts compare matters from here on.
    generalize first : one.step answers = former at steps
    generalize second : other.step answers = latter at steps
    cases steps with
    | refused fault =>
      rw [perform_error first, perform_error second]
      exact ⟨rfl, rfl, alike⟩
    | taken turns =>
      rw [perform_ok first, perform_ok second]
      exact ⟨congrArg Reply.stepped turns.outcome, turns.calls, turns.machine⟩
  | reset answers =>
    -- A new machine has no old addresses.
    rw [alike.rest]
    exact ⟨rfl, rfl, .refl _⟩
  | refresh =>
    simp only [Machine.perform, refresh_calls, refresh_eq, true_and]
    rw [alike.rest]
    exact ⟨rfl, alike.addresses, rfl⟩

theorem Alike.run {one other : Machine} (alike : one.Alike other) (operations : List Operation) :
    (one.run operations).replies = (other.run operations).replies ∧
      calls (one.run operations).events = calls (other.run operations).events ∧
      (one.run operations).machine.Alike (other.run operations).machine := by
  induction operations generalizing one other with
  | nil => exact ⟨rfl, rfl, alike⟩
  | cons operation rest ih =>
    obtain ⟨reply, asked, next⟩ := alike.perform operation
    obtain ⟨replies, askedLater, last⟩ := ih next
    simp only [Machine.run, calls_append, reply, asked, replies, askedLater, true_and]
    exact last

/-- The upper four bits of the counter, the index and the return addresses cannot be observed: not
in a step, and not in any run of operations. -/
theorem upper_bits_unobservable {one other : Machine} (alike : one.Alike other) :
    (∀ answers, StepsAlike (one.step answers) (other.step answers)) ∧
    ∀ operations,
      (one.run operations).replies = (other.run operations).replies ∧
      calls (one.run operations).events = calls (other.run operations).events ∧
      (one.run operations).machine.Alike (other.run operations).machine :=
  ⟨alike.step, alike.run⟩

/-- A new machine and one whose addresses all lie beyond the memory. -/
theorem upper_bits_unobservable_beyond :
    let answers : Answers :=
      { resetClock := 0, pollClock := 0, held := fun _ => false, rom := { bytes := #[0x22, 0x00] },
        words := .cycling #[] }
    let one := (boot {} answers).1
    let other := one.readdress
      { counter := 0x1200, index := 0xF000, slots := Vector.replicate 16 0x3000 }
    one.Alike other ∧ one.counter ≠ other.counter ∧
    StepsAlike (one.step answers) (other.step answers) ∧
    ∀ operations, (one.run operations).replies = (other.run operations).replies := by
  intro answers one other
  have alike : one.Alike other := by
    refine ⟨⟨?_, ?_, ?_⟩, rfl⟩
    · decide
    · decide
    · decide
  have unobservable := upper_bits_unobservable alike
  exact ⟨alike, by decide, unobservable.1 answers, fun operations => (unobservable.2 operations).1⟩

end Machine

end Chip8
