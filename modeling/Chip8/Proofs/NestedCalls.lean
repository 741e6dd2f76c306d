import Chip8.Proofs.Footprint
import Chip8.Proofs.Restart
import Mathlib.Data.List.Infix

/-!
# Nested calls

The call stack is a ring of sixteen slots, so it never runs out of them, but
forgets. What it does not forget is its last sixteen entries: they are always
those that a stack without a limit has on top, wherever in the ring they lie.
A push writes to a slot that none of the fifteen entries before it lies in, and
a pop takes the top away and leaves the others where they are.

So an entry is safe as long as no more than fifteen others come on top of it.
A call leaves its return address as an entry, and the matching return finds it
if the calls between the two are nested no deeper than that.
-/
namespace Chip8

/-- What can be done to a call stack. -/
inductive StackMove
  | push (address : UInt16)
  | pop
deriving DecidableEq, Repr

namespace StackMove

def rise : StackMove → Int
  | push _ => 1
  | pop => -1

/-- How many entries moves add to those that were there. -/
def height : List StackMove → Int
  | [] => 0
  | move :: rest => move.rise + height rest

/-- Moves that take away all that they add and nothing else, and that never have more than `most`
entries outstanding. -/
structure Nested (most : Nat) (moves : List StackMove) : Prop where
  within (early : List StackMove) : early <+: moves → 0 ≤ height early ∧ height early ≤ most
  level : height moves = 0

theorem nested_iff {most : Nat} {moves : List StackMove} : Nested most moves ↔
    (∀ early ∈ moves.inits, 0 ≤ height early ∧ height early ≤ most) ∧ height moves = 0 := by
  simp only [List.mem_inits]
  exact ⟨fun nested => ⟨nested.within, nested.level⟩, fun both => ⟨both.1, both.2⟩⟩

instance (most : Nat) (moves : List StackMove) : Decidable (Nested most moves) :=
  decidable_of_iff' _ nested_iff

end StackMove

namespace CallStack

open StackMove

/-- Moves one after the other, and what the pops among them return. -/
def moved (stack : CallStack) : List StackMove → CallStack × List UInt16
  | [] => (stack, [])
  | .push address :: rest => (stack.push address).moved rest
  | .pop :: rest =>
    let (address, stack) := stack.pop
    let (stack, popped) := stack.moved rest
    (stack, address :: popped)

/-- The latest entries, from the top. Nothing is known of the other slots. -/
structure Holds (stack : CallStack) (entries : List UInt16) : Prop where
  few : entries.length ≤ 16
  entry (depth : Nat) (slot : Nibble) : depth < entries.length →
    (slot.val + depth + 1) % 16 = stack.pointer.val →
    entries[depth]? = some (stack.slots.get slot)

section

variable (stack : CallStack)

theorem moved_append (first second : List StackMove) :
    stack.moved (first ++ second) =
      (((stack.moved first).1.moved second).1,
        (stack.moved first).2 ++ ((stack.moved first).1.moved second).2) := by
  induction first generalizing stack with
  | nil => rfl
  | cons move rest ih =>
    cases move with
    | push address => exact ih (stack.push address)
    | pop => simp only [List.cons_append, moved, ih]

theorem moved_pushes (addresses : List UInt16) : (stack.moved (addresses.map .push)).2 = [] := by
  induction addresses generalizing stack with
  | nil => rfl
  | cons address rest ih => exact ih (stack.push address)

theorem push_pointer (address : UInt16) :
    (stack.push address).pointer.val = (stack.pointer.val + 1) % 16 := rfl

theorem pop_pointer : (stack.pop.2.pointer.val + 1) % 16 = stack.pointer.val := by
  have back : ∀ pointer : Nibble, ((pointer - 1).val + 1) % 16 = pointer.val := by decide
  exact back stack.pointer

/-- The pointer tells the number of entries, up to whole rounds of the ring. -/
theorem moved_pointer (moves : List StackMove) :
    ((stack.moved moves).1.pointer.val : Int) = (stack.pointer.val + height moves) % 16 := by
  induction moves generalizing stack with
  | nil =>
    have bound := stack.pointer.isLt
    simp only [moved, height]
    omega
  | cons move rest ih =>
    cases move with
    | push address =>
      have up := stack.push_pointer address
      simp only [moved, ih, height, rise]
      omega
    | pop =>
      have down := stack.pop_pointer
      simp only [moved, ih, height, rise]
      omega

theorem holds_nil : stack.Holds [] where
  few := Nat.zero_le 16
  entry _ _ inside := absurd inside (Nat.not_lt_zero _)

end

namespace Holds

variable {stack : CallStack} {entries above base : List UInt16}

/-- A push adds an entry. If there were sixteen, the oldest is lost. -/
theorem push (holds : stack.Holds entries) (address : UInt16) :
    (stack.push address).Holds ((address :: entries).take 16) where
  few := List.length_take_le 16 _
  entry depth slot inside there := by
    have bound := slot.isLt
    have pointer := stack.pointer.isLt
    have written := Bank.get_put stack.slots stack.pointer slot address
    rw [List.length_take, List.length_cons] at inside
    rw [push_pointer] at there
    rw [List.getElem?_take_of_lt (by omega)]
    cases depth with
    | zero =>
      rw [if_pos (Fin.ext (by omega))] at written
      rw [CallStack.push, written]
      rfl
    | succ depth =>
      -- Fifteen entries or fewer lie below the top, so none of them is in the slot of the top.
      have differs : stack.pointer ≠ slot := fun same => by
        rw [same] at there
        omega
      rw [if_neg differs] at written
      rw [CallStack.push, written]
      exact holds.entry depth slot (by omega) (by omega)

/-- A pop returns the top entry and leaves the others. -/
theorem pop {top : UInt16} (holds : stack.Holds (top :: entries)) :
    stack.pop.1 = top ∧ stack.pop.2.Holds entries := by
  have pointer := stack.pop_pointer
  have few := holds.few
  rw [List.length_cons] at few
  constructor
  · have found := holds.entry 0 (stack.pointer - 1) (Nat.zero_lt_succ _) pointer
    exact (Option.some.inj found).symm
  · refine ⟨by omega, fun depth slot inside there => ?_⟩
    have bound := slot.isLt
    exact holds.entry (depth + 1) slot (Nat.succ_lt_succ inside) (by omega)

theorem pushes (holds : stack.Holds entries) (addresses : List UInt16) :
    (stack.moved (addresses.map .push)).1.Holds ((addresses.reverse ++ entries).take 16) := by
  induction addresses generalizing stack entries with
  | nil =>
    rw [List.reverse_nil, List.nil_append, List.take_of_length_le holds.few]
    exact holds
  | cons address rest ih =>
    have later := ih (holds.push address)
    -- What was lost early would have been lost by now.
    rw [List.take_append, List.take_take, Nat.min_eq_left (Nat.sub_le _ _),
      ← List.take_append] at later
    rw [List.reverse_cons, List.append_assoc]
    exact later

theorem pops (holds : stack.Holds entries) :
    (stack.moved (List.replicate entries.length .pop)).2 = entries := by
  induction entries generalizing stack with
  | nil => rfl
  | cons top rest ih =>
    obtain ⟨returned, later⟩ := holds.pop
    exact congrArg₂ List.cons returned (ih later)

/-- Moves that stay above the lowest entries and within the ring leave these entries alone. -/
theorem moved {moves : List StackMove} (holds : stack.Holds (above ++ base))
    (room : ∀ early, early <+: moves →
      0 ≤ above.length + height early ∧ above.length + base.length + height early ≤ 16) :
    ∃ left : List UInt16, (left.length : Int) = above.length + height moves ∧
      (stack.moved moves).1.Holds (left ++ base) := by
  induction moves generalizing stack above with
  | nil => exact ⟨above, (Int.add_zero _).symm, holds⟩
  | cons move rest ih =>
    have first := room [move] ((List.cons_prefix_cons).mpr ⟨rfl, List.nil_prefix⟩)
    have later (early : List StackMove) (leads : early <+: rest) :=
      room (move :: early) ((List.cons_prefix_cons).mpr ⟨rfl, leads⟩)
    cases move with
    | push address =>
      simp only [height, rise] at first later ⊢
      have fits : (address :: (above ++ base)).length ≤ 16 := by
        rw [List.length_cons, List.length_append]
        omega
      have pushed := holds.push address
      rw [List.take_of_length_le fits, ← List.cons_append] at pushed
      obtain ⟨left, long, kept⟩ := ih pushed fun early leads => by
        have room := later early leads
        rw [List.length_cons]
        omega
      rw [List.length_cons] at long
      exact ⟨left, by omega, kept⟩
    | pop =>
      simp only [height, rise] at first later ⊢
      cases above with
      | nil =>
        -- The pop would have taken an entry that is not to be touched.
        rw [List.length_nil] at first
        omega
      | cons top above =>
        rw [List.length_cons] at later ⊢
        obtain ⟨left, long, kept⟩ := ih holds.pop.2 fun early leads => by
          have room := later early leads
          omega
        exact ⟨left, by omega, kept⟩

end Holds

/-- The pop that matches a push returns what was pushed. -/
theorem pop_of_nested (stack : CallStack) (address : UInt16) {between : List StackMove}
    (nested : Nested 15 between) :
    let inner := ((stack.push address).moved between).1
    inner.pop.1 = address ∧ inner.pop.2.pointer = stack.pointer := by
  have pushed : (stack.push address).Holds ([] ++ [address]) := stack.holds_nil.push address
  obtain ⟨left, long, kept⟩ := pushed.moved fun early leads => by
    have within := nested.within early leads
    simp only [List.length_nil, List.length_singleton]
    omega
  have none : left = [] := by
    rw [nested.level] at long
    exact List.eq_nil_of_length_eq_zero (by simpa using long)
  rw [none] at kept
  refine ⟨kept.pop.1, Fin.ext ?_⟩
  have bound := stack.pointer.isLt
  have pointer := (stack.push address).moved_pointer between
  have up := stack.push_pointer address
  have down := (((stack.push address).moved between).1).pop_pointer
  rw [nested.level] at pointer
  omega

end CallStack

namespace Instruction

variable {opcode : UInt16}

theorem decode_return_iff : decode opcode = .ok .returnFromCall ↔ opcode = 0x00EE :=
  decode_iff_of_single rfl fun _ => rfl

theorem decode_call_iff :
    (∃ nnn, decode opcode = .ok (.call nnn)) ↔ opcode.toNat / 0x1000 = 2 := by
  have nibbles := toNat_eq_nibbles opcode
  constructor
  · rintro ⟨nnn, decoded⟩
    have coded := code_of_decode decoded
    have bound := nnn.isLt
    simp only [code] at coded
    omega
  · intro family
    have family : nibble opcode 3 = 0x2 := Fin.ext (by change _ = 2; omega)
    exact ⟨_, by rw [decode, family]; rfl⟩

end Instruction

namespace Machine

section

variable (machine : Machine)

/-- What an operation does to the call stack. Only calls and returns have a part in it. -/
def stackMove? : Operation → Option StackMove
  | .step _ =>
    if machine.fetch.toNat / 0x1000 = 2 then some (.push (machine.counter + 2))
    else if machine.fetch = 0x00EE then some .pop
    else none
  | .reset _ | .refresh => none

/-- The operation starts the machine over, or the program does. -/
def Restarts : Operation → Prop
  | .step _ => machine.fetch = 0x0101 ∧ machine.dialect.hostExtensions = true
  | .reset _ => True
  | .refresh => False

end

/-- The moves of the call stack in a run. -/
def stackMoves (machine : Machine) : List Operation → List StackMove
  | [] => []
  | operation :: rest =>
    (machine.stackMove? operation).toList ++ (machine.perform operation).machine.stackMoves rest

/-- Nothing in a run starts the machine over. -/
def Unbroken (machine : Machine) : List Operation → Prop
  | [] => True
  | operation :: rest =>
    ¬machine.Restarts operation ∧ (machine.perform operation).machine.Unbroken rest

section

variable {machine : Machine} {answers : Answers} {instruction : Instruction}

theorem execute_stack (hard : instruction ≠ .softReset) (stays : instruction ≠ .returnFromCall)
    (remains : ∀ nnn, instruction ≠ .call nnn) :
    (execute answers machine instruction).machine.stack = machine.stack := by
  by_cases computes : instruction.computes = true
  · rw [execute_computed answers machine computes]
  cases instruction with
  | softReset => exact absurd rfl hard
  | returnFromCall => exact absurd rfl stays
  | call nnn => exact absurd rfl (remains nnn)
  | _ => first | rfl | exact absurd rfl computes

theorem perform_decoded (decoded : Instruction.decode machine.fetch = .ok instruction)
    (plain : instruction.isHostExtension = false) :
    (machine.perform (.step answers)).machine = (machine.obey answers instruction).machine := by
  rw [perform_ok (step_decoded answers (machine.dialect.decode_of_plain plain decoded))]

/-- A call leaves the address past it on the stack. -/
theorem perform_call (fetched : machine.fetch.toNat / 0x1000 = 2) :
    ∃ nnn : Address, Instruction.decode machine.fetch = .ok (.call nnn) ∧
      let left := (machine.perform (.step answers)).machine
      left.stack = machine.stack.push (machine.counter + 2) ∧ left.counter = nnn.toWord ∧
        left.memory = machine.memory := by
  obtain ⟨nnn, decoded⟩ := Instruction.decode_call_iff.mpr fetched
  rw [perform_decoded decoded rfl]
  have same := obey_same answers machine (.call nnn) nofun
  exact ⟨nnn, decoded, same.stack, same.counter, same.memory⟩

/-- A return goes on at the address that it takes from the stack. -/
theorem perform_return (fetched : machine.fetch = 0x00EE) :
    let left := (machine.perform (.step answers)).machine
    left.stack = machine.stack.pop.2 ∧ left.counter = machine.stack.pop.1 ∧
      left.memory = machine.memory := by
  rw [perform_decoded (Instruction.decode_return_iff.mpr fetched) rfl]
  have same := obey_same answers machine .returnFromCall nofun
  exact ⟨same.stack, same.counter, same.memory⟩

theorem perform_stack {operation : Operation} (goesOn : ¬machine.Restarts operation) :
    (machine.perform operation).machine.stack =
      (machine.stack.moved (machine.stackMove? operation).toList).1 := by
  cases operation with
  | reset answers => exact absurd trivial goesOn
  | refresh =>
    change machine.refresh.1.stack = machine.stack
    rw [refresh_eq]
  | step answers =>
    simp only [stackMove?]
    split
    next calls =>
      obtain ⟨_, _, stack, -, -⟩ := @perform_call machine answers calls
      exact stack
    next neither =>
      split
      next returns => exact (perform_return returns).1
      next other =>
        change _ = machine.stack
        cases known : machine.dialect.decode machine.fetch with
        | error fault => rw [perform_error (step_refused answers known)]
        | ok instruction =>
          obtain ⟨decoded, permitted⟩ := Dialect.decode_eq_ok_iff.mp known
          rw [perform_ok (step_decoded answers known)]
          by_cases leaves : instruction = .exit
          · rw [leaves]
            rfl
          rw [(obey_same answers machine instruction leaves).stack]
          -- What could touch the stack has an opcode that was ruled out.
          apply execute_stack
          · rintro rfl
            exact goesOn ⟨Instruction.decode_softReset_iff.mp decoded, permitted rfl⟩
          · rintro rfl
            exact other (Instruction.decode_return_iff.mp decoded)
          · rintro nnn rfl
            exact neither (Instruction.decode_call_iff.mp ⟨nnn, decoded⟩)

end

/-- What a run makes of the call stack, its calls and returns do. -/
theorem run_stack {machine : Machine} {operations : List Operation}
    (unbroken : machine.Unbroken operations) :
    (machine.run operations).machine.stack =
      (machine.stack.moved (machine.stackMoves operations)).1 := by
  induction operations generalizing machine with
  | nil => rfl
  | cons operation rest ih =>
    rw [stackMoves, CallStack.moved_append, ← perform_stack unbroken.1]
    exact ih unbroken.2

/-- The return that matches a call goes on past the call. -/
theorem return_of_nested {machine : Machine} {call back : Answers} {between : List Operation}
    (calls : machine.fetch.toNat / 0x1000 = 2) :
    let called := (machine.perform (.step call)).machine
    called.Unbroken between → StackMove.Nested 15 (called.stackMoves between) →
    let late := (called.run between).machine
    late.fetch = 0x00EE →
    (late.perform (.step back)).machine.counter = machine.counter + 2 := by
  intro called unbroken nested late returns
  obtain ⟨_, _, pushed, -, -⟩ := @perform_call machine call calls
  rw [(perform_return returns).2.1, run_stack unbroken, pushed]
  exact (machine.stack.pop_of_nested _ nested).1

/-- A pop returns what the push that it matches has left, as long as no more than fifteen entries
came on top of it, and after any pushes the last sixteen are found from the top. So a return goes
on past the call that it matches, as long as the calls between them were nested no deeper. -/
theorem nested_calls_return :
    (∀ (stack : CallStack) (before between : List StackMove) (address : UInt16),
      StackMove.Nested 15 between →
      let start := (stack.moved before).1
      let all := stack.moved (before ++ .push address :: (between ++ [.pop]))
      all.2.getLast? = some address ∧ all.1.pointer = start.pointer) ∧
    (∀ (stack : CallStack) (addresses : List UInt16),
      let count := min addresses.length 16
      (stack.moved (addresses.map .push ++ List.replicate count .pop)).2 =
        addresses.reverse.take count) ∧
    ∀ (machine : Machine) (call back : Answers) (between : List Operation),
      machine.fetch.toNat / 0x1000 = 2 →
      let called := (machine.perform (.step call)).machine
      called.Unbroken between → StackMove.Nested 15 (called.stackMoves between) →
      let late := (called.run between).machine
      late.fetch = 0x00EE →
      (late.perform (.step back)).machine.counter.toNat = (machine.counter.toNat + 2) % 65536 := by
  refine ⟨?_, ?_, ?_⟩
  · intro stack before between address nested start all
    obtain ⟨returned, pointer⟩ := start.pop_of_nested address nested
    have split : all = _ := stack.moved_append before (.push address :: (between ++ [.pop]))
    simp only [CallStack.moved, CallStack.moved_append] at split
    rw [split]
    refine ⟨?_, pointer⟩
    rw [← List.append_assoc, List.getLast?_append]
    exact congrArg some returned
  · intro stack addresses count
    have held := stack.holds_nil.pushes addresses
    have long : ((addresses.reverse ++ []).take 16).length = count := by
      simp [count, Nat.min_comm]
    rw [CallStack.moved_append, CallStack.moved_pushes, List.nil_append, ← long, held.pops]
    simp
  · intro machine call back between calls called unbroken nested late returns
    rw [return_of_nested calls unbroken nested returns]
    exact UInt16.toNat_add machine.counter 2

/-- A program that calls 0x204, from there calls 0x206, and from there returns for both calls. -/
theorem return_after_call {machine : Machine} (answers : Answers) (start : machine.counter = 0x200)
    (outer : machine.memory.readWord 0x200 = 0x2204)
    (inner : machine.memory.readWord 0x204 = 0x2206)
    (back : machine.memory.readWord 0x206 = 0x00EE) :
    let called := (machine.perform (.step answers)).machine
    let between : List Operation := [.step answers, .refresh, .step answers]
    machine.fetch = 0x2204 ∧ called.Unbroken between ∧
      called.stackMoves between = [.push 0x206, .pop] ∧
      (called.run between).machine.fetch = 0x00EE := by
  -- The program never changes, so what is fetched depends on the counter alone.
  have fetched {place word : UInt16} {reached : Machine} (counter : reached.counter = place)
      (memory : reached.memory = machine.memory) (there : machine.memory.readWord place = word) :
      reached.fetch = word := by
    rw [fetch, memory, counter, there]
  have first : machine.fetch = 0x2204 := fetched start rfl outer
  obtain ⟨nnn, decoded, -, counter, memory⟩ :=
    @perform_call machine answers (by rw [first]; decide)
  rw [first] at decoded
  cases decoded
  intro called between
  have second : called.fetch = 0x2206 := fetched counter memory inner
  obtain ⟨nnn, decoded, stack, counter', memory'⟩ :=
    @perform_call called answers (by rw [second]; decide)
  rw [second] at decoded
  cases decoded
  generalize deepest : (called.perform (.step answers)).machine = reached at stack counter' memory'
  have memory'' : reached.refresh.1.memory = machine.memory := by
    rw [refresh_eq]
    exact memory'.trans memory
  have third : reached.refresh.1.fetch = 0x00EE := by
    refine fetched ?_ memory'' back
    rw [refresh_eq]
    exact counter'
  obtain ⟨-, counter'', memory₃⟩ := @perform_return reached.refresh.1 answers third
  have pushed : called.counter + 2 = 0x206 := by
    rw [show called.counter = _ from counter]
    rfl
  have run : (called.run between).machine =
      (reached.refresh.1.perform (.step answers)).machine := by
    simp only [between, run, deepest]
    rfl
  refine ⟨first, ⟨?_, ?_, ?_, trivial⟩, ?_, ?_⟩
  · rintro ⟨restarts, -⟩
    rw [second] at restarts
    cases restarts
  · exact id
  · rw [deepest]
    rintro ⟨restarts, -⟩
    cases third.symm.trans restarts
  · have called_moves : called.stackMove? (.step answers) = some (.push 0x206) := by
      rw [stackMove?, second, pushed]
      rfl
    have reached_moves : reached.refresh.1.stackMove? (.step answers) = some .pop := by
      rw [stackMove?, third]
      rfl
    have refreshed : (reached.perform .refresh).machine = reached.refresh.1 := rfl
    simp only [between, stackMoves, called_moves, deepest, refreshed, reached_moves]
    rfl
  · rw [run]
    refine fetched ?_ (memory₃.trans memory'') back
    rw [counter'', refresh_eq, stack, pushed]
    exact (called.stack.holds_nil.push 0x206).pop.1

/-- Fifteen entries on top of one in a ring that they fill, and a call inside a call from the last
slot. -/
theorem nested_calls_return_wrapped :
    let deep := List.replicate 15 (StackMove.push 7) ++ List.replicate 15 .pop
    let answers : Answers :=
      { resetClock := 0, pollClock := 0, held := fun _ => false,
        rom := { bytes := #[0x22, 0x04, 0x00, 0xFD, 0x22, 0x06, 0x00, 0xEE] },
        words := .cycling #[] }
    let machine : Machine := { fresh {} answers with stack := { pointer := 15 } }
    let called := (machine.perform (.step answers)).machine
    let between : List Operation := [.step answers, .refresh, .step answers]
    let late := (called.run between).machine
    (CallStack.moved { pointer := 9 } (.push 5 :: (deep ++ [.pop]))).2.getLast? = some 5 ∧
    called.stackMoves between = [.push 0x206, .pop] ∧ late.fetch = 0x00EE ∧
    (late.perform (.step answers)).machine.counter.toNat = 0x202 := by
  intro deep answers machine called between late
  have loaded : machine.memory.Loaded answers.rom := (fresh_pristine {} answers).memory
  have outer : machine.memory.readWord 0x200 = 0x2204 :=
    (loaded.readWord 0x200 (by decide) (by decide) rfl rfl).trans (by decide)
  have inner : machine.memory.readWord 0x204 = 0x2206 :=
    (loaded.readWord 0x204 (by decide) (by decide) rfl rfl).trans (by decide)
  have back : machine.memory.readWord 0x206 = 0x00EE :=
    (loaded.readWord 0x206 (by decide) (by decide) rfl rfl).trans (by decide)
  obtain ⟨first, unbroken, moves, last⟩ := return_after_call answers rfl outer inner back
  obtain ⟨pops, -, resumes⟩ := nested_calls_return
  refine ⟨(pops { pointer := 9 } [] deep 5 (by decide)).1, moves, last, ?_⟩
  exact resumes machine answers answers between (by rw [first]; decide) unbroken
    (by rw [moves]; decide) last

end Machine

end Chip8
