import Chip8.Proofs.Opcodes
import Chip8.Proofs.Session

/-!
# Refused and final steps

A step is refused for what the counter points at and for nothing else: two
bytes that are no opcode, or one of the three that address the host where the
dialect forbids it. A refusal is as if nothing had happened, so it is repeated
for as long as the host does no more than to try again and to look at the
screen. A program that exits has moved past its last opcode, and that is all.
-/
namespace Chip8

theorem toNat_of_bytes (high low : UInt8) :
    (high.toUInt16 <<< 8 ||| low.toUInt16).toNat = 256 * high.toNat + low.toNat := by
  have bound := high.toNat_lt
  have shifted : (high.toUInt16 <<< 8).toNat = high.toNat <<< 8 := by
    simp [UInt16.toNat_shiftLeft, Nat.shiftLeft_eq]
    omega
  rw [UInt16.toNat_or, shifted, UInt8.toNat_toUInt16,
    ← Nat.shiftLeft_add_eq_or_of_lt low.toNat_lt, Nat.shiftLeft_eq]
  omega

namespace Machine

/-- The two bytes at the counter, the high one first. Each address wraps by itself. -/
def word (machine : Machine) : Nat :=
  256 * (machine.memory.cells.get (Address.ofNat machine.counter.toNat)).toNat
    + (machine.memory.cells.get (Address.ofNat (machine.counter.toNat + 1))).toNat

theorem fetch_toNat (machine : Machine) : machine.fetch.toNat = machine.word := by
  -- Counters wrap at a multiple of the size of memory, so only the cell has to wrap.
  have next : Memory.cell (machine.counter + 1) = Address.ofNat (machine.counter.toNat + 1) := by
    apply Fin.ext
    simp only [Memory.cell, Address.ofNat, Fin.val_ofNat, UInt16.toNat_add]
    change (machine.counter.toNat + 1) % 65536 % 4096 = _
    omega
  rw [fetch, Memory.readWord, toNat_of_bytes, Memory.read, Memory.read, next]
  rfl

/-- The word is no opcode, or one that the dialect forbids. -/
def Refuses (machine : Machine) : Prop :=
  (¬∃ instruction, Instruction.decode (UInt16.ofNat machine.word) = .ok instruction) ∨
    (machine.word = 0x0100 ∨ machine.word = 0x0101 ∨ machine.word = 0x0102) ∧
      machine.dialect.hostExtensions = false

theorem ofNat_word (machine : Machine) : UInt16.ofNat machine.word = machine.fetch := by
  rw [← fetch_toNat, UInt16.ofNat_toNat]

theorem word_eq_iff (machine : Machine) (opcode : UInt16) :
    machine.word = opcode.toNat ↔ machine.fetch = opcode := by
  rw [← fetch_toNat, UInt16.toNat_inj]

theorem hostExtension_iff (machine : Machine) :
    (∃ instruction, Instruction.decode machine.fetch = .ok instruction ∧
      instruction.isHostExtension = true) ↔
    machine.word = 0x0100 ∨ machine.word = 0x0101 ∨ machine.word = 0x0102 := by
  have words : (machine.word = 0x0100 ∨ machine.word = 0x0101 ∨ machine.word = 0x0102) ↔
      machine.fetch = 0x0100 ∨ machine.fetch = 0x0101 ∨ machine.fetch = 0x0102 :=
    or_congr (machine.word_eq_iff 0x0100)
      (or_congr (machine.word_eq_iff 0x0101) (machine.word_eq_iff 0x0102))
  simp only [words, Instruction.isHostExtension_iff, ← Instruction.decode_setFrequency_iff,
    ← Instruction.decode_softReset_iff, ← Instruction.decode_setColours_iff, and_or_left,
    exists_or, exists_eq_right]

theorem decode_refused_iff (machine : Machine) :
    (∃ fault, machine.dialect.decode machine.fetch = .error fault) ↔ machine.Refuses := by
  rw [Refuses, ← hostExtension_iff, ofNat_word]
  constructor
  · rintro ⟨fault, refused⟩
    by_cases decodes : ∃ instruction, Instruction.decode machine.fetch = .ok instruction
    · right
      obtain ⟨instruction, decoded⟩ := decodes
      -- Only the dialect can have refused what does decode.
      have forbidden : ¬(instruction.isHostExtension = true →
          machine.dialect.hostExtensions = true) := fun permitted => by
        rw [Dialect.decode_eq_ok_iff.mpr ⟨decoded, permitted⟩] at refused
        cases refused
      rw [Classical.not_imp, Bool.not_eq_true] at forbidden
      exact ⟨⟨instruction, decoded, forbidden.1⟩, forbidden.2⟩
    · exact Or.inl decodes
  · intro refuses
    cases known : machine.dialect.decode machine.fetch with
    | error fault => exact ⟨fault, rfl⟩
    | ok instruction =>
      obtain ⟨decoded, permitted⟩ := Dialect.decode_eq_ok_iff.mp known
      exfalso
      rcases refuses with undecoded | ⟨⟨other, decoded', extended⟩, forbidden⟩
      · exact undecoded ⟨instruction, decoded⟩
      · obtain rfl : instruction = other := Except.ok.inj (decoded.symm.trans decoded')
        rw [permitted extended] at forbidden
        cases forbidden

theorem step_eq_error_iff (machine : Machine) (answers : Answers) (fault : Fault) :
    machine.step answers = .error fault ↔
      machine.dialect.decode machine.fetch = .error fault := by
  cases known : machine.dialect.decode machine.fetch with
  | error other => rw [step_refused answers known]; simp
  | ok instruction => rw [step_decoded answers known]; simp

end Machine

namespace Operation

def isReset : Operation → Bool
  | reset _ => true
  | step _ | refresh => false

def isRefresh : Operation → Bool
  | refresh => true
  | step _ | reset _ => false

/-- The reply of a machine that refuses to step. -/
def refusedWith (fault : Fault) : Operation → Reply
  | step _ => .refused fault
  | reset _ | refresh => .done

end Operation

namespace Machine

/-- Trying again and refreshing leads nowhere. All that may happen is that the plane is shown. -/
theorem run_refused {machine : Machine} {fault : Fault} {operations : List Operation}
    (refused : machine.dialect.decode machine.fetch = .error fault)
    (resetless : ∀ operation ∈ operations, operation.isReset = false) :
    let after := machine.run operations
    let refreshed := operations.any Operation.isRefresh
    after.replies = operations.map (Operation.refusedWith fault) ∧
    after.machine = (if refreshed then { machine with plane := machine.plane.shown } else machine) ∧
    calls after.events =
      if refreshed ∧ machine.plane.dirty then [.draw machine.plane.visible] else [] := by
  -- For every machine that refuses at once, as a refresh leads from one to another of them.
  induction operations generalizing machine with
  | nil => exact ⟨rfl, rfl, rfl⟩
  | cons operation rest ih =>
    rw [List.forall_mem_cons] at resetless
    cases operation with
    | reset answers => cases resetless.1
    | step answers =>
      obtain ⟨replies, left, asked⟩ := ih refused resetless.2
      have performed : machine.perform (.step answers) =
          { machine, events := [], reply := .refused fault } := by
        rw [perform_error (step_refused answers refused)]
      simp only [run, performed, List.nil_append, List.map_cons, List.any_cons, replies, left,
        asked]
      exact ⟨rfl, rfl, rfl⟩
    | refresh =>
      -- The shown plane is clean, so no later refresh has anything to show.
      have shown : machine.refresh.1 = { machine with plane := machine.plane.shown } :=
        refresh_eq machine
      have refused' : machine.refresh.1.dialect.decode machine.refresh.1.fetch = .error fault := by
        rw [shown]
        exact refused
      obtain ⟨replies, left, asked⟩ := ih refused' resetless.2
      have same : machine.refresh.1.plane.shown = machine.plane.shown := by
        rw [shown]
        rfl
      have clean : machine.refresh.1.plane.dirty = false := by
        rw [shown]
        rfl
      refine ⟨congrArg _ replies, ?_, ?_⟩
      · simp only [run, perform, left, same]
        rw [shown]
        simp [Operation.isRefresh]
      · simp only [run, perform, calls_append, asked, clean, refresh_calls]
        simp [Operation.isRefresh]

theorem obey_outcome (answers : Answers) (machine : Machine) (instruction : Instruction) :
    (machine.obey answers instruction).outcome =
      if instruction = .exit then .exited else .running := by
  split
  next leaves =>
    rw [leaves]
    rfl
  next runs => rw [obey_running answers machine instruction runs]

theorem step_exits_iff (machine : Machine) (answers : Answers) :
    (∃ turn, machine.step answers = .ok turn ∧ turn.outcome = .exited) ↔
      machine.word = 0x00FD := by
  have exits : machine.word = 0x00FD ↔ machine.fetch = 0x00FD := machine.word_eq_iff 0x00FD
  rw [exits, ← Instruction.decode_exit_iff]
  cases known : machine.dialect.decode machine.fetch with
  | error fault =>
    rw [step_refused answers known]
    constructor
    · rintro ⟨turn, stepped, -⟩
      cases stepped
    · intro decoded
      -- Exiting is no extension, so no dialect refuses it.
      rw [Dialect.decode_eq_ok_iff.mpr ⟨decoded, nofun⟩] at known
      cases known
  | ok instruction =>
    rw [step_decoded answers known, (Dialect.decode_eq_ok_iff.mp known).1]
    simp [obey_outcome]

/-- A step is refused for the word at the counter alone, without a trace, and so is every later
one. A step that exits moves the counter past the word and does nothing else. -/
theorem refused_steps_repeat (machine : Machine) (answers : Answers) :
    ((∃ fault, machine.step answers = .error fault) ↔ machine.Refuses) ∧
    (∀ fault, machine.step answers = .error fault →
      fault.opcode.toNat = machine.word ∧
      machine.perform (.step answers) = { machine, events := [], reply := .refused fault } ∧
      ∀ operations : List Operation, (∀ operation ∈ operations, operation.isReset = false) →
        let after := machine.run operations
        let refreshed := operations.any Operation.isRefresh
        after.replies = operations.map (Operation.refusedWith fault) ∧
        after.machine =
          (if refreshed then { machine with plane := machine.plane.shown } else machine) ∧
        calls after.events =
          if refreshed ∧ machine.plane.dirty then [.draw machine.plane.visible] else []) ∧
    ((∃ turn, machine.step answers = .ok turn ∧ turn.outcome = .exited) ↔
      machine.word = 0x00FD) ∧
    (∀ turn, machine.step answers = .ok turn → turn.outcome = .exited →
      turn.machine = { machine with counter := machine.counter + 2 } ∧ calls turn.events = []) := by
  refine ⟨?_, ?_, step_exits_iff machine answers, ?_⟩
  · simp only [step_eq_error_iff]
    exact decode_refused_iff machine
  · intro fault stepped
    have refused := (step_eq_error_iff machine answers fault).mp stepped
    refine ⟨?_, ?_, fun operations resetless => run_refused refused resetless⟩
    · rw [Dialect.opcode_of_decode refused, fetch_toNat]
    · exact perform_error stepped
  · intro turn stepped leaves
    cases known : machine.dialect.decode machine.fetch with
    | error fault =>
      rw [step_refused answers known] at stepped
      cases stepped
    | ok instruction =>
      rw [step_decoded answers known] at stepped
      cases stepped
      obtain rfl : instruction = .exit := by
        by_contra runs
        rw [obey_outcome, if_neg runs] at leaves
        cases leaves
      exact ⟨rfl, rfl⟩

/-- An opcode that starts in the last byte of memory and ends in the first, at a time when the tone
is about to end, and one that addresses the host of a machine that is told not to. -/
theorem refused_steps_repeat_wrapped :
    let answers : Answers :=
      { resetClock := 0, pollClock := 99999999, held := fun _ => true,
        rom := { bytes := #[0x01, 0x01] }, words := .cycling #[] }
    let hostile := fresh {} answers
    let machine : Machine :=
      { hostile with counter := 0xFFFF, registers := { sound := 1 } }
    let again : List Operation := [.refresh, .step answers, .refresh, .step answers]
    machine.step answers = .error (.invalidOpcode 0x00F0) ∧
    (machine.run again).replies =
      [.done, .refused (.invalidOpcode 0x00F0), .done, .refused (.invalidOpcode 0x00F0)] ∧
    (machine.run again).machine.registers.sound = 1 ∧
    hostile.Refuses ∧
    ∃ fault, hostile.step answers = .error fault ∧ fault.opcode.toNat = 0x0101 := by
  intro answers hostile machine again
  have wrapped : machine.fetch = 0x00F0 := by
    simp only [machine, hostile, fresh, fetch, Memory.readWord, Memory.read, get_eq_getElem,
      Memory.load, Memory.blank, Vector.getElem_mapIdx, Vector.getElem_replicate]
    decide
  have addressed : hostile.fetch = 0x0101 := by
    simp only [hostile, fresh, fetch, Memory.readWord, Memory.read, get_eq_getElem, Memory.load,
      Memory.blank, Vector.getElem_mapIdx, Vector.getElem_replicate]
    decide
  have refused : machine.step answers = .error (.invalidOpcode 0x00F0) :=
    step_refused answers (by rw [wrapped]; rfl)
  have forbidden : hostile.step answers = .error (.invalidOpcode 0x0101) :=
    step_refused answers (by rw [addressed]; rfl)
  obtain ⟨-, -, repeats⟩ := (refused_steps_repeat machine answers).2.1 _ refused
  obtain ⟨replies, left, -⟩ := repeats again (by decide)
  obtain ⟨refuses, carries, -, -⟩ := refused_steps_repeat hostile answers
  refine ⟨refused, replies, ?_, refuses.mp ⟨_, forbidden⟩, _, forbidden, ?_⟩
  · rw [left]
    rfl
  · rw [(carries _ forbidden).1, ← fetch_toNat, addressed]
    rfl

end Machine

end Chip8
