import Chip8.Proofs.OpcodeTable
import Chip8.Proofs.Session

/-!
# Dialects

The two options of a dialect are seldom noticed. The rule about borrows shows
only where a register is subtracted from another one that holds the same, and
there in the flag alone. The permission to address the host shows only at the
three opcodes that do so. Any other step is the same in every dialect, and so
is a run that takes no such step.

As with addresses and surroundings, a machine in another dialect is that
machine with one part exchanged, which most instructions never look at.
-/
namespace Chip8

namespace Machine

/-- The machine in another dialect. -/
def speaking (machine : Machine) (dialect : Dialect) : Machine := { machine with dialect }

end Machine

def Turn.speaking (turn : Turn) (dialect : Dialect) : Turn :=
  { turn with machine := turn.machine.speaking dialect }

def Response.speaking (response : Response) (dialect : Dialect) : Response :=
  { response with machine := response.machine.speaking dialect }

def History.speaking (history : History) (dialect : Dialect) : History :=
  { history with machine := history.machine.speaking dialect }

namespace Machine

/-- The opcode at the counter is of the form 8xy7, and both registers hold the same. -/
def SubtractsEqual (machine : Machine) : Prop :=
  ∃ x y : Nibble, machine.fetch.toNat = 0x8007 + 0x100 * x.val + 0x10 * y.val ∧
    machine.registers.get x = machine.registers.get y

/-- The opcode at the counter is one of the three that address the host. -/
def AddressesHost (machine : Machine) : Prop :=
  machine.fetch = 0x0100 ∨ machine.fetch = 0x0101 ∨ machine.fetch = 0x0102

/-- The next step meets an option on which the dialect of the machine and another one differ. -/
def Divides (machine : Machine) (other : Dialect) : Prop :=
  machine.dialect.standardBorrow ≠ other.standardBorrow ∧ machine.SubtractsEqual ∨
    machine.dialect.hostExtensions ≠ other.hostExtensions ∧ machine.AddressesHost

end Machine

/-- Dialects that permit the same decode alike, and all dialects do where the host is not
addressed. -/
theorem Dialect.decode_eq_of (one other : Dialect) {opcode : UInt16}
    (alike : one.hostExtensions = other.hostExtensions ∨
      ¬(opcode = 0x0100 ∨ opcode = 0x0101 ∨ opcode = 0x0102)) :
    one.decode opcode = other.decode opcode := by
  rw [decode, decode]
  cases decoded : Instruction.decode opcode with
  | error fault => rfl
  | ok instruction =>
    rcases alike with same | elsewhere
    · rw [same]
    · have plain : instruction.isHostExtension = false := by
        rw [← Bool.not_eq_true, Instruction.isHostExtension_iff]
        rintro (rfl | rfl | rfl)
        · exact elsewhere (Or.inl (Instruction.decode_setFrequency_iff.mp decoded))
        · exact elsewhere (Or.inr (Or.inl (Instruction.decode_softReset_iff.mp decoded)))
        · exact elsewhere (Or.inr (Or.inr (Instruction.decode_setColours_iff.mp decoded)))
      simp only [plain, Bool.false_eq_true, false_and, if_false]

/-- Dialects only disagree about a borrow where both bytes are the same. -/
theorem Dialect.borrow_iff_of (one other : Dialect) {subtracted value : UInt8}
    (alike : subtracted = value → one.standardBorrow = other.standardBorrow) :
    (if one.standardBorrow then subtracted ≤ value else subtracted < value) ↔
      if other.standardBorrow then subtracted ≤ value else subtracted < value := by
  by_cases equal : subtracted = value
  · rw [alike equal]
  · have strict : subtracted ≤ value ↔ subtracted < value :=
      ⟨fun below => UInt8.lt_of_le_of_ne below equal, UInt8.le_of_lt⟩
    simp only [strict, ite_self]

namespace Machine

section

variable (answers : Answers) (machine : Machine) (dialect : Dialect)

theorem skipIf_speaking (condition : Bool) :
    (machine.speaking dialect).skipIf condition =
      (machine.skipIf condition).speaking dialect := by
  cases condition <;> rfl

theorem tick_speaking (now : Instant) : (machine.speaking dialect).tick now =
    ((machine.tick now).1.speaking dialect, (machine.tick now).2) := by
  simp only [tick, speaking]
  split <;> rfl

/-- Of all instructions only one looks at the dialect, and two dialects can only disagree about
equal registers there. -/
theorem execute_speaking {instruction : Instruction}
    (alike : ∀ x y, instruction = .subtractFrom x y →
      machine.registers.get x = machine.registers.get y →
      machine.dialect.standardBorrow = dialect.standardBorrow) :
    execute answers (machine.speaking dialect) instruction =
      (execute answers machine instruction).speaking dialect := by
  have turned {one other : Machine} (events : List Event) (same : one = other.speaking dialect) :
      ({ machine := one, events } : Turn) = Turn.speaking { machine := other, events } dialect := by
    rw [same]
    rfl
  cases instruction with
  | skipIfByte | skipUnlessByte | skipIfEqual | skipUnlessEqual | skipIfKey | skipUnlessKey =>
    exact turned _ (skipIf_speaking machine dialect _)
  | awaitKey x =>
    simp only [execute, awaitKey]
    split <;> rfl
  | loadRegisters x =>
    apply turned
    rw [loadRegisters_eq machine]
    rfl
  | subtractFrom x y =>
    have flag := Dialect.borrow_iff_of dialect machine.dialect fun same => (alike x y rfl same).symm
    let difference := machine.registers.get y - machine.registers.get x
    exact turned _ (congrArg (fun flag => (machine.setWithFlag x difference flag).speaking dialect)
      (decide_eq_decide.mpr flag))
  | _ => rfl

theorem obey_speaking {instruction : Instruction}
    (alike : ∀ x y, instruction = .subtractFrom x y →
      machine.registers.get x = machine.registers.get y →
      machine.dialect.standardBorrow = dialect.standardBorrow) :
    (machine.speaking dialect).obey answers instruction =
      (machine.obey answers instruction).speaking dialect :=
  @obey_exchanged (·.speaking dialect) answers machine instruction ⟨rfl, rfl⟩ rfl
    (fun later => tick_speaking later dialect answers.pollClock)
    (execute_speaking answers machine.advanced dialect alike)

theorem step_speaking (calm : ¬machine.Divides dialect) :
    (machine.speaking dialect).step answers =
      (machine.step answers).map fun turn => turn.speaking dialect := by
  have fetched : (machine.speaking dialect).fetch = machine.fetch := rfl
  have decodes : dialect.decode machine.fetch = machine.dialect.decode machine.fetch := by
    apply Dialect.decode_eq_of
    by_contra differ
    rw [not_or, not_not] at differ
    exact calm (Or.inr ⟨Ne.symm differ.1, differ.2⟩)
  cases decoded : machine.dialect.decode machine.fetch with
  | error fault =>
    rw [step_refused answers decoded, step_refused answers (decodes.trans decoded)]
    rfl
  | ok instruction =>
    rw [step_decoded answers decoded, step_decoded answers (decodes.trans decoded)]
    refine congrArg Except.ok (obey_speaking answers machine dialect ?_)
    rintro x y rfl equal
    by_contra differ
    have digits := (Instruction.code_of_decode (Dialect.decode_eq_ok_iff.mp decoded).1).symm
    exact calm (Or.inl ⟨differ, x, y, digits, equal⟩)

theorem refresh_speaking : (machine.speaking dialect).refresh =
    (machine.refresh.1.speaking dialect, machine.refresh.2) := by
  cases dirty : machine.plane.dirty with
  | false => simp only [refresh, speaking, dirty, Bool.false_eq_true, if_false]
  | true => simp only [refresh, speaking, dirty, if_true]

theorem perform_speaking (operation : Operation)
    (calm : ∀ answers, operation = .step answers → ¬machine.Divides dialect) :
    (machine.speaking dialect).perform operation =
      (machine.perform operation).speaking dialect := by
  cases operation with
  | step answers =>
    have stepped := step_speaking answers machine dialect (calm answers rfl)
    cases taken : machine.step answers with
    | error fault =>
      rw [taken] at stepped
      rw [perform_error taken, perform_error stepped]
      rfl
    | ok turn =>
      rw [taken] at stepped
      rw [perform_ok taken, perform_ok stepped]
      rfl
  | reset answers => rfl
  | refresh =>
    simp only [perform, refresh_speaking]
    rfl

/-- A run that never meets an option on which two dialects differ is the same in both. -/
theorem run_speaking {operations : List Operation}
    (calm : ∀ early answers, early ++ [Operation.step answers] <+: operations →
      ¬(machine.run early).machine.Divides dialect) :
    (machine.speaking dialect).run operations = (machine.run operations).speaking dialect := by
  induction operations generalizing machine with
  | nil => rfl
  | cons operation rest ih =>
    have now := perform_speaking machine dialect operation fun answers first => by
      rw [first] at calm
      exact calm [] answers ⟨rest, rfl⟩
    have later := ih (machine.perform operation).machine fun early answers taken =>
      calm (operation :: early) answers (List.cons_prefix_cons.mpr ⟨rfl, taken⟩)
    simp only [run, now, Response.speaking, later]
    rfl

end

section

variable {answers : Answers} {machine : Machine}

/-- Setting a register makes no difference to a tick. -/
theorem tick_set (now : Instant) (x : Nibble) (value : UInt8) :
    (machine.set x value).tick now =
      ((machine.tick now).1.set x value, (machine.tick now).2) := by
  simp only [tick, set]
  split
  · rfl
  · simp only [Registers.countSound_countDelay]
    rfl

/-- The flag is written last, so it can be changed afterwards. -/
theorem setWithFlag_true (x : Nibble) (value : UInt8) :
    machine.setWithFlag x value true = (machine.setWithFlag x value false).set 0xF 1 := by
  have overwritten (bank : Bank UInt8) : (bank.put 0xF 0).put 0xF 1 = bank.put 0xF 1 :=
    Vector.set_set ..
  simp only [setWithFlag, set, Registers.setFlag, Registers.set, if_true, Bool.false_eq_true,
    if_false, overwritten]

/-- Between equal registers there is no borrow, and whether that counts is what the option says. -/
theorem execute_subtractFrom_of_equal {x y : Nibble}
    (equal : machine.registers.get x = machine.registers.get y) :
    execute answers machine (.subtractFrom x y) =
      { machine := machine.setWithFlag x (machine.registers.get y - machine.registers.get x)
          machine.dialect.standardBorrow } := by
  have flag (standard : Bool) {subtracted value : UInt8} (same : subtracted = value) :
      decide (if standard then subtracted ≤ value else subtracted < value) = standard := by
    rw [same]
    cases standard <;> simp
  exact congrArg (fun flag : Bool => ({ machine := machine.setWithFlag x _ flag } : Turn))
    (flag machine.dialect.standardBorrow equal)

/-- Where a register is subtracted from an equal one, dialects that differ in the rule agree on all
but the flag. -/
theorem step_subtractsEqual (subtracts : machine.SubtractsEqual)
    (strict : machine.dialect.standardBorrow = false) {dialect : Dialect}
    (standard : dialect.standardBorrow = true) :
    ∃ turn, machine.step answers = .ok turn ∧ turn.machine.registers.get 0xF = 0 ∧
      (machine.speaking dialect).step answers =
        .ok (Turn.speaking { turn with machine := turn.machine.set 0xF 1 } dialect) := by
  obtain ⟨x, y, digits, equal⟩ := subtracts
  have decoded (dialect : Dialect) : dialect.decode machine.fetch = .ok (.subtractFrom x y) :=
    @Instruction.permitted_of_code _ (.subtractFrom x y) dialect 0 rfl digits
  have running : Instruction.subtractFrom x y ≠ .exit := nofun
  let difference := machine.registers.get y - machine.registers.get x
  have unflagged : execute answers machine.advanced (.subtractFrom x y) =
      { machine := machine.advanced.setWithFlag x difference false } := by
    rw [← strict]
    exact execute_subtractFrom_of_equal equal
  let clear := machine.advanced.setWithFlag x difference false
  have flagged : execute answers (machine.speaking dialect).advanced (.subtractFrom x y) =
      { machine := (clear.set 0xF 1).speaking dialect } := by
    rw [← setWithFlag_true, ← standard]
    exact execute_subtractFrom_of_equal equal
  refine ⟨_, step_decoded answers (decoded _), ?_, ?_⟩
  · rw [obey_running answers machine _ running, unflagged, tick_get]
    exact Registers.get_set ..
  · have stepped : (machine.speaking dialect).step answers =
        .ok ((machine.speaking dialect).obey answers (.subtractFrom x y)) :=
      step_decoded answers (decoded _)
    rw [stepped, obey_running answers machine _ running,
      obey_running answers (machine.speaking dialect) _ running, unflagged, flagged]
    simp only [tick_speaking, tick_set]
    rfl

end

/-- Stepping in two dialects is the same but for the dialect itself, except where the options in
which they differ are met; and a run that never meets one is the same from start to end. -/
theorem options_conservative (machine : Machine) :
    (∀ answers,
      let strict := machine.speaking { machine.dialect with standardBorrow := false }
      let standard := machine.speaking { machine.dialect with standardBorrow := true }
      (¬machine.SubtractsEqual → standard.step answers =
        (strict.step answers).map fun turn => turn.speaking standard.dialect) ∧
      (machine.SubtractsEqual → ∃ turn, strict.step answers = .ok turn ∧
        turn.machine.registers.get 0xF = 0 ∧ standard.step answers = .ok (Turn.speaking
          { turn with machine := turn.machine.set 0xF 1 } standard.dialect))) ∧
    (∀ answers,
      let closed := machine.speaking { machine.dialect with hostExtensions := false }
      let opened := machine.speaking { machine.dialect with hostExtensions := true }
      ¬machine.AddressesHost → opened.step answers =
        (closed.step answers).map fun turn => turn.speaking opened.dialect) ∧
    ∀ (other : Dialect) (operations : List Operation),
      (∀ early answers, early ++ [Operation.step answers] <+: operations →
        ¬(machine.run early).machine.Divides other) →
      ∀ early, early <+: operations →
        (machine.speaking other).run early = (machine.run early).speaking other := by
  refine ⟨?_, ?_, ?_⟩
  · intro answers strict standard
    refine ⟨fun unequal => step_speaking answers strict standard.dialect ?_, fun equal => ?_⟩
    · rintro (⟨-, equal⟩ | ⟨differ, -⟩)
      · exact unequal equal
      · exact differ rfl
    · have subtracts : strict.SubtractsEqual := equal
      exact step_subtractsEqual subtracts rfl rfl
  · intro answers closed opened elsewhere
    refine step_speaking answers closed opened.dialect ?_
    rintro (⟨differ, -⟩ | ⟨-, addresses⟩)
    · exact differ rfl
    · exact elsewhere addresses
  · intro other operations calm early taken
    exact run_speaking machine other fun before answers within =>
      calm before answers (within.trans taken)

/-- A register subtracted from one that holds the same, where the rules differ, and from one that
does not, where no option is met. -/
theorem options_conservative_subtraction :
    let answers : Answers :=
      { resetClock := 0, pollClock := 99999999, held := fun _ => false,
        rom := { bytes := #[0x80, 0x17] }, words := .cycling #[] }
    let equal := fresh {} answers
    let unequal := equal.set 0 5
    let standard : Dialect := { standardBorrow := true }
    let other : Dialect := { standardBorrow := true, hostExtensions := true }
    equal.SubtractsEqual ∧
    (∃ turn, equal.step answers = .ok turn ∧ turn.machine.registers.get 0xF = 0 ∧
      (equal.speaking standard).step answers =
        .ok (Turn.speaking { turn with machine := turn.machine.set 0xF 1 } standard)) ∧
    (unequal.speaking other).run [.step answers] =
      (unequal.run [.step answers]).speaking other := by
  intro answers equal unequal standard other
  have fetched : equal.fetch = 0x8017 := by
    simp only [equal, fresh, fetch, Memory.readWord, Memory.read, get_eq_getElem, Memory.load,
      Memory.blank, Vector.getElem_mapIdx, Vector.getElem_replicate]
    decide
  have subtracts : equal.SubtractsEqual := ⟨0, 1, by rw [fetched]; rfl, rfl⟩
  have calm : ¬unequal.Divides other := by
    have fetched' : unequal.fetch = 0x8017 := fetched
    rintro (⟨-, x, y, digits, same⟩ | ⟨-, addresses⟩)
    · rw [fetched'] at digits
      change 0x8017 = _ at digits
      obtain rfl : x = 0 := Fin.ext (by omega)
      obtain rfl : y = 1 := Fin.ext (by omega)
      exact absurd same (by decide)
    · rw [AddressesHost, fetched'] at addresses
      revert addresses
      decide
  refine ⟨subtracts, ((options_conservative equal).1 answers).2 subtracts, ?_⟩
  refine (options_conservative unequal).2.2 other [.step answers] ?_ _ List.prefix_rfl
  intro early given taken
  have first : early = [] := by
    have short := taken.length_le
    rw [List.length_append] at short
    exact List.eq_nil_of_length_eq_zero (by simpa using short)
  rw [first]
  exact calm

end Machine

end Chip8
