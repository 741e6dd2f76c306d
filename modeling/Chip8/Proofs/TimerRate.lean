import Chip8.Proofs.Rounds
import Chip8.Proofs.Timers
import Mathlib.Algebra.Order.Interval.Finset.SuccPred
import Mathlib.Data.Nat.SuccPred
import Mathlib.Order.Interval.Finset.Nat

/-!
# The rate of the timers

The gate starts its next period when it is polled and not when the last period
was over, and it is polled once a step. So at a constant pace a period is
rounded up to whole steps, over and over, and the timers count at every step
whose number is a multiple of that many, the first step left out. Where the
pace is so high that no time passes from one step to the next they never count.
-/
namespace Chip8.Headless

namespace Pace

/-- How many steps it takes until a frame period is over. -/
def stride (pace : Pace) : Nat := (16666666 + pace.interval - 1) / pace.interval

/-- Whether the timers count in a step, numbered from zero, of a run at a constant pace. -/
def TicksAt (pace : Pace) (step : Nat) : Prop :=
  0 < pace.interval ∧ 0 < step ∧ pace.stride ∣ step

instance (pace : Pace) : DecidablePred pace.TicksAt :=
  fun _ => inferInstanceAs (Decidable (_ ∧ _))

/-- The last step before a step in which the timers counted, or zero. -/
def lastTick (pace : Pace) (step : Nat) : Nat := pace.stride * ((step - 1) / pace.stride)

section

variable (pace : Pace) (step : Nat)

theorem lastTick_le : pace.lastTick step ≤ step :=
  Nat.le_trans (Nat.mul_div_le _ _) (Nat.sub_le _ _)

theorem ticksAt_iff :
    pace.TicksAt step ↔ 16666666 ≤ (step - pace.lastTick step) * pace.interval := by
  rcases Nat.eq_zero_or_pos pace.interval with stands | moves
  · simp [TicksAt, stands]
  cases step with
  | zero => simp [TicksAt]
  | succ step =>
    -- A number of steps is long enough from the stride on.
    have enough (steps : Nat) : pace.stride ≤ steps ↔ 16666666 ≤ steps * pace.interval := by
      rw [stride, Nat.div_le_iff_le_mul moves]
      omega
    have positive : 0 < pace.stride := by
      rw [Nat.pos_iff_ne_zero]
      intro none
      have instant := (enough 0).mp (Nat.le_of_eq none)
      omega
    have whole := Nat.div_add_mod step pace.stride
    have waited : step + 1 - pace.stride * (step / pace.stride) = step % pace.stride + 1 := by
      omega
    have divides : pace.stride ∣ step + 1 ↔ pace.stride ∣ step % pace.stride + 1 := by
      have added : pace.stride ∣ pace.stride * (step / pace.stride) + (step % pace.stride + 1) ↔
          pace.stride ∣ step % pace.stride + 1 := Nat.dvd_add_right (Nat.dvd_mul_right _ _)
      rwa [← Nat.add_assoc, whole] at added
    rw [← enough, TicksAt, lastTick, Nat.add_sub_cancel, waited, divides]
    constructor
    · rintro ⟨-, -, multiple⟩
      exact Nat.le_of_dvd (Nat.succ_pos _) multiple
    · intro long
      have full : step % pace.stride + 1 = pace.stride :=
        Nat.le_antisymm (Nat.mod_lt step positive) long
      exact ⟨moves, Nat.succ_pos step, dvd_of_eq full.symm⟩

/-- At the pace that is taken without an option the timers count in every ninth step. -/
example : Pace.standard.stride = 9 := by decide

theorem lastTick_succ :
    pace.lastTick (step + 1) = if pace.TicksAt step then step else pace.lastTick step := by
  rw [lastTick, Nat.add_sub_cancel]
  split
  next ticks => exact Nat.mul_div_cancel' ticks.2.2
  next waits =>
    cases step with
    | zero => rfl
    | succ step =>
      rw [lastTick, Nat.add_sub_cancel, Nat.succ_div]
      split
      next divides =>
        have stands : pace.interval = 0 :=
          Nat.eq_zero_of_not_pos fun moves => waits ⟨moves, Nat.succ_pos step, divides⟩
        simp [stride, stands]
      next => rw [Nat.add_zero]

/-- What the gate makes of a poll at a step if it was last open in the step of the last tick. -/
theorem poll_iff_ticksAt {gate : TimerGate} {start now : Instant}
    (due : now = start + (step * pace.interval : Nat))
    (last : gate.lastTick = start + (pace.lastTick step * pace.interval : Nat)) :
    (gate.poll now).2 = true ↔ pace.TicksAt step := by
  have early : pace.lastTick step * pace.interval ≤ step * pace.interval :=
    Nat.mul_le_mul_right _ (pace.lastTick_le step)
  have period : framePeriod = 16666666 := rfl
  rw [TimerGate.poll_iff, ticksAt_iff, due, last, Nat.sub_mul, period]
  generalize step * pace.interval = elapsed at early ⊢
  generalize pace.lastTick step * pace.interval = ticked at early ⊢
  omega

end

end Pace

namespace Run

/-- The rounds before round `count` go on, at one pace and without a reset. -/
def Steady (host : Host) (limit : Option Nat) (run : Run) (pace : Pace) (count : Nat) : Prop :=
  ∀ step < count, (run.before host limit step).Continues host limit ∧
    (run.before host limit step).machine.fetch ≠ 0x0101 ∧
    (run.before host limit step).pace = pace

namespace Steady

variable {host : Host} {limit : Option Nat} {run : Run} {pace : Pace} {count step : Nat}
  (steady : run.Steady host limit pace count)
include steady

theorem due (within : step < count) :
    (run.before host limit step).due = run.due + (step * pace.interval : Nat) :=
  have lasts : run.Lasts host limit step := fun earlier early =>
    (steady earlier (Nat.lt_trans early within)).1
  lasts.due fun earlier early => (steady (earlier + 1) (Nat.lt_of_le_of_lt early within)).2.2

/-- No instruction of a steady run touches the gate, so it is polled as the step found it. -/
theorem leaves (within : step < count) :
    let now := run.before host limit step
    let later := run.before host limit (step + 1)
    ∃ instruction, now.machine.dialect.decode now.machine.fetch = .ok instruction ∧
      instruction ≠ .softReset ∧
      let left := now.executed host instruction
      left.gate = now.machine.gate ∧ later.machine.gate = (left.gate.poll now.due).1 ∧
        later.machine.registers =
          if (left.gate.poll now.due).2 then left.registers.counted else left.registers := by
  obtain ⟨continues, unreset, -⟩ := steady step within
  obtain ⟨turn, goes⟩ := continues.goes
  obtain ⟨instruction, decoded, left⟩ := goes.leaves
  have hard : instruction ≠ .softReset := by
    rintro rfl
    exact unreset (Instruction.decode_softReset_iff.mp (Dialect.decode_eq_ok_iff.mp decoded).1)
  have kept : ((run.before host limit step).executed host instruction).gate =
      (run.before host limit step).machine.gate := Machine.execute_gate _ _ hard
  exact ⟨instruction, decoded, hard, kept, congrArg Machine.gate left,
    congrArg Machine.registers left⟩

theorem lastTick (fresh : run.machine.gate.lastTick = run.due) (within : step < count) :
    (run.before host limit step).machine.gate.lastTick =
      run.due + (pace.lastTick step * pace.interval : Nat) := by
  induction step with
  | zero => simp [before, Pace.lastTick, fresh]
  | succ step ih =>
    have earlier : step < count := Nat.lt_of_succ_lt within
    obtain ⟨instruction, -, -, kept, gate, -⟩ := steady.leaves earlier
    have polled := pace.poll_iff_ticksAt step (steady.due earlier) (ih earlier)
    rw [gate, TimerGate.poll_lastTick, kept, pace.lastTick_succ step]
    by_cases ticks : pace.TicksAt step
    · rw [if_pos (polled.mpr ticks), if_pos ticks, steady.due earlier]
    · rw [if_neg (mt polled.mp ticks), if_neg ticks, ih earlier]

theorem ticks (fresh : run.machine.gate.lastTick = run.due) (within : step < count) :
    let now := run.before host limit step
    ∃ instruction, now.machine.dialect.decode now.machine.fetch = .ok instruction ∧
      instruction ≠ .softReset ∧
      let left := now.executed host instruction
      ((left.gate.poll now.due).2 = true ↔ pace.TicksAt step) ∧
        (run.before host limit (step + 1)).machine.registers =
          if pace.TicksAt step then left.registers.counted else left.registers := by
  obtain ⟨instruction, decoded, hard, kept, -, registers⟩ := steady.leaves within
  have polled := pace.poll_iff_ticksAt step (steady.due within) (steady.lastTick fresh within)
  rw [← kept] at polled
  simp only [polled] at registers
  exact ⟨instruction, decoded, hard, polled, registers⟩

theorem timer_falls (timer : Timer) (fresh : run.machine.gate.lastTick = run.due)
    (within : step < count) :
    let now := run.before host limit step
    ∃ instruction, now.machine.dialect.decode now.machine.fetch = .ok instruction ∧
      instruction ≠ .softReset ∧
      ((run.before host limit (step + 1)).machine.registers.timer timer).toNat =
        ((now.executed host instruction).registers.timer timer).toNat -
          if pace.TicksAt step then 1 else 0 := by
  obtain ⟨instruction, decoded, hard, -, registers⟩ := steady.ticks fresh within
  refine ⟨instruction, decoded, hard, ?_⟩
  rw [registers]
  split
  · exact Registers.counted_timer _ _
  · rfl

theorem timer {timer : Timer} {set : Nat} {x : Nibble}
    (fresh : run.machine.gate.lastTick = run.due) (later : set ≤ step) (within : step < count)
    (sets : (run.before host limit set).machine.fetch.toNat = timer.opcode + 0x100 * x.val)
    (kept : ∀ between, set < between → between ≤ step → ∀ y : Nibble,
      (run.before host limit between).machine.fetch.toNat ≠ timer.opcode + 0x100 * y.val) :
    ((run.before host limit (step + 1)).machine.registers.timer timer).toNat =
      ((run.before host limit set).machine.registers.get x).toNat -
        ((Finset.Icc set step).filter pace.TicksAt).card := by
  induction step, later using Nat.le_induction with
  | base =>
    obtain ⟨instruction, decoded, -, falls⟩ := steady.timer_falls timer fresh within
    obtain rfl := Except.ok.inj (decoded.symm.trans (Timer.decode_setter_iff.mpr sets))
    rw [executed, Machine.execute_setter] at falls
    rw [falls, Finset.Icc_self, Finset.filter_singleton]
    split <;> rfl
  | succ step later ih =>
    obtain ⟨instruction, decoded, hard, falls⟩ := steady.timer_falls timer fresh within
    have other (y : Nibble) : instruction ≠ timer.setter y := by
      rintro rfl
      exact kept (step + 1) (Nat.lt_succ_of_le later) le_rfl y (Timer.decode_setter_iff.mp decoded)
    have before := ih (Nat.lt_of_succ_lt within) fun between after early =>
      kept between after (Nat.le_succ_of_le early)
    have counted : ((Finset.Icc set (step + 1)).filter pace.TicksAt).card =
        ((Finset.Icc set step).filter pace.TicksAt).card +
          if pace.TicksAt (step + 1) then 1 else 0 := by
      rw [← Finset.insert_Icc_right_eq_Icc_add_one (Nat.le_succ_of_le later), Finset.filter_insert]
      split
      · exact Finset.card_insert_of_notMem (by simp)
      · rfl
    rw [executed, Machine.execute_timer _ _ hard other] at falls
    rw [falls, counted, ← Nat.sub_sub, ← before]
    rfl

end Steady

/-- A program that sets a delay of five in its second step and then jumps on the spot. -/
theorem before_countdown {host : Host} {run : Run} (counter : run.machine.counter = 0x200)
    (words : run.machine.memory.readWord 0x200 = 0x6005 ∧
      run.machine.memory.readWord 0x202 = 0xF015 ∧ run.machine.memory.readWord 0x204 = 0x1204) :
    (run.before host none 0).machine.fetch = 0x6005 ∧
      (run.before host none 1).machine.fetch = 0xF015 ∧
      (∀ k, (run.before host none (k + 2)).machine.fetch = 0x1204) ∧
      (run.before host none 1).machine.registers.get 0 = 5 ∧
      ∀ k, (run.before host none k).Continues host none ∧
        (run.before host none k).pace = run.pace := by
  obtain ⟨first, second, third⟩ := words
  have endless (run : Run) : ∀ most ∈ (none : Option Nat), run.cycles < most := by simp
  have fetched0 : run.machine.fetch = 0x6005 := by
    rw [Machine.fetch, counter]
    exact first
  have loads : run.machine.dialect.decode run.machine.fetch = .ok (.loadByte 0 5) := by
    rw [fetched0]
    rfl
  obtain ⟨goesOn0, counter0, memory0, -, get, -, paced0⟩ :=
    next_of_decoded host (endless run) loads (by simp)
  have there1 : (run.before host none 1).machine.counter = 0x202 :=
    counter0.trans (congrArg (· + 2) counter)
  have memory1 : (run.before host none 1).machine.memory = run.machine.memory := memory0
  have fetched1 : (run.before host none 1).machine.fetch = 0xF015 := by
    rw [Machine.fetch, there1, memory1]
    exact second
  have sets : (run.before host none 1).machine.dialect.decode
      (run.before host none 1).machine.fetch = .ok (.setDelay 0) := by
    rw [fetched1]
    rfl
  obtain ⟨goesOn1, counter1, memory2, -, -, -, paced1⟩ :=
    next_of_decoded host (endless (run.before host none 1)) sets (by simp)
  have there2 : (run.before host none 2).machine.counter = 0x204 :=
    counter1.trans (congrArg (· + 2) there1)
  have fetched2 : (run.before host none 2).machine.fetch = 0x1204 := by
    rw [Machine.fetch, there2, show (run.before host none 2).machine.memory = _ from memory2]
    exact (congrArg (Memory.readWord · 0x204) memory1).trans third
  have pace1 : (run.before host none 1).pace = run.pace := paced0 (by rw [fetched0]; decide)
  have pace2 : (run.before host none 2).pace = run.pace :=
    (paced1 (by rw [fetched1]; decide)).trans pace1
  -- From the third step on the program jumps on the spot.
  have spins : (run.before host none 2).Spins := by
    refine ⟨0x204, there2, ?_⟩
    rw [fetched2]
    rfl
  have later (k : Nat) : (run.before host none (k + 2)).machine.fetch = 0x1204 ∧
      (run.before host none (k + 2)).Continues host none ∧
      (run.before host none (k + 2)).pace = run.pace := by
    have few (count : Nat) : ∀ most ∈ (none : Option Nat),
        (run.before host none 2).cycles + count ≤ most := by simp
    obtain ⟨-, fetched, pace, -⟩ := before_spins host k spins (few k)
    obtain ⟨-, -, -, -, lasts⟩ := before_spins host (k + 1) spins (few (k + 1))
    have goesOn := lasts k (Nat.lt_succ_self k)
    rw [before_add, Nat.add_comm 2 k] at fetched pace goesOn
    exact ⟨fetched.trans fetched2, goesOn, pace.trans pace2⟩
  refine ⟨fetched0, fetched1, fun k => (later k).1, ?_, fun k => ?_⟩
  · exact (get 0).trans (Registers.get_set _ 0 0 5)
  · rcases k with _ | _ | k
    · exact ⟨goesOn0, rfl⟩
    · exact ⟨goesOn1, pace1⟩
    · exact (later k).2

end Run

namespace Arguments

/-- In which steps of a command the timers count, that they do not in the one that ends it, and
what a timer that was set is at after each later step. -/
theorem timer_rate (arguments : Arguments) (rom : Rom) (streams : Nat → WordStream)
    (now : Instant) (count : Nat) :
    let host := arguments.host rom streams
    let limit := arguments.maxCycles
    let pace := arguments.pace
    let run := (arguments.start host now now).before host limit
    (∀ k < count, (run k).Continues host limit ∧ (run k).machine.fetch ≠ 0x0101 ∧
      (run k).pace = pace) →
    (∀ k < count, ∃ instruction,
      (run k).machine.dialect.decode (run k).machine.fetch = .ok instruction ∧
        let left := (run k).executed host instruction
        ((left.gate.poll (run k).due).2 = true ↔ pace.TicksAt k) ∧
          (run (k + 1)).machine.registers =
            if pace.TicksAt k then left.registers.counted else left.registers) ∧
    (∀ ending last, (run count).round host limit (run count).onTime = .ended ending last →
      last.machine.registers = (run count).machine.registers ∧
        last.machine.gate = (run count).machine.gate) ∧
    ∀ (timer : Timer) (j k : Nat) (x : Nibble), j ≤ k → k < count →
      (run j).machine.fetch.toNat = timer.opcode + 0x100 * x.val →
      (∀ i, j < i → i ≤ k → ∀ y : Nibble,
        (run i).machine.fetch.toNat ≠ timer.opcode + 0x100 * y.val) →
      ((run (k + 1)).machine.registers.timer timer).toNat =
        ((run j).machine.registers.get x).toNat -
          ((Finset.Icc j k).filter pace.TicksAt).card := by
  intro host limit pace run steady
  obtain ⟨machine, -, due, -⟩ := arguments.start_keeps host now now
  have fresh : (arguments.start host now now).machine.gate.lastTick =
      (arguments.start host now now).due := by
    rw [machine, due]
    rfl
  refine ⟨fun k within => ?_, fun ending last ended => ?_,
    fun timer j k x later within sets kept => ?_⟩
  · obtain ⟨instruction, decoded, -, ticks⟩ := Run.Steady.ticks steady fresh within
    exact ⟨instruction, decoded, ticks⟩
  · obtain ⟨-, -, -, same | moved⟩ := Run.ended_keeps ended
    · rw [same]
      exact ⟨rfl, rfl⟩
    · rw [moved]
      exact ⟨rfl, rfl⟩
  · exact Run.Steady.timer steady fresh later within sets kept

/-- A delay of five, set in the second step at a hundred steps a second, is at three after the
fifth. -/
theorem timer_rate_countdown :
    let arguments : Arguments :=
      { rom := "count", pace := ⟨100, by decide⟩, maxCycles := none, seed := none, dump := none,
        dialect := {} }
    let rom : Rom := { bytes := #[0x60, 0x05, 0xF0, 0x15, 0x12, 0x04] }
    let host := arguments.host rom fun _ => .cycling #[]
    let run := (arguments.start host 0 0).before host none
    (∀ k < 5, (run k).Continues host none ∧ (run k).machine.fetch ≠ 0x0101 ∧
      (run k).pace = arguments.pace) ∧
    ((run 5).machine.registers.timer .delay).toNat = 3 := by
  intro arguments rom host run
  obtain ⟨machine, pace, -⟩ := arguments.start_keeps host 0 0
  have words : (arguments.start host 0 0).machine.memory.readWord 0x200 = 0x6005 ∧
      (arguments.start host 0 0).machine.memory.readWord 0x202 = 0xF015 ∧
      (arguments.start host 0 0).machine.memory.readWord 0x204 = 0x1204 := by
    rw [machine]
    simp only [host, arguments, rom, Arguments.host, Host.answers, Machine.fresh, Memory.readWord,
      Memory.read, get_eq_getElem, Memory.load, Memory.blank, Vector.getElem_mapIdx,
      Vector.getElem_replicate]
    decide
  have counter : (arguments.start host 0 0).machine.counter = 0x200 := by
    rw [machine]
    rfl
  obtain ⟨first, second, later, five, continues⟩ :=
    @Run.before_countdown host (arguments.start host 0 0) counter words
  have fetched (k : Nat) : (run k).machine.fetch = 0x6005 ∨ (run k).machine.fetch = 0xF015 ∨
      (run k).machine.fetch = 0x1204 := by
    rcases k with _ | _ | k
    · exact Or.inl first
    · exact Or.inr (Or.inl second)
    · exact Or.inr (Or.inr (later k))
  have steady : ∀ k < 5, (run k).Continues host none ∧
      (run k).machine.fetch ≠ 0x0101 ∧ (run k).pace = arguments.pace := by
    intro k _
    obtain ⟨goesOn, paced⟩ := continues k
    refine ⟨goesOn, ?_, paced.trans pace⟩
    rcases fetched k with same | same | same
    all_goals rw [same]; decide
  have kept : ∀ i, 1 < i → i ≤ 4 → ∀ y : Nibble,
      (run i).machine.fetch.toNat ≠ Timer.delay.opcode + 0x100 * y.val := by
    intro i after _ y
    obtain ⟨k, rfl⟩ := Nat.exists_eq_add_of_le' after
    rw [show (run (k + 2)).machine.fetch = 0x1204 from later k]
    change 0x1204 ≠ 0xF015 + 0x100 * y.val
    omega
  obtain ⟨-, -, value⟩ := timer_rate arguments rom (fun _ => .cycling #[]) 0 5 steady
  have left := value .delay 1 4 0 (by decide) (by decide)
    (congrArg UInt16.toNat second) kept
  refine ⟨steady, left.trans ?_⟩
  rw [five]
  decide

end Arguments

end Chip8.Headless
