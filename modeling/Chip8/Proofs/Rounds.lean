import Chip8.Headless.Report
import Chip8.Proofs.FrameDelivery
import Chip8.Proofs.Refusal
import Chip8.Proofs.Schedule

/-!
# Rounds of a run

The rounds of a run one by one, and what each makes of it. A round that goes on
takes one step, refreshes if a refresh is due, and puts the due time off by the
interval of the pace that the step has left. A round that ends the run
refreshes nothing. A whole run is its rounds up to the one that ends it.
-/
namespace Chip8

/-- A step that exits moves the counter and does nothing else. -/
theorem Machine.step_exited {machine : Machine} {answers : Answers} {turn : Turn}
    (step : machine.step answers = .ok turn) (leaves : turn.outcome = .exited) :
    turn.machine = machine.advanced := by
  obtain ⟨instruction, -, rfl⟩ := step_obeys step
  by_cases exits : instruction = .exit
  · rw [exits]
    rfl
  · rw [obey_outcome, if_neg exits] at leaves
    cases leaves

namespace Headless

namespace Run

/-- The run after a round at its due time. A round that ends the run leaves it to the last. -/
def next (host : Host) (limit : Option Nat) (run : Run) : Run :=
  match run.round host limit run.onTime with
  | .going later => later
  | .ended _ last => last

/-- The run as its round `count` begins, counted from zero. -/
def before (host : Host) (limit : Option Nat) (run : Run) : Nat → Run
  | 0 => run
  | count + 1 => (run.before host limit count).next host limit

/-- The step of the round leaves the program running, so that another round follows. -/
def Continues (host : Host) (limit : Option Nat) (run : Run) : Prop :=
  ∃ later, run.round host limit run.onTime = .going later

/-- The rounds before round `count` all go on. -/
def Lasts (host : Host) (limit : Option Nat) (run : Run) (count : Nat) : Prop :=
  ∀ earlier < count, (run.before host limit earlier).Continues host limit

/-- A refresh is due in the round, if the round goes on. -/
def Refreshes (run : Run) : Prop := run.refreshDue ≤ run.due

instance (run : Run) : Decidable run.Refreshes := inferInstanceAs (Decidable (_ ≤ _))

/-- The machine after the step of the round. -/
def stepped (host : Host) (run : Run) : Machine :=
  (run.machine.perform (.step (run.answers host))).machine

/-- The machine as the instruction of the round leaves it, before the gate is polled. -/
def executed (host : Host) (run : Run) (instruction : Instruction) : Machine :=
  (Machine.execute (run.answers host) run.machine.advanced instruction).machine

/-- The next instruction jumps to where it is itself. -/
def Spins (run : Run) : Prop :=
  ∃ place : Address, run.machine.counter = place.toWord ∧
    run.machine.dialect.decode run.machine.fetch = .ok (.jump place)

/-- The refresh of the round finds the plane dirty. -/
def Shows (host : Host) (run : Run) : Prop :=
  run.Refreshes ∧ (run.stepped host).plane.dirty = true

instance (host : Host) (run : Run) : Decidable (run.Shows host) :=
  inferInstanceAs (Decidable (_ ∧ _))

/-- What is heard changes neither the machine nor what is due when. -/
theorem hearAll_keeps (run : Run) (events : List Event) :
    let heard := run.hearAll events
    heard.machine = run.machine ∧ heard.due = run.due ∧ heard.refreshDue = run.refreshDue ∧
      heard.cycles = run.cycles ∧ heard.frames = run.frames + (Chip8.frames events).length := by
  induction events generalizing run with
  | nil => exact ⟨rfl, rfl, rfl, rfl, rfl⟩
  | cons event rest ih =>
    obtain ⟨machine, due, refreshDue, cycles, shown⟩ := ih (run.hear event)
    have heard : (run.hear event).machine = run.machine ∧ (run.hear event).due = run.due ∧
        (run.hear event).refreshDue = run.refreshDue ∧ (run.hear event).cycles = run.cycles ∧
        (run.hear event).frames = run.frames + (Chip8.frames [event]).length := by
      cases event with
      | note note => exact ⟨rfl, rfl, rfl, rfl, rfl⟩
      | call call => cases call <;> exact ⟨rfl, rfl, rfl, rfl, rfl⟩
    obtain ⟨machine', due', refreshDue', cycles', shown'⟩ := heard
    refine ⟨machine.trans machine', due.trans due', refreshDue.trans refreshDue',
      cycles.trans cycles', ?_⟩
    have split : Chip8.frames (event :: rest) = Chip8.frames [event] ++ Chip8.frames rest :=
      frames_append [event] rest
    rw [split, List.length_append, ← Nat.add_assoc, ← shown']
    exact shown

/-- A new machine is due at once, and so is its first refresh. -/
theorem start_keeps (host : Host) (dialect : Dialect) (pace : Pace) (built begun : Instant) :
    let run := start host dialect pace built begun
    run.machine = .fresh dialect (host.answers 0 (.still built)) ∧ run.pace = pace ∧
      run.due = begun ∧ run.refreshDue = begun ∧ run.cycles = 0 ∧ run.frames = 0 := by
  let machine : Machine := .fresh dialect (host.answers 0 (.still built))
  let new : Run := { machine, pace, due := begun, refreshDue := begun }
  let events := (Machine.boot dialect (host.answers 0 (.still built))).2
  obtain ⟨machine, due, refreshDue, cycles, shown⟩ := new.hearAll_keeps events
  have hertz : (new.hearAll events).pace.hertz = (calls events).foldl heed pace.hertz :=
    congrArg Beat.hertz (new.hearAll_beat events)
  simp only [events, Machine.boot, calls_call, Machine.loading_calls] at hertz
  rw [Machine.boot_frames] at shown
  exact ⟨machine, Pace.ext hertz, due, refreshDue, cycles, shown⟩

theorem refreshAt_keeps (run : Run) (now : Instant) :
    let refreshed := run.refreshAt now
    refreshed.machine = (if run.refreshDue ≤ now then run.machine.refresh.1 else run.machine) ∧
      refreshed.due = run.due ∧
      refreshed.refreshDue =
        (if run.refreshDue ≤ now then run.refreshDue + framePeriod else run.refreshDue) ∧
      refreshed.cycles = run.cycles ∧
      refreshed.frames =
        run.frames + (if run.refreshDue ≤ now ∧ run.machine.plane.dirty = true then 1 else 0) := by
  by_cases due : run.refreshDue ≤ now
  · obtain ⟨machine, due', refreshDue, cycles, shown⟩ := hearAll_keeps
      { run with machine := run.machine.refresh.1, refreshDue := run.refreshDue + framePeriod }
      run.machine.refresh.2
    rw [refreshAt, if_pos due]
    simp only [due, if_true, true_and]
    exact ⟨machine, due', refreshDue, cycles, by rw [shown, Machine.refresh_frames]⟩
  · rw [refreshAt, if_neg due]
    simp only [due, if_false, false_and, Nat.add_zero, and_self]

/-- What a round that goes on makes of a run. -/
structure Goes (host : Host) (run : Run) (turn : Turn) (later : Run) : Prop where
  step : run.machine.step (run.answers host) = .ok turn
  running : turn.outcome = .running
  machine : later.machine = if run.Refreshes then turn.machine.refresh.1 else turn.machine
  pace : later.pace.hertz =
    if run.machine.fetch = 0x0100 then max (10 * (run.machine.registers.get 0).toNat) 1
    else run.pace.hertz
  due : later.due = run.due + later.pace.interval
  refreshDue : later.refreshDue =
    if run.Refreshes then run.refreshDue + framePeriod else run.refreshDue
  cycles : later.cycles = run.cycles + 1
  frames : later.frames = run.frames + if run.Shows host then 1 else 0

section

variable {host : Host} {limit : Option Nat} {run : Run}

theorem stepped_of_ok {turn : Turn} (step : run.machine.step (run.answers host) = .ok turn) :
    run.stepped host = turn.machine := by
  rw [stepped, Machine.perform_ok step]

theorem stepped_of_error {fault : Fault}
    (step : run.machine.step (run.answers host) = .error fault) :
    run.stepped host = run.machine := by
  rw [stepped, Machine.perform_error step]

theorem moved_keeps {turn : Turn} (step : run.machine.step (run.answers host) = .ok turn) :
    (run.moved turn).machine = turn.machine ∧
      (run.moved turn).pace.hertz =
        (if run.machine.fetch = 0x0100 then max (10 * (run.machine.registers.get 0).toNat) 1
          else run.pace.hertz) ∧
      (run.moved turn).due = run.due ∧ (run.moved turn).refreshDue = run.refreshDue ∧
      (run.moved turn).cycles = run.cycles + 1 ∧ (run.moved turn).frames = run.frames := by
  let stepped : Run := { run with machine := turn.machine, cycles := run.cycles + 1 }
  obtain ⟨machine, due, refreshDue, cycles, shown⟩ := stepped.hearAll_keeps turn.events
  have heard := congrArg Beat.hertz (stepped.hearAll_beat turn.events)
  rw [Machine.step_frames step] at shown
  exact ⟨machine, heard.trans (step_heeded step run.pace.hertz), due, refreshDue, cycles, shown⟩

/-- What a round can come to, and when. -/
inductive ComesTo (host : Host) (limit : Option Nat) (moment : Moment) (run : Run) : Round → Prop
  | limit {most : Nat} : most ∈ limit → most ≤ run.cycles →
    ComesTo host limit moment run (.ended .limit (run.say (.limitReached run.cycles)))
  | failed {fault : Fault} : (∀ most ∈ limit, run.cycles < most) →
    run.machine.step (host.answers (run.cycles + 1) moment) = .error fault →
    ComesTo host limit moment run (.ended (.failed run.machine.counter fault) run)
  | exited {turn : Turn} : (∀ most ∈ limit, run.cycles < most) →
    run.machine.step (host.answers (run.cycles + 1) moment) = .ok turn → turn.outcome = .exited →
    ComesTo host limit moment run
      (.ended .exited ((run.moved turn).say (.exited (run.moved turn).cycles)))
  | going {turn : Turn} : (∀ most ∈ limit, run.cycles < most) →
    run.machine.step (host.answers (run.cycles + 1) moment) = .ok turn → turn.outcome = .running →
    ComesTo host limit moment run (.going ((run.moved turn).refreshAt moment.after).schedule)

theorem round_comesTo (host : Host) (limit : Option Nat) (moment : Moment) (run : Run) :
    run.ComesTo host limit moment (run.round host limit moment) := by
  by_cases full : ∃ most ∈ limit, most ≤ run.cycles
  · obtain ⟨most, limited, reached⟩ := full
    rw [round_limit limited reached]
    exact .limit limited reached
  · have within : ∀ most ∈ limit, run.cycles < most := fun most limited =>
      Nat.not_le.mp fun reached => full ⟨most, limited, reached⟩
    cases step : run.machine.step (host.answers (run.cycles + 1) moment) with
    | error fault =>
      rw [round_of_refused within step]
      exact .failed within step
    | ok turn =>
      cases runs : turn.outcome with
      | exited =>
        rw [round_of_exit within step runs]
        exact .exited within step runs
      | running =>
        rw [round_of_step within step runs]
        exact .going within step runs

/-- A round goes on while there are cycles left and the step leaves the program running. -/
theorem continues_iff : run.Continues host limit ↔ (∀ most ∈ limit, run.cycles < most) ∧
    ∃ turn, run.machine.step (run.answers host) = .ok turn ∧ turn.outcome = .running := by
  have comes := round_comesTo host limit run.onTime run
  unfold Continues
  constructor
  · rintro ⟨later, going⟩
    rw [going] at comes
    cases comes with
    | going within step runs => exact ⟨within, _, step, runs⟩
  · rintro ⟨within, turn, step, runs⟩
    generalize run.round host limit run.onTime = round at comes ⊢
    cases comes with
    | limit limited passed => exact absurd (within _ limited) (Nat.not_lt.mpr passed)
    | failed _ refused => cases step.symm.trans refused
    | exited _ step' leaves =>
      obtain rfl := Except.ok.inj (step.symm.trans step')
      cases runs.symm.trans leaves
    | going => exact ⟨_, rfl⟩

theorem Continues.goes (continues : run.Continues host limit) :
    ∃ turn, run.Goes host turn (run.next host limit) := by
  obtain ⟨later, going⟩ := continues
  have comes := round_comesTo host limit run.onTime run
  rw [next, going]
  rw [going] at comes
  cases comes with
  | @going turn _ step runs =>
    obtain ⟨machine, pace, due, refreshDue, cycles, frames⟩ := moved_keeps step
    obtain ⟨machine', due', refreshDue', cycles', frames'⟩ :=
      (run.moved turn).refreshAt_keeps run.due
    have paced := congrArg Beat.hertz ((run.moved turn).refreshAt_beat run.due)
    have shows : run.Shows host ↔ run.Refreshes ∧ turn.machine.plane.dirty = true := by
      unfold Shows
      rw [stepped_of_ok step]
    rw [refreshDue, machine] at machine' frames'
    rw [refreshDue] at refreshDue'
    refine ⟨turn, step, runs, machine', paced.trans pace, congrArg (· + _) (due'.trans due),
      refreshDue', cycles'.trans cycles, ?_⟩
    simp only [shows]
    exact frames'.trans (congrArg (· + _) frames)

/-- The machine that a round leaves is the one that its instruction left, after the gate has been
polled at the due time and the plane shown if a refresh was due. -/
theorem Goes.leaves {turn : Turn} {later : Run} (goes : run.Goes host turn later) :
    ∃ instruction, run.machine.dialect.decode run.machine.fetch = .ok instruction ∧
      let left := run.executed host instruction
      later.machine = { left with
        gate := (left.gate.poll run.due).1
        registers :=
          if (left.gate.poll run.due).2 then left.registers.counted else left.registers
        plane := if run.Refreshes then left.plane.shown else left.plane } := by
  obtain ⟨instruction, decoded, obeyed⟩ := Machine.step_obeys goes.step
  have runs : instruction ≠ .exit := by
    rintro rfl
    have running := goes.running
    rw [← obeyed] at running
    cases running
  have machine := goes.machine
  rw [← obeyed, Machine.obey_running _ _ _ runs, Machine.refresh_eq, Machine.tick_eq] at machine
  refine ⟨instruction, decoded, ?_⟩
  rw [machine]
  split <;> rfl

namespace Lasts

variable {count : Nat} (lasts : run.Lasts host limit count)
include lasts

theorem mono {fewer : Nat} (le : fewer ≤ count) : run.Lasts host limit fewer :=
  fun earlier within => lasts earlier (Nat.lt_of_lt_of_le within le)

theorem goes {round : Nat} (within : round < count) :
    ∃ turn, (run.before host limit round).Goes host turn (run.before host limit (round + 1)) :=
  (lasts round within).goes

/-- The due time at a pace that does not change is a multiple of the interval away. -/
theorem due {pace : Pace}
    (paced : ∀ earlier < count, (run.before host limit (earlier + 1)).pace = pace) :
    (run.before host limit count).due = run.due + (count * pace.interval : Nat) := by
  induction count with
  | zero => simp [before]
  | succ count ih =>
    obtain ⟨turn, goes⟩ := lasts.goes (Nat.lt_succ_self count)
    have earlier := ih (lasts.mono (Nat.le_succ count))
      fun earlier within => paced earlier (Nat.lt_succ_of_lt within)
    rw [goes.due, earlier, paced count (Nat.lt_succ_self count), Nat.succ_mul, Int.natCast_add,
      Int.add_assoc]

end Lasts

/-- The round that ends a run refreshes nothing: the run is left with the machine of its last
step, which has at most moved its counter. -/
theorem ended_keeps {ending : Ending} {last : Run}
    (ended : run.round host limit run.onTime = .ended ending last) :
    last.frames = run.frames ∧ last.refreshDue = run.refreshDue ∧
      (ending ≠ .limit → last.machine = run.stepped host) ∧
      (last.machine = run.machine ∨ last.machine = run.machine.advanced) := by
  have comes := round_comesTo host limit run.onTime run
  rw [ended] at comes
  cases comes with
  | limit => exact ⟨rfl, rfl, fun other => absurd rfl other, Or.inl rfl⟩
  | failed _ step => exact ⟨rfl, rfl, fun _ => (stepped_of_error step).symm, Or.inl rfl⟩
  | exited _ step leaves =>
    obtain ⟨machine, -, -, refreshDue, -, frames⟩ := moved_keeps step
    exact ⟨frames, refreshDue, fun _ => machine.trans (stepped_of_ok step).symm,
      Or.inr (machine.trans (Machine.step_exited step leaves))⟩

theorem before_add (first second : Nat) :
    (run.before host limit first).before host limit second =
      run.before host limit (first + second) := by
  induction second with
  | zero => rfl
  | succ second ih => exact congrArg (next host limit) ih

theorem rounds_of_last {count : Nat} {ending : Ending} {last : Run}
    (lasts : run.Lasts host limit count)
    (ended : (run.before host limit count).round host limit (run.before host limit count).onTime =
      .ended ending last) :
    run.rounds host limit (count + 1) = some (ending, last) := by
  -- Rounds that go on use up one of the budget each.
  suffices spent : ∀ budget, run.rounds host limit (count + budget) =
      (run.before host limit count).rounds host limit budget by
    rw [spent]
    exact course_ended 0 ended
  clear ended
  induction count with
  | zero =>
    intro budget
    rw [Nat.zero_add, before]
  | succ count ih =>
    intro budget
    obtain ⟨later, going⟩ := lasts count (Nat.lt_succ_self count)
    have follows : (run.before host limit count).next host limit = later := by rw [next, going]
    rw [Nat.succ_add_eq_add_succ, ih (lasts.mono (Nat.le_succ count)) (budget + 1), before,
      follows]
    exact course_going budget going

/-- A run is as many rounds that go on as it takes, and the round that ends it. -/
theorem exists_last_round {budget : Nat} {ending : Ending} {final : Run}
    (ended : rounds host limit budget run = some (ending, final)) :
    ∃ count, run.Lasts host limit count ∧
      (run.before host limit count).round host limit (run.before host limit count).onTime =
        .ended ending final := by
  induction budget generalizing run with
  | zero => cases ended
  | succ budget ih =>
    cases taken : run.round host limit run.onTime with
    | ended _ last =>
      cases (course_ended budget taken).symm.trans ended
      exact ⟨0, fun earlier none => absurd none (Nat.not_lt_zero earlier), taken⟩
    | going later =>
      have follows : run.next host limit = later := by rw [next, taken]
      have rest := (course_going budget taken).symm.trans ended
      rw [← follows] at rest
      obtain ⟨count, lasts, last⟩ := ih rest
      have after (count : Nat) : (run.next host limit).before host limit count =
          run.before host limit (count + 1) :=
        (before_add 1 count).trans (congrArg (run.before host limit) (Nat.add_comm 1 count))
      simp only [Lasts, after] at lasts last
      refine ⟨count + 1, fun earlier within => ?_, last⟩
      cases earlier with
      | zero => exact ⟨later, taken⟩
      | succ earlier => exact lasts earlier (Nat.lt_of_succ_lt_succ within)

/-- What a round whose instruction is known makes of all but the timers and the screen. -/
theorem next_of_decoded (host : Host) {instruction : Instruction}
    (within : ∀ most ∈ limit, run.cycles < most)
    (decoded : run.machine.dialect.decode run.machine.fetch = .ok instruction)
    (runs : instruction ≠ .exit) :
    let left := run.executed host instruction
    let later := run.next host limit
    run.Continues host limit ∧ later.machine.counter = left.counter ∧
      later.machine.memory = left.memory ∧ later.machine.dialect = left.dialect ∧
      (∀ x, later.machine.registers.get x = left.registers.get x) ∧
      later.cycles = run.cycles + 1 ∧
      (run.machine.fetch ≠ 0x0100 → later.pace = run.pace) := by
  have continues : run.Continues host limit :=
    continues_iff.mpr ⟨within, _, Machine.step_decoded _ decoded,
      (Machine.obey_outcome _ _ _).trans (if_neg runs)⟩
  obtain ⟨turn, goes⟩ := continues.goes
  obtain ⟨found, decoded', left⟩ := goes.leaves
  obtain rfl := Except.ok.inj (decoded.symm.trans decoded')
  dsimp only
  refine ⟨continues, ?_, ?_, ?_, ?_, goes.cycles, fun silent => ?_⟩
  · rw [left]
  · rw [left]
  · rw [left]
  · rw [left]
    intro x
    dsimp only
    split <;> rfl
  · have hertz := goes.pace
    rw [if_neg silent] at hertz
    exact Pace.ext hertz

/-- A program that jumps to where it is goes on as long as cycles are left, at an unchanged pace. -/
theorem before_spins (host : Host) (count : Nat) (spins : run.Spins)
    (within : ∀ most ∈ limit, run.cycles + count ≤ most) :
    let last := run.before host limit count
    last.Spins ∧ last.machine.fetch = run.machine.fetch ∧ last.pace = run.pace ∧
      last.cycles = run.cycles + count ∧ run.Lasts host limit count := by
  induction count with
  | zero => exact ⟨spins, rfl, rfl, rfl, fun earlier none => absurd none (Nat.not_lt_zero earlier)⟩
  | succ count ih =>
    obtain ⟨⟨place, there, jumps⟩, fetched, pace, cycles, lasts⟩ :=
      ih fun most limited => Nat.le_of_succ_le (within most limited)
    have few : ∀ most ∈ limit, (run.before host limit count).cycles < most := by
      rw [cycles]
      exact within
    have silent : (run.before host limit count).machine.fetch ≠ 0x0100 := by
      intro asks
      have plain := (Dialect.decode_eq_ok_iff.mp jumps).1
      rw [Instruction.decode_setFrequency_iff.mpr asks] at plain
      cases plain
    obtain ⟨goesOn, counter, memory, dialect, -, counted, paced⟩ :=
      next_of_decoded host few jumps nofun
    -- The counter is back where it was and the memory is the same, so the jump is fetched again.
    have fetched' : (run.before host limit (count + 1)).machine.fetch =
        (run.before host limit count).machine.fetch := by
      rw [before, Machine.fetch, counter, memory, Machine.fetch, there]
      rfl
    refine ⟨⟨place, counter, ?_⟩, fetched'.trans fetched, (paced silent).trans pace,
      counted.trans (congrArg (· + 1) cycles), fun earlier within => ?_⟩
    · rw [fetched', before, dialect]
      exact jumps
    · rcases Nat.lt_or_eq_of_le (Nat.le_of_lt_succ within) with early | rfl
      · exact lasts earlier early
      · exact goesOn

end

end Run

theorem Arguments.start_keeps (arguments : Arguments) (host : Host) (built begun : Instant) :
    let run := arguments.start host built begun
    run.machine = .fresh arguments.dialect (host.answers 0 (.still built)) ∧
      run.pace = arguments.pace ∧ run.due = begun ∧ run.refreshDue = begun ∧ run.cycles = 0 ∧
      run.frames = 0 :=
  Run.start_keeps host arguments.dialect arguments.pace built begun

end Headless

end Chip8
