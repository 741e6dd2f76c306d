import Chip8.Headless.Run
import Chip8.Proofs.Footprint
import Chip8.Proofs.Surroundings

/-!
# The schedule of a run

A run does more than to step its machine: it counts, refreshes and listens to
what the program asks for. Stripped of that, it is a sequence of beats. On
each the machine takes one step, and the pace in force after the step says
when the next beat is. Where the sequence ends, and why, is where and why the
run does, and the machine that is left is the one that the bare steps lead to.

A refresh clears the dirty flag of the plane, and nothing that a step does
depends on that flag. So the two machines stay the same but for the flag.
-/
namespace Chip8

namespace Machine

/-- The machine after the host has been shown its plane. -/
def shown (machine : Machine) : Machine := { machine with plane := machine.plane.shown }

end Machine

def Turn.shown (turn : Turn) : Turn := { turn with machine := turn.machine.shown }

namespace Machine

variable (answers : Answers) (machine : Machine)

theorem skipIf_shown (condition : Bool) :
    (machine.shown.skipIf condition).shown = (machine.skipIf condition).shown := by
  cases condition <;> rfl

theorem drawSprite_shown (x y height : Nibble) :
    (machine.shown.drawSprite x y height).shown = (machine.drawSprite x y height).shown := by
  -- A sprite is a series of plots, and neither its spots nor a plot look at the flag.
  have drawn (machine : Machine) : (machine.drawSprite x y height).shown =
      { machine with
        plane := (machine.plane.plots (machine.points x y height)).1.shown
        registers :=
          machine.registers.setFlag (machine.plane.plots (machine.points x y height)).2 } := by
    rw [drawSprite_eq, stamp_points]
    rfl
  have same : machine.shown.plane.shown = machine.plane.shown := rfl
  have points : machine.shown.points x y height = machine.points x y height := rfl
  obtain ⟨screen, hit⟩ := Plane.plots_shown same (machine.points x y height)
  rw [drawn machine.shown, drawn machine, points, screen, hit]
  rfl

theorem execute_shown (instruction : Instruction) :
    (execute answers machine.shown instruction).shown =
      (execute answers machine instruction).shown := by
  have turned {machine other : Machine} (events : List Event) (same : machine.shown = other.shown) :
      Turn.shown { machine, events } = Turn.shown { machine := other, events } := by
    rw [Turn.shown, Turn.shown, same]
  cases instruction with
  | skipIfByte | skipUnlessByte | skipIfEqual | skipUnlessEqual | skipIfKey | skipUnlessKey =>
    exact turned _ (skipIf_shown machine _)
  | draw x y height => exact turned _ (drawSprite_shown machine x y height)
  | awaitKey x =>
    simp only [execute, awaitKey]
    split <;> rfl
  | loadRegisters x =>
    apply turned
    have loaded : (machine.shown.loadRegisters x).registers.v =
        (machine.loadRegisters x).registers.v := by
      simp only [loadRegisters, shown]
    rw [loadRegisters_eq machine.shown, loadRegisters_eq machine, loaded]
    rfl
  | _ => rfl

theorem tick_shown (now : Instant) :
    machine.shown.tick now = ((machine.tick now).1.shown, (machine.tick now).2) := by
  simp only [tick, shown]
  split <;> rfl

theorem obey_shown (instruction : Instruction) :
    (machine.shown.obey answers instruction).shown = (machine.obey answers instruction).shown := by
  have executed : (execute answers machine.shown.advanced instruction).shown =
      (execute answers machine.advanced instruction).shown :=
    execute_shown answers machine.advanced instruction
  obtain ⟨left, events, -⟩ := Turn.mk.inj executed
  by_cases leaves : instruction = .exit
  · rw [leaves]
    rfl
  · have ticked := tick_shown (execute answers machine.shown.advanced instruction).machine
      answers.pollClock
    rw [left, tick_shown, Prod.mk.injEq] at ticked
    rw [obey_running answers machine.shown instruction leaves,
      obey_running answers machine instruction leaves]
    simp only [Turn.shown, ← ticked.1, ← ticked.2, events]
    rfl

/-- Whether the plane has been shown makes no difference to a step. -/
theorem step_shown {one other : Machine} (same : one.shown = other.shown) :
    (one.step answers).map Turn.shown = (other.step answers).map Turn.shown := by
  have stepped (machine : Machine) :
      (machine.shown.step answers).map Turn.shown = (machine.step answers).map Turn.shown := by
    cases decoded : machine.dialect.decode machine.fetch with
    | error fault =>
      have decoded' : machine.shown.dialect.decode machine.shown.fetch = .error fault := decoded
      rw [step_refused answers decoded, step_refused answers decoded']
    | ok instruction =>
      have decoded' : machine.shown.dialect.decode machine.shown.fetch = .ok instruction := decoded
      rw [step_decoded answers decoded, step_decoded answers decoded']
      exact congrArg Except.ok (obey_shown answers machine instruction)
  rw [← stepped one, same, stepped other]

end Machine

namespace Headless

/-- What a call makes of the pace. -/
def heed (hertz : Nat) : Call → Nat
  | .setFrequency wish => max wish 1
  | _ => hertz

theorem foldl_heed_of_content {asked : List Call} (hertz : Nat)
    (content : ∀ wish, .setFrequency wish ∉ asked) : asked.foldl heed hertz = hertz := by
  induction asked with
  | nil => rfl
  | cons call rest ih =>
    have kept : heed hertz call = hertz := by
      cases call with
      | setFrequency wish => exact absurd List.mem_cons_self (content wish)
      | _ => rfl
    rw [List.foldl_cons, kept, ih fun wish member => content wish (List.mem_cons_of_mem _ member)]

/-- Only one opcode asks for a pace, and it asks for ten times what register 0 holds. -/
theorem step_heeded {machine : Machine} {answers : Answers} {turn : Turn}
    (stepped : machine.step answers = .ok turn) (hertz : Nat) :
    (calls turn.events).foldl heed hertz =
      if machine.fetch = 0x0100 then max (10 * (machine.registers.get 0).toNat) 1 else hertz := by
  obtain ⟨instruction, decoded, rfl⟩ := Machine.step_obeys stepped
  have plain := (Dialect.decode_eq_ok_iff.mp decoded).1
  split
  next asks =>
    obtain rfl : .setFrequency = instruction :=
      Except.ok.inj ((Instruction.decode_setFrequency_iff.mpr asks).symm.trans plain)
    have ticked : ∀ wish, .setFrequency wish ∉
        calls (machine.advanced.tick answers.pollClock).2 := by
      intro wish
      rw [Machine.tick_calls]
      split <;> simp
    rw [Machine.obey_running answers machine .setFrequency nofun, Nat.mul_comm 10]
    exact foldl_heed_of_content _ ticked
  next content =>
    apply foldl_heed_of_content
    intro wish member
    -- A soft reset asks for much, but not for a pace; all others ask what their footprint allows.
    by_cases soft : instruction = .softReset
    · subst soft
      rw [Machine.obey_running answers machine .softReset nofun] at member
      simp only [Machine.execute, calls_note, calls_append, Machine.reset_calls,
        Machine.tick_calls] at member
      split at member
      all_goals split at member
      all_goals split at member
      all_goals simp at member
    · obtain ⟨asked, ticked, split, last, footprint⟩ :=
        @Machine.obey_footprint answers machine instruction soft
      rw [split, List.mem_append] at member
      rcases member with member | member
      · have asks := footprint.asks _ member
        cases instruction with
        | setFrequency => exact content (Instruction.decode_setFrequency_iff.mp plain)
        | _ => exact asks
      · rcases last with rfl | rfl <;> simp at member

/-- A machine about to take a step by itself, the pace in force, the time of the step and how many
steps there were before it. -/
structure Beat where
  machine : Machine
  hertz : Nat
  time : Instant
  steps : Nat := 0

namespace Beat

/-- The pace after a step. Nothing but the opcode that asks for another changes it. -/
def paceAfter (beat : Beat) : Nat :=
  if beat.machine.fetch = 0x0100 then max (10 * (beat.machine.registers.get 0).toNat) 1
  else beat.hertz

def shown (beat : Beat) : Beat := { beat with machine := beat.machine.shown }

def step (host : Host) (beat : Beat) : Except Fault Turn :=
  beat.machine.step (host.answers (beat.steps + 1) (.still beat.time))

/-- The beat after a step that left a machine. -/
def next (beat : Beat) (machine : Machine) : Beat where
  machine := machine
  hertz := beat.paceAfter
  time := beat.time + (1000000000 / beat.paceAfter : Nat)
  steps := beat.steps + 1

/-- The beat before step `count`, if every step before it leaves the program running. -/
def sequence (host : Host) (start : Beat) : Nat → Option Beat
  | 0 => some start
  | count + 1 => (sequence host start count).bind fun beat =>
    match beat.step host with
    | .error _ => none
    | .ok turn => if turn.outcome = .running then some (beat.next turn.machine) else none

section

variable {host : Host} {start beat : Beat} {count : Nat}

theorem sequence_succ {turn : Turn} (reached : start.sequence host count = some beat)
    (stepped : beat.step host = .ok turn) (runs : turn.outcome = .running) :
    start.sequence host (count + 1) = some (beat.next turn.machine) := by
  simp only [sequence, reached, Option.bind_some, stepped, runs, if_true]

/-- Every beat but the first follows one whose step left the program running. -/
theorem sequence_succ_iff {later : Beat} : start.sequence host (count + 1) = some later ↔
    ∃ beat turn, start.sequence host count = some beat ∧ beat.step host = .ok turn ∧
      turn.outcome = .running ∧ later = beat.next turn.machine := by
  constructor
  · intro reached
    obtain ⟨beat, before, went⟩ := Option.bind_eq_some_iff.mp reached
    split at went
    · cases went
    next turn stepped =>
      split at went
      next runs => exact ⟨beat, turn, before, stepped, runs, (Option.some.inj went).symm⟩
      next => cases went
  · rintro ⟨beat, turn, before, stepped, runs, rfl⟩
    exact sequence_succ before stepped runs

/-- The pace never falls to zero, so the time between two steps is always defined. -/
theorem sequence_hertz (positive : 0 < start.hertz)
    (reached : start.sequence host count = some beat) : 0 < beat.hertz := by
  induction count generalizing beat with
  | zero =>
    cases reached
    exact positive
  | succ count ih =>
    obtain ⟨before, turn, earlier, -, -, rfl⟩ := sequence_succ_iff.mp reached
    have kept := ih earlier
    simp only [next, paceAfter]
    split <;> omega

end

end Beat

/-- Where steps in sequence end, how many succeeded and the machine that they leave. -/
inductive Stops (host : Host) (limit : Option Nat) (start : Beat) : Ending → Nat → Machine → Prop
  | limit {count : Nat} {beat : Beat} : start.sequence host count = some beat →
    limit = some count → Stops host limit start .limit count beat.machine
  | exited {count : Nat} {beat : Beat} {turn : Turn} : start.sequence host count = some beat →
    (∀ most ∈ limit, count < most) → beat.step host = .ok turn → turn.outcome = .exited →
    Stops host limit start .exited (count + 1) turn.machine
  | failed {count : Nat} {beat : Beat} {fault : Fault} : start.sequence host count = some beat →
    (∀ most ∈ limit, count < most) → beat.step host = .error fault →
    Stops host limit start (.failed beat.machine.counter fault) count beat.machine

namespace Run

/-- What of a run takes part in its schedule. -/
def beat (run : Run) : Beat where
  machine := run.machine.shown
  hertz := run.pace.hertz
  time := run.due
  steps := run.cycles

/-- What the host answers in a round at its due time. -/
abbrev answers (host : Host) (run : Run) : Answers := host.answers (run.cycles + 1) run.onTime

/-- The run after a step, which is counted and heard of. -/
def moved (run : Run) (turn : Turn) : Run :=
  { run with machine := turn.machine, cycles := run.cycles + 1 }.hearAll turn.events

section

variable (run : Run)

theorem hear_beat (event : Event) : (run.hear event).beat =
    { run.beat with hertz := (calls [event]).foldl heed run.pace.hertz } := by
  cases event with
  | note note => rfl
  | call call => cases call <;> rfl

/-- Of all that is heard only a wish for another pace takes part in the schedule. -/
theorem hearAll_beat (events : List Event) : (run.hearAll events).beat =
    { run.beat with hertz := (calls events).foldl heed run.pace.hertz } := by
  induction events generalizing run with
  | nil => rfl
  | cons event rest ih =>
    have heard := run.hear_beat event
    have hertz : (run.hear event).pace.hertz = (calls [event]).foldl heed run.pace.hertz :=
      congrArg Beat.hertz heard
    have split : calls (event :: rest) = calls [event] ++ calls rest := calls_append [event] rest
    -- The rest is heard at the pace that this event has left.
    rw [split, List.foldl_append, ← hertz]
    exact (ih (run.hear event)).trans (by rw [heard])

/-- A refresh takes no part in it either. -/
theorem refreshAt_beat (now : Instant) : (run.refreshAt now).beat = run.beat := by
  unfold refreshAt
  split
  · refine (hearAll_beat { run with
      machine := run.machine.refresh.1
      refreshDue := run.refreshDue + framePeriod } run.machine.refresh.2).trans ?_
    -- All that a refresh asks for is that the screen be drawn.
    simp only [beat, Machine.refresh_calls, Machine.refresh_eq]
    split <;> rfl
  · rfl

end

section

variable {host : Host} {limit : Option Nat} {moment : Moment} {run : Run}

theorem round_limit {most : Nat} (limited : most ∈ limit) (reached : most ≤ run.cycles) :
    run.round host limit moment = .ended .limit (run.say (.limitReached run.cycles)) := by
  have full : limit.any (· ≤ run.cycles) = true := by
    rw [Option.mem_def.mp limited]
    simpa using reached
  simp only [round, advance, full, if_true]

theorem below_limit (within : ∀ most ∈ limit, run.cycles < most) :
    limit.any (· ≤ run.cycles) = false := by
  cases limit with
  | none => rfl
  | some most => simpa using within most rfl

variable (within : ∀ most ∈ limit, run.cycles < most)
include within

/-- A step that is refused is the end of a run, which it leaves as it was. -/
theorem round_of_refused {fault : Fault}
    (refused : run.machine.step (host.answers (run.cycles + 1) moment) = .error fault) :
    run.round host limit moment = .ended (.failed run.machine.counter fault) run := by
  simp only [round, advance, below_limit within, Machine.attempt_of_error refused]
  rfl

/-- The exit itself is counted. Neither a refresh nor a wait comes after it. -/
theorem round_of_exit {turn : Turn}
    (stepped : run.machine.step (host.answers (run.cycles + 1) moment) = .ok turn)
    (leaves : turn.outcome = .exited) :
    run.round host limit moment =
      .ended .exited ((run.moved turn).say (.exited (run.moved turn).cycles)) := by
  simp only [round, advance, below_limit within, Machine.attempt_of_ok stepped, leaves]
  rfl

theorem round_of_step {turn : Turn}
    (stepped : run.machine.step (host.answers (run.cycles + 1) moment) = .ok turn)
    (runs : turn.outcome = .running) :
    run.round host limit moment = .going ((run.moved turn).refreshAt moment.after).schedule := by
  simp only [round, advance, below_limit within, Machine.attempt_of_ok stepped, runs]
  rfl

end

section

variable {clock : Run → Moment} {host : Host} {limit : Option Nat} {run : Run}

theorem course_going {later : Run} (budget : Nat)
    (went : run.round host limit (clock run) = .going later) :
    run.course clock host limit (budget + 1) = later.course clock host limit budget := by
  rw [course, went]

theorem course_ended {ending : Ending} {last : Run} (budget : Nat)
    (ended : run.round host limit (clock run) = .ended ending last) :
    run.course clock host limit (budget + 1) = some (ending, last) := by
  rw [course, ended]

end

section

variable {host : Host} {limit : Option Nat} {run : Run} {beat : Beat} (same : run.beat = beat.shown)
include same

/-- Bare steps do what the steps of a run do. -/
theorem step_beat (host : Host) :
    (run.machine.step (run.answers host)).map Turn.shown =
      (beat.step host).map Turn.shown := by
  have machine : run.machine.shown = beat.machine.shown := congrArg Beat.machine same
  have time : run.due = beat.time := congrArg Beat.time same
  have steps : run.cycles = beat.steps := congrArg Beat.steps same
  rw [Beat.step, ← time, ← steps]
  exact Machine.step_shown _ machine

theorem step_beat_error {fault : Fault} (refused : beat.step host = .error fault) :
    run.machine.step (run.answers host) = .error fault := by
  have both := step_beat same host
  rw [refused] at both
  cases stepped : run.machine.step (run.answers host) with
  | error other =>
    rw [stepped] at both
    exact congrArg Except.error (Except.error.inj both)
  | ok taken =>
    rw [stepped] at both
    cases both

theorem step_beat_ok {turn : Turn} (stepped : beat.step host = .ok turn) :
    ∃ taken, run.machine.step (run.answers host) = .ok taken ∧
      taken.machine.shown = turn.machine.shown ∧ taken.events = turn.events ∧
      taken.outcome = turn.outcome := by
  have both := step_beat same host
  rw [stepped] at both
  cases found : run.machine.step (run.answers host) with
  | error fault =>
    rw [found] at both
    cases both
  | ok taken =>
    rw [found] at both
    exact ⟨taken, rfl, Turn.mk.inj (Except.ok.inj both)⟩

variable (within : ∀ most ∈ limit, run.cycles < most)
include within

theorem round_failed {fault : Fault} (refused : beat.step host = .error fault) :
    run.round host limit run.onTime = .ended (.failed beat.machine.counter fault) run := by
  have counter : run.machine.counter = beat.machine.counter :=
    congrArg (fun beat => beat.machine.counter) same
  rw [round_of_refused within (step_beat_error same refused), counter]

theorem round_exited {turn : Turn} (stepped : beat.step host = .ok turn)
    (leaves : turn.outcome = .exited) :
    ∃ last, run.round host limit run.onTime = .ended .exited last ∧
      last.cycles = run.cycles + 1 ∧ last.machine.shown = turn.machine.shown := by
  obtain ⟨taken, found, machine, -, outcome⟩ := step_beat_ok same stepped
  have heard : (run.moved taken).beat = _ := hearAll_beat _ taken.events
  have left : (run.moved taken).machine.shown = taken.machine.shown := congrArg Beat.machine heard
  exact ⟨_, round_of_exit within found (outcome.trans leaves), congrArg Beat.steps heard,
    left.trans machine⟩

/-- The pace after the step is the one that the program may just have asked for. -/
theorem round_going {turn : Turn} (stepped : beat.step host = .ok turn)
    (runs : turn.outcome = .running) :
    ∃ next, run.round host limit run.onTime = .going next ∧
      next.cycles = run.cycles + 1 ∧ next.beat = (beat.next turn.machine).shown := by
  obtain ⟨taken, found, machine, events, outcome⟩ := step_beat_ok same stepped
  have pace : run.pace.hertz = beat.hertz := congrArg Beat.hertz same
  have time : run.due = beat.time := congrArg Beat.time same
  have steps : run.cycles = beat.steps := congrArg Beat.steps same
  -- The pace is what the calls of this very step leave of it.
  have hertz : (calls taken.events).foldl heed run.pace.hertz = beat.paceAfter := by
    rw [events, step_heeded stepped, pace, Beat.paceAfter]
  let refreshed := (run.moved taken).refreshAt run.due
  have left : refreshed.beat =
      { machine := turn.machine.shown, hertz := beat.paceAfter, time := beat.time
        steps := beat.steps + 1 } := by
    have heard : (run.moved taken).beat = _ := hearAll_beat _ taken.events
    rw [refreshAt_beat, heard, ← hertz, ← machine, ← time, ← steps]
    rfl
  have scheduled : refreshed.schedule.beat =
      { refreshed.beat with
        time := refreshed.beat.time + (1000000000 / refreshed.beat.hertz : Nat) } := rfl
  rw [left] at scheduled
  exact ⟨refreshed.schedule, round_of_step within found (outcome.trans runs),
    (congrArg Beat.steps scheduled).trans (congrArg (· + 1) steps.symm), scheduled⟩

end

/-- A run on its schedule: it has come as far as a sequence of bare steps has. -/
structure OnBeat (host : Host) (start : Beat) (run : Run) (beat : Beat) : Prop where
  reached : start.sequence host run.cycles = some beat
  same : run.beat = beat.shown

section

variable {host : Host} {limit : Option Nat} {start : Beat} {run : Run} {beat : Beat}

/-- One more round is one more step of the sequence. -/
theorem OnBeat.going {turn : Turn} (on : OnBeat host start run beat)
    (within : ∀ most ∈ limit, run.cycles < most) (stepped : beat.step host = .ok turn)
    (runs : turn.outcome = .running) :
    ∃ next, run.round host limit run.onTime = .going next ∧ next.cycles = run.cycles + 1 ∧
      OnBeat host start next (beat.next turn.machine) := by
  obtain ⟨next, went, cycles, left⟩ := round_going on.same within stepped runs
  refine ⟨next, went, cycles, ?_, left⟩
  rw [cycles]
  exact Beat.sequence_succ on.reached stepped runs

/-- A run that is given enough rounds gets to every step of the sequence. -/
theorem OnBeat.catches_up (fresh : OnBeat host start run start) (new : run.cycles = 0)
    {count : Nat} (reached : start.sequence host count = some beat)
    (within : ∀ most ∈ limit, count ≤ most) :
    ∃ later, later.cycles = count ∧ OnBeat host start later beat ∧
      ∀ budget, rounds host limit (count + budget) run = rounds host limit budget later := by
  -- On the number of steps; the rounds made so far are kept in front of any budget.
  induction count generalizing beat with
  | zero =>
    obtain rfl : start = beat := Option.some.inj reached
    exact ⟨run, new, fresh, fun budget => by rw [Nat.zero_add]⟩
  | succ count ih =>
    obtain ⟨before, turn, earlier, stepped, runs, rfl⟩ := Beat.sequence_succ_iff.mp reached
    obtain ⟨there, cycles, on, same⟩ := ih earlier fun most limited => by
      have := within most limited
      omega
    have room : ∀ most ∈ limit, there.cycles < most := by
      rw [cycles]
      exact within
    obtain ⟨next, went, counted, later⟩ := on.going room stepped runs
    refine ⟨next, by rw [counted, cycles], later, fun budget => ?_⟩
    have split : count + 1 + budget = count + (budget + 1) := by omega
    rw [split, same]
    exact course_going budget went

/-- So it ends the way that its round there does. -/
theorem OnBeat.arrives (fresh : OnBeat host start run start) (new : run.cycles = 0)
    {count : Nat} (reached : start.sequence host count = some beat)
    (within : ∀ most ∈ limit, count ≤ most) :
    ∃ later, later.cycles = count ∧ OnBeat host start later beat ∧
      ∀ {ending last budget}, later.round host limit later.onTime = .ended ending last →
        count < budget → rounds host limit budget run = some (ending, last) := by
  obtain ⟨later, cycles, on, same⟩ := fresh.catches_up new reached within
  refine ⟨later, cycles, on, fun {ending last budget} ended enough => ?_⟩
  have split : budget = count + (budget - count - 1 + 1) := by omega
  rw [split, same]
  exact course_ended _ ended

/-- Where the sequence stops, the run does. -/
theorem OnBeat.ends (fresh : OnBeat host start run start) (new : run.cycles = 0)
    {ending : Ending} {count : Nat} {machine : Machine}
    (stops : Stops host limit start ending count machine) {budget : Nat} (enough : count < budget) :
    ∃ final, rounds host limit budget run = some (ending, final) ∧ final.cycles = count ∧
      final.machine.shown = machine.shown := by
  cases stops with
  | limit reached limited =>
    have within : ∀ most ∈ limit, count ≤ most := fun most known =>
      Nat.le_of_eq (Option.some.inj (limited.symm.trans known))
    obtain ⟨later, cycles, on, ends⟩ := fresh.arrives new reached within
    rw [← cycles] at limited
    exact ⟨_, ends (round_limit limited (Nat.le_refl _)) enough, cycles,
      congrArg Beat.machine on.same⟩
  | exited reached within stepped leaves =>
    obtain ⟨later, cycles, on, ends⟩ := fresh.arrives new reached
      fun most limited => Nat.le_of_lt (within most limited)
    rw [← cycles] at within
    obtain ⟨last, went, counted, left⟩ := round_exited on.same within stepped leaves
    exact ⟨last, ends went (Nat.lt_of_succ_lt enough), by rw [counted, cycles], left⟩
  | failed reached within refused =>
    obtain ⟨later, cycles, on, ends⟩ := fresh.arrives new reached
      fun most limited => Nat.le_of_lt (within most limited)
    rw [← cycles] at within
    have went := round_failed on.same within refused
    exact ⟨later, ends went enough, cycles, congrArg Beat.machine on.same⟩

/-- Where a run ends, the sequence has stopped. -/
theorem OnBeat.stops {budget : Nat} {ending : Ending} {final : Run}
    (on : OnBeat host start run beat) (within : ∀ most ∈ limit, run.cycles ≤ most)
    (ended : rounds host limit budget run = some (ending, final)) :
    ∃ machine, Stops host limit start ending final.cycles machine ∧
      final.machine.shown = machine.shown := by
  induction budget generalizing run beat with
  | zero => cases ended
  | succ budget ih =>
    -- The limit is looked at before the step is taken, and only ever met exactly.
    by_cases full : limit = some run.cycles
    · cases (course_ended _ (round_limit full (Nat.le_refl _))).symm.trans ended
      exact ⟨beat.machine, .limit on.reached full, congrArg Beat.machine on.same⟩
    · have room : ∀ most ∈ limit, run.cycles < most := by
        intro most limited
        refine Nat.lt_of_le_of_ne (within most limited) fun equal => full ?_
        rw [equal]
        exact limited
      cases stepped : beat.step host with
      | error fault =>
        cases (course_ended _ (round_failed on.same room stepped)).symm.trans ended
        exact ⟨beat.machine, .failed on.reached room stepped, congrArg Beat.machine on.same⟩
      | ok turn =>
        cases runs : turn.outcome with
        | exited =>
          obtain ⟨last, went, counted, left⟩ := round_exited on.same room stepped runs
          cases (course_ended _ went).symm.trans ended
          rw [counted]
          exact ⟨turn.machine, .exited on.reached room stepped runs, left⟩
        | running =>
          obtain ⟨next, went, counted, later⟩ := on.going room stepped runs
          refine ih later (fun most limited => ?_) ((course_going _ went).symm.trans ended)
          rw [counted]
          exact room most limited

end

end Run

/-- A sequence with a limit goes on up to the limit or has stopped before. -/
theorem sequence_or_stops (host : Host) {limit : Option Nat} (start : Beat) {most : Nat}
    (limited : limit = some most) {count : Nat} (within : count ≤ most) :
    (∃ beat, start.sequence host count = some beat) ∨
      ∃ ending stop machine, Stops host limit start ending stop machine ∧ stop ≤ most := by
  induction count with
  | zero => exact .inl ⟨start, rfl⟩
  | succ count ih =>
    rcases ih (Nat.le_of_succ_le within) with ⟨beat, reached⟩ | stopped
    · have room : ∀ most ∈ limit, count < most := fun other known => by
        obtain rfl : most = other := Option.some.inj (limited.symm.trans known)
        exact within
      -- Below the limit it is the step alone that decides.
      cases stepped : beat.step host with
      | error fault => exact .inr ⟨_, _, _, .failed reached room stepped, Nat.le_of_succ_le within⟩
      | ok turn =>
        cases runs : turn.outcome with
        | exited => exact .inr ⟨_, _, _, .exited reached room stepped runs, within⟩
        | running => exact .inl ⟨_, Beat.sequence_succ reached stepped runs⟩
    · exact .inr stopped

theorem exists_stops (host : Host) {limit : Option Nat} (start : Beat) {most : Nat}
    (limited : limit = some most) :
    ∃ ending stop machine, Stops host limit start ending stop machine ∧ stop ≤ most := by
  rcases sequence_or_stops host start limited (Nat.le_refl most) with ⟨beat, reached⟩ | stopped
  · exact ⟨_, _, _, .limit reached limited, Nat.le_refl most⟩
  · exact stopped

/-- A run is its sequence of bare steps. Where the one stops the other does, after as many
steps, for the same reason and with the same machine. With a limit they always stop. -/
theorem Run.rounds_iterate_steps (host : Host) (limit : Option Nat) (run : Run)
    (new : run.cycles = 0) :
    let start : Beat := { machine := run.machine, hertz := run.pace.hertz, time := run.due }
    (∀ count beat, start.sequence host count = some beat → 0 < beat.hertz) ∧
    (∀ ending count machine, Stops host limit start ending count machine →
      ∀ budget, count < budget → ∃ final, run.rounds host limit budget = some (ending, final) ∧
        final.cycles = count ∧ final.machine.shown = machine.shown) ∧
    (∀ budget ending final, run.rounds host limit budget = some (ending, final) →
      ∃ machine, Stops host limit start ending final.cycles machine ∧
        final.machine.shown = machine.shown) ∧
    ∀ most, limit = some most → ∀ budget, most < budget →
      ∃ ending final, run.rounds host limit budget = some (ending, final) := by
  intro start
  have same : run.beat = start.shown := congrArg (fun steps => { run.beat with steps }) new
  have fresh : OnBeat host start run start := ⟨by rw [new]; rfl, same⟩
  refine ⟨fun count beat => Beat.sequence_hertz run.pace.positive, ?_, ?_, ?_⟩
  · intro ending count machine stops budget
    exact fresh.ends new stops
  · intro budget ending final ended
    exact fresh.stops (fun most limited => by rw [new]; exact Nat.zero_le most) ended
  · intro most limited budget enough
    obtain ⟨ending, count, machine, stops, early⟩ := exists_stops host start limited
    obtain ⟨final, ended, -⟩ := fresh.ends new stops (Nat.lt_of_le_of_lt early enough)
    exact ⟨ending, final, ended⟩

/-- A program that asks for a pace of zero waits a whole second before it exits. -/
theorem Run.rounds_iterate_steps_exit :
    let host : Host :=
      { rom := { bytes := #[0x01, 0x00, 0x00, 0xFD] }, words := fun _ => .cycling #[] }
    let machine : Machine := .fresh { hostExtensions := true } (host.answers 0 (.still 0))
    let run : Run := { machine, pace := .standard, due := 0, refreshDue := 0 }
    let start : Beat := { machine, hertz := 500, time := 0 }
    ∃ second final, start.sequence host 1 = some second ∧ second.time = 1000000000 ∧
      run.rounds host none 3 = some (.exited, final) ∧ final.cycles = 2 ∧
      final.machine.counter = 0x204 := by
  intro host machine run start
  have fetched : machine.fetch = 0x0100 ∧ machine.advanced.fetch = 0x00FD := by
    simp only [machine, host, Machine.fresh, Machine.advanced, Machine.fetch, Memory.readWord,
      Memory.read, get_eq_getElem, Memory.load, Memory.blank, Vector.getElem_mapIdx,
      Vector.getElem_replicate]
    decide
  have asks : start.step host = .ok (machine.obey (host.answers 0 (.still 0)) .setFrequency) :=
    Machine.step_decoded _ (by rw [fetched.1]; rfl)
  let second := start.next (machine.obey (host.answers 0 (.still 0)) .setFrequency).machine
  have reached : start.sequence host 1 = some second := Beat.sequence_succ rfl asks rfl
  have paced : start.paceAfter = 1 := if_pos fetched.1
  have time : second.time = 1000000000 := by
    simp only [second, Beat.next, paced]
    rfl
  have last : second.machine.fetch = 0x00FD := fetched.2
  have exits : second.step host =
      .ok (second.machine.obey (host.answers 2 (.still second.time)) .exit) :=
    Machine.step_decoded _ (by rw [last]; rfl)
  obtain ⟨-, ends, -, -⟩ := Run.rounds_iterate_steps host none run rfl
  have stops := Stops.exited reached (by simp : ∀ most ∈ (none : Option Nat), 1 < most) exits rfl
  obtain ⟨final, ended, cycles, left⟩ := ends _ _ _ stops 3 (by decide)
  have counter : final.machine.counter = second.machine.advanced.counter :=
    congrArg (fun machine => machine.counter) left
  exact ⟨second, final, reached, time, ended, cycles, counter⟩

end Headless

end Chip8
