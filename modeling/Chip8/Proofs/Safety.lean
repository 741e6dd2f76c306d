import Chip8.Proofs.Checked.Sessions
import Chip8.Proofs.Rounds

/-!
# Safety

No session and no run fails, however it is used and whatever its program does.
The machine of plain numbers, in which every sum, product, difference, shift,
index and slice is checked, always succeeds.
-/
namespace Chip8.Checked

/-- What a call makes of the pace. -/
def heed (hertz : Nat) : Call → Nat
  | .setFrequency wish => max wish 1
  | _ => hertz

/-- A run with a plain number for its pace. -/
structure Run where
  machine : Machine
  hertz : Nat
  cycles : Nat
  due : Instant
  refreshDue : Instant

inductive Round
  | going (run : Run)
  | ended (ending : Headless.Ending) (run : Run)

namespace Run

def refreshIfDue (run : Run) : Option Run :=
  if run.refreshDue ≤ run.due then do
    let refreshed ← run.machine.refresh
    return { run with
      machine := refreshed.1
      hertz := refreshed.2.foldl heed run.hertz
      refreshDue := run.refreshDue + framePeriod }
  else
    return run

/-- What follows a step. The time until the next one is a quotient. -/
def follow (run : Run) (turn : Turn) : Option Round :=
  let run := { run with
    machine := turn.machine
    hertz := turn.calls.foldl heed run.hertz
    cycles := run.cycles + 1 }
  match turn.outcome with
  | .exited => return .ended .exited run
  | .running => do
    let run ← run.refreshIfDue
    let interval ← div 1000000000 run.hertz
    return .going { run with due := run.due + (interval : Nat) }

/-- One round at the time when its step is due. -/
def round (host : Headless.Host) (limit : Option Nat) (run : Run) : Option Round :=
  if limit.any (· ≤ run.cycles) then
    return .ended .limit run
  else do
    match ← run.machine.step (host.answers (run.cycles + 1) (.still run.due)) with
    | .error fault => return .ended (.failed run.machine.counter fault) run
    | .ok turn => run.follow turn

def rounds (host : Headless.Host) (limit : Option Nat) :
    Nat → Run → Option (Option (Headless.Ending × Run))
  | 0, _ => return none
  | budget + 1, run => do
    match ← run.round host limit with
    | .ended ending run => return some (ending, run)
    | .going run => rounds host limit budget run

/-- A run with its numbers made plain. -/
def of (run : Headless.Run) : Run where
  machine := .of run.machine
  hertz := run.pace.hertz
  cycles := run.cycles
  due := run.due
  refreshDue := run.refreshDue

variable (run : Headless.Run)

theorem hearAll_of (events : List Event) : of (run.hearAll events) =
    { of run with hertz := (asked events).foldl heed run.pace.hertz } := by
  induction events generalizing run with
  | nil => rfl
  | cons event rest ih =>
    have first : of (run.hear event) =
        { of run with hertz := (asked [event]).foldl heed run.pace.hertz } := by
      cases event with
      | note note => rfl
      | call call => cases call <;> rfl
    have split : asked (event :: rest) = asked [event] ++ asked rest := asked_append [event] rest
    have hertz : (run.hear event).pace.hertz = (asked [event]).foldl heed run.pace.hertz :=
      congrArg Run.hertz first
    have later := ih (run.hear event)
    rw [first, hertz] at later
    rw [split, List.foldl_append]
    exact later

theorem refreshIfDue_of : (of run).refreshIfDue = some (of (run.refreshAt run.due)) := by
  have machine : (of run).machine = .of run.machine := rfl
  simp only [refreshIfDue, Headless.Run.refreshAt, machine, Machine.refresh_of,
    Option.bind_eq_bind, Option.bind_some]
  by_cases late : run.refreshDue ≤ run.due
  · have heard := hearAll_of { run with
      machine := run.machine.refresh.1
      refreshDue := run.refreshDue + framePeriod } run.machine.refresh.2
    rw [if_pos late, heard]
    exact if_pos late
  · rw [if_neg late]
    exact if_neg late

/-- A round with its numbers made plain. -/
def roundOf : Headless.Run.Round → Round
  | .going run => .going (of run)
  | .ended ending run => .ended ending (of run)

theorem follow_of (turn : Chip8.Turn) :
    (of run).follow (.of turn) = some (roundOf (match turn.outcome with
      | .exited => .ended .exited ((run.moved turn).say (.exited (run.moved turn).cycles))
      | .running => .going ((run.moved turn).refreshAt run.due).schedule)) := by
  have known : of (run.moved turn) = { of run with
      machine := .of turn.machine
      hertz := (asked turn.events).foldl heed run.pace.hertz
      cycles := run.cycles + 1 } := hearAll_of _ turn.events
  have still : (run.moved turn).due = run.due := congrArg Run.due known
  -- What a run says is no part of its image, so both ends may differ in it.
  generalize run.moved turn = heard at known still ⊢
  obtain ⟨machine, events, outcome⟩ := turn
  cases outcome with
  | exited => exact congrArg (fun run => some (Round.ended .exited run)) known.symm
  | running =>
    let later := heard.refreshAt run.due
    have refreshed : (of heard).refreshIfDue = some (of later) := by
      rw [refreshIfDue_of, still]
    -- The pace is positive by its type, so there is something to divide by.
    have interval : div 1000000000 later.pace.hertz = some later.pace.interval :=
      div_eq later.pace.positive
    rw [known] at refreshed
    refine (congrArg (fun run => run.bind fun run => (div 1000000000 run.hertz).bind fun interval =>
      some (Round.going { run with due := run.due + (interval : Nat) })) refreshed).trans ?_
    exact congrArg (fun interval => interval.bind fun interval =>
      some (Round.going { of later with due := later.due + (interval : Nat) })) interval

theorem asked_step_of (host : Headless.Host) :
    (of run).machine.step (host.answers ((of run).cycles + 1) (.still (of run).due)) =
      some ((run.machine.step (run.answers host)).map Turn.of) :=
  Machine.step_of run.machine (run.answers host)

theorem round_refused_of {host : Headless.Host} {limit : Option Nat} {fault : Fault}
    (within : ∀ most ∈ limit, run.cycles < most)
    (refused : run.machine.step (run.answers host) = .error fault) :
    (of run).round host limit =
      some (.ended (.failed run.machine.counter fault) (of run)) := by
  have room : limit.any (· ≤ (of run).cycles) = false := Headless.Run.below_limit within
  simp only [round, room, asked_step_of, refused, Option.bind_eq_bind, Option.bind_some]
  rfl

theorem round_stepped_of {host : Headless.Host} {limit : Option Nat} {turn : Chip8.Turn}
    (within : ∀ most ∈ limit, run.cycles < most)
    (stepped : run.machine.step (run.answers host) = .ok turn) :
    (of run).round host limit = (of run).follow (.of turn) := by
  have room : limit.any (· ≤ (of run).cycles) = false := Headless.Run.below_limit within
  simp only [round, room, asked_step_of, stepped, Option.bind_eq_bind, Option.bind_some]
  rfl

theorem round_of (host : Headless.Host) (limit : Option Nat) :
    (of run).round host limit = some (roundOf (run.round host limit run.onTime)) := by
  have comes := run.round_comesTo host limit run.onTime
  generalize run.round host limit run.onTime = came at comes ⊢
  cases comes with
  | @limit most limited reached =>
    have full : limit.any (· ≤ (of run).cycles) = true := by
      rw [Option.mem_def.mp limited]
      exact decide_eq_true reached
    rw [round, if_pos full]
    rfl
  | failed within refused => exact round_refused_of run within refused
  | @exited turn within step leaves =>
    have followed := follow_of run turn
    rw [leaves] at followed
    exact (round_stepped_of run within step).trans followed
  | @going turn within step runs =>
    have followed := follow_of run turn
    rw [runs] at followed
    exact (round_stepped_of run within step).trans followed

theorem rounds_of (host : Headless.Host) (limit : Option Nat) (budget : Nat) :
    rounds host limit budget (of run) =
      some ((run.rounds host limit budget).map fun ended => (ended.1, of ended.2)) := by
  induction budget generalizing run with
  | zero => rfl
  | succ budget ih =>
    simp only [rounds, round_of, Option.bind_eq_bind, Option.bind_some]
    cases came : run.round host limit run.onTime with
    | going next =>
      rw [Headless.Run.rounds, Headless.Run.course_going budget came]
      exact ih next
    | ended ending last =>
      rw [Headless.Run.rounds, Headless.Run.course_ended budget came]
      rfl

end Run

theorem heed_positive {hertz : Nat} (positive : 0 < hertz) (calls : List Call) :
    0 < calls.foldl heed hertz := by
  induction calls generalizing hertz with
  | nil => exact positive
  | cons call rest ih =>
    have heeded : 0 < heed hertz call := by
      cases call with
      | setFrequency wish => exact Nat.le_max_right wish 1
      | _ => exact positive
    exact ih heeded

/-- No session fails: whatever is done to a machine, every checked operation gives its result, the
stack pointer is one of sixteen, the width one of two, and the host is only asked for what it can
rely on. No run fails either, and its pace is never zero. -/
theorem never_fails :
    (∀ (dialect : Dialect) (answers : Answers) (uses : List Use),
      ∃ record, Machine.session dialect answers uses = some record ∧
        record = .of (Chip8.Machine.session dialect answers (operations uses))
          (dumps (.fresh dialect answers) uses) ∧
        record.machine.stack.pointer.toNat < 16 ∧
        (record.machine.display.width = 64 ∨ record.machine.display.width = 128) ∧
        ∀ call ∈ record.calls, call.Respectful) ∧
    (∀ (host : Headless.Host) (limit : Option Nat) (start : Headless.Run) (budget : Nat),
      (Run.of start).rounds host limit budget =
        some ((start.rounds host limit budget).map fun ended => (ended.1, .of ended.2))) ∧
    ∀ (start : Headless.Run) (calls : List Call),
      0 < calls.foldl heed (Run.of start).hertz := by
  refine ⟨fun dialect answers uses => ?_, fun host limit start budget => ?_, fun start calls => ?_⟩
  · let plain := Chip8.Machine.session dialect answers (operations uses)
    refine ⟨_, Machine.session_of dialect answers uses, rfl, ?_, ?_, ?_⟩
    · exact lt_of_eq_of_lt (byte_of_nibble plain.machine.stack.pointer)
        plain.machine.stack.pointer.isLt
    · exact (Display.size_cases plain.machine.plane).imp And.left And.left
    · exact session_respects dialect answers (operations uses)
  · exact Run.rounds_of start host limit budget
  · exact heed_positive start.pace.positive calls

end Chip8.Checked
