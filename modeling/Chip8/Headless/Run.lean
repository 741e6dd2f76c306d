import Chip8.Headless.Line
import Chip8.Headless.Pace
import Chip8.Machine.Step

/-!
# Runs

A run steps a machine at the host's pace and refreshes at sixty hertz, until
the program exits, fails or uses up its cycles. Each round is a function of
what a clock shows while it lasts, so a run is one of its clock. On a clock
that moves just by waiting for the next due step, `rounds` is the whole run.
-/
namespace Chip8.Headless

/-- A host with no screen, no sound and no keys. -/
structure Host where
  rom : Rom
  /-- The stream for each machine that starts: the new one, and then the one that step `number`,
  counted from one, starts over. -/
  words : Nat → WordStream

/-- What a clock shows in one round: where the step starts the machine over, where it lets the
timers have their chance, and after it. -/
structure Moment where
  reset : Instant
  poll : Instant
  after : Instant

/-- A clock that stands. -/
def Moment.still (now : Instant) : Moment := { reset := now, poll := now, after := now }

/-- The answers during step `number`, or to a new machine where that is zero. -/
def Host.answers (host : Host) (number : Nat) (moment : Moment) : Answers where
  resetClock := moment.reset
  pollClock := moment.poll
  held := fun _ => false
  rom := host.rom
  words := host.words number

inductive Ending
  | limit
  | exited
  | failed (counter : UInt16) (fault : Fault)
deriving DecidableEq, Repr

structure Run where
  machine : Machine
  pace : Pace
  cycles : Nat := 0
  frames : Nat := 0
  /-- When the next step is due. -/
  due : Instant
  /-- When the next refresh is due. -/
  refreshDue : Instant
  lines : Array Line := #[]

namespace Run

def say (run : Run) (line : Line) : Run := { run with lines := run.lines.push line }

/-- What the host makes of an event. -/
def hear (run : Run) : Event → Run
  | .note note => run.say (.note note)
  | .call (.loadProgram _ copied) => run.say (.loaded copied)
  | .call .beginTone => run.say .toneOn
  | .call .endTone => run.say .toneOff
  | .call (.setFrequency hertz) => { run.say (.asked hertz) with pace := .nearest hertz }
  | .call (.resized resolution) => run.say (.resized resolution)
  | .call (.draw _) => { run with frames := run.frames + 1 }
  | .call .takeWords | .call (.askKey _) => run

def hearAll (run : Run) (events : List Event) : Run := events.foldl hear run

/-- A new machine on its host, built at one time and about to take its first step at another. -/
def start (host : Host) (dialect : Dialect) (pace : Pace) (built begun : Instant) : Run :=
  let (machine, events) := Machine.boot dialect (host.answers 0 (.still built))
  let run : Run := { machine, pace, due := begun, refreshDue := begun }
  run.hearAll events

/-- Refreshes when that is due. A late refresh does not put off the next one. -/
def refreshAt (now : Instant) (run : Run) : Run :=
  if run.refreshDue ≤ now then
    let (machine, events) := run.machine.refresh
    hearAll { run with machine, refreshDue := run.refreshDue + framePeriod } events
  else run

/-- The pace after a step already governs the wait for the next one. -/
def schedule (run : Run) : Run := { run with due := run.due + run.pace.interval }

inductive Round
  | going (run : Run)
  | ended (ending : Ending) (run : Run)

/-- The step of a round, and what the host makes of it. -/
def advance (host : Host) (limit : Option Nat) (moment : Moment) (run : Run) : Round :=
  if limit.any (· ≤ run.cycles) then .ended .limit (run.say (.limitReached run.cycles))
  else
    match Machine.attempt (host.answers (run.cycles + 1) moment) { machine := run.machine } with
    | .error fault progress =>
      let left := hearAll { run with machine := progress.machine } progress.events
      .ended (.failed run.machine.counter fault) left
    | .ok outcome progress =>
      let moved : Run := { run with machine := progress.machine, cycles := run.cycles + 1 }
      let run := moved.hearAll progress.events
      match outcome with
      | .exited => .ended .exited (run.say (.exited run.cycles))
      | .running => .going run

/-- One round of the loop: a step, a refresh if due, and the next due time. -/
def round (host : Host) (limit : Option Nat) (moment : Moment) (run : Run) : Round :=
  match run.advance host limit moment with
  | .ended ending last => .ended ending last
  | .going moved => .going (moved.refreshAt moment.after).schedule

/-- Rounds by a clock, at most `budget` of them. -/
def course (clock : Run → Moment) (host : Host) (limit : Option Nat) :
    Nat → Run → Option (Ending × Run)
  | 0, _ => none
  | budget + 1, run =>
    match run.round host limit (clock run) with
    | .ended ending run => some (ending, run)
    | .going run => course clock host limit budget run

/-- A clock that stands at the due time of each step. -/
def onTime (run : Run) : Moment := .still run.due

def rounds (host : Host) (limit : Option Nat) : Nat → Run → Option (Ending × Run) :=
  course onTime host limit

end Run

end Chip8.Headless
