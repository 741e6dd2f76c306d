import Chip8.Proofs.Execution

/-!
# Sessions

A host builds a machine and from then on steps, resets and refreshes it in any
order, with answers that it may change every time. A session is all that comes
of this: the machine as it is left, every event since the construction and a
reply to each operation. What the parts of one operation keep, a session keeps.
-/
namespace Chip8

/-- What a host does to its machine, with what it would answer meanwhile. -/
inductive Operation
  | step (answers : Answers)
  | reset (answers : Answers)
  | refresh

/-- What the host is told in return. -/
inductive Reply
  | done
  | stepped (outcome : Outcome)
  | refused (fault : Fault)
deriving DecidableEq, Repr

/-- What came of one operation. -/
structure Response where
  machine : Machine
  events : List Event
  reply : Reply

/-- What came of operations one after the other. -/
structure History where
  machine : Machine
  events : List Event := []
  replies : List Reply := []

namespace Machine

/-- What is left of a step that is refused is what it had come to. -/
def perform (machine : Machine) : Operation → Response
  | .step answers =>
    match attempt answers { machine } with
    | .ok outcome progress =>
      { machine := progress.machine, events := progress.events, reply := .stepped outcome }
    | .error fault progress =>
      { machine := progress.machine, events := progress.events, reply := .refused fault }
  | .reset answers =>
    let (machine, events) := machine.reset answers
    { machine, events, reply := .done }
  | .refresh =>
    let (machine, events) := machine.refresh
    { machine, events, reply := .done }

def run (machine : Machine) : List Operation → History
  | [] => { machine }
  | operation :: rest =>
    let response := machine.perform operation
    let later := response.machine.run rest
    { machine := later.machine
      events := response.events ++ later.events
      replies := response.reply :: later.replies }

def session (dialect : Dialect) (answers : Answers) (operations : List Operation) : History :=
  let (machine, events) := boot dialect answers
  let later := machine.run operations
  { later with events := events ++ later.events }

/-- A step that is refused leaves the machine as it was, and nothing has happened. -/
theorem perform_error {machine : Machine} {answers : Answers} {fault : Fault}
    (refused : machine.step answers = .error fault) :
    machine.perform (.step answers) = { machine, events := [], reply := .refused fault } := by
  rw [perform, attempt_of_error refused]

theorem perform_ok {machine : Machine} {answers : Answers} {turn : Turn}
    (stepped : machine.step answers = .ok turn) :
    machine.perform (.step answers) =
      { machine := turn.machine, events := turn.events, reply := .stepped turn.outcome } := by
  rw [perform, attempt_of_ok stepped]

/-- A step that is not refused obeys the instruction at the counter. -/
theorem step_obeys {machine : Machine} {answers : Answers} {turn : Turn}
    (stepped : machine.step answers = .ok turn) :
    ∃ instruction, machine.dialect.decode machine.fetch = .ok instruction ∧
      machine.obey answers instruction = turn := by
  cases decoded : machine.dialect.decode machine.fetch with
  | error fault =>
    rw [step_refused answers decoded] at stepped
    cases stepped
  | ok instruction =>
    rw [step_decoded answers decoded] at stepped
    exact ⟨instruction, rfl, Except.ok.inj stepped⟩

/-- Once an instruction is executed and does not exit, all that is left is for the timers to have
their chance. -/
theorem perform_running {machine : Machine} {instruction : Instruction} (answers : Answers)
    (decoded : machine.dialect.decode machine.fetch = .ok instruction)
    (runs : instruction ≠ .exit) :
    (machine.perform (.step answers)).machine =
      ((execute answers machine.advanced instruction).machine.tick answers.pollClock).1 := by
  simp only [perform_ok (step_decoded answers decoded),
    obey_running answers machine instruction runs]

theorem perform_same {machine : Machine} {instruction : Instruction} (answers : Answers)
    (decoded : machine.dialect.decode machine.fetch = .ok instruction)
    (runs : instruction ≠ .exit) :
    (execute answers machine.advanced instruction).machine.SameButTimers
      (machine.perform (.step answers)).machine := by
  rw [perform_running answers decoded runs]
  exact tick_same answers.pollClock _

theorem run_append (machine : Machine) (first second : List Operation) :
    machine.run (first ++ second) =
      let early := machine.run first
      let late := early.machine.run second
      { machine := late.machine
        events := early.events ++ late.events
        replies := early.replies ++ late.replies } := by
  induction first generalizing machine with
  | nil => rfl
  | cons operation rest ih =>
    simp only [List.cons_append, run, ih, List.append_assoc]

theorem session_append (dialect : Dialect) (answers : Answers) (first second : List Operation) :
    session dialect answers (first ++ second) =
      let early := session dialect answers first
      let late := early.machine.run second
      { machine := late.machine
        events := early.events ++ late.events
        replies := early.replies ++ late.replies } := by
  simp only [session, run_append, List.append_assoc]

/-- A relation between a machine, what happens for a while and the machine after it, that no part
of an operation breaks. -/
structure Follows (leads : Machine → List Event → Machine → Prop) : Prop where
  idle (machine : Machine) : leads machine [] machine
  chain {first second third : Machine} {early late : List Event} :
    leads first early second → leads second late third → leads first (early ++ late) third
  advanced (machine : Machine) (note : Note) :
    leads machine [.note note] machine.advanced
  executed (answers : Answers) (machine : Machine) (instruction : Instruction) :
    instruction ≠ .softReset → leads machine (execute answers machine instruction).events
      (execute answers machine instruction).machine
  ticked (now : Instant) (machine : Machine) :
    leads machine (machine.tick now).2 (machine.tick now).1
  restarted (answers : Answers) (machine : Machine) :
    leads machine (machine.reset answers).2 (machine.reset answers).1
  refreshed (machine : Machine) : leads machine machine.refresh.2 machine.refresh.1

namespace Follows

variable {leads : Machine → List Event → Machine → Prop}

theorem obeyed (follows : Follows leads) (answers : Answers) (machine : Machine)
    (instruction : Instruction) : leads machine (machine.obey answers instruction).events
      (machine.obey answers instruction).machine := by
  have traced := follows.advanced machine (.executing machine.counter machine.fetch instruction)
  have executed : leads machine.advanced (execute answers machine.advanced instruction).events
      (execute answers machine.advanced instruction).machine := by
    -- The soft reset is a reset that was not asked for from outside.
    by_cases soft : instruction = .softReset
    · rw [soft]
      exact follows.restarted answers machine.advanced
    · exact follows.executed answers machine.advanced instruction soft
  -- A program that exits is the only one whose timers do not get their chance.
  by_cases leaves : instruction = .exit
  · rw [leaves] at traced executed ⊢
    rw [obey_exit]
    exact follows.chain traced executed
  · rw [obey_running answers machine instruction leaves]
    exact follows.chain traced (follows.chain executed (follows.ticked answers.pollClock _))

theorem performed (follows : Follows leads) (machine : Machine) (operation : Operation) :
    leads machine (machine.perform operation).events (machine.perform operation).machine := by
  cases operation with
  | step answers =>
    cases decoded : machine.dialect.decode machine.fetch with
    | error fault =>
      rw [perform_error (step_refused answers decoded)]
      exact follows.idle machine
    | ok instruction =>
      rw [perform_ok (step_decoded answers decoded)]
      exact follows.obeyed answers machine instruction
  | reset answers => exact follows.restarted answers machine
  | refresh => exact follows.refreshed machine

theorem run (follows : Follows leads) (machine : Machine) (operations : List Operation) :
    leads machine (machine.run operations).events (machine.run operations).machine := by
  induction operations generalizing machine with
  | nil => exact follows.idle machine
  | cons operation rest ih => exact follows.chain (follows.performed machine operation) (ih _)

end Follows

end Machine

end Chip8
