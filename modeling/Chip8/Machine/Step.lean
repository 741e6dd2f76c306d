import Chip8.Machine.Execute

/-!
# Stepping

A step fetches and decodes an opcode, moves the counter past it, executes it
and lets the timers count. An opcode that does not decode is a fault, and what
the step has done until then is not taken back. A program that exits does so
before the timers get their chance.
-/
namespace Chip8

/-- Decoding in a dialect: without host extensions their opcodes are as invalid as any other. -/
def Dialect.decode (dialect : Dialect) (opcode : UInt16) : Except Fault Instruction :=
  match Instruction.decode opcode with
  | .error fault => .error fault
  | .ok instruction =>
    if instruction.isHostExtension ∧ ¬dialect.hostExtensions then .error (.invalidOpcode opcode)
    else .ok instruction

namespace Machine

/-- Lets both timers count once if the gate opens. -/
def tick (now : Instant) (machine : Machine) : Machine × List Event :=
  match machine.gate.poll now with
  | (gate, false) => ({ machine with gate }, [])
  | (gate, true) =>
    let (registers, silenced) := machine.registers.countDelay.countSound
    ({ machine with gate, registers }, if silenced then [.call .endTone] else [])

/-- The step of a decoded instruction. -/
def obey (answers : Answers) (machine : Machine) (instruction : Instruction) : Turn :=
  let trace := Event.note (.executing machine.counter machine.fetch instruction)
  let turn := execute answers { machine with counter := machine.counter + 2 } instruction
  match turn.outcome with
  | .exited => { turn with events := trace :: turn.events }
  | .running =>
    let (machine, ticked) := turn.machine.tick answers.pollClock
    { machine, events := trace :: (turn.events ++ ticked) }

/-- How far a step has come: the machine by now, and what has happened. -/
structure Progress where
  machine : Machine
  events : List Event := []

/-- A step under way. A fault ends it and leaves it where it has come to. -/
abbrev Attempt := EStateM Fault Progress

def decode : Attempt Instruction := do
  let machine := (← get).machine
  match machine.dialect.decode machine.fetch with
  | .error fault => throw fault
  | .ok instruction => return instruction

def attempt (answers : Answers) : Attempt Outcome := do
  let instruction ← decode
  modifyGet fun progress =>
    let turn := progress.machine.obey answers instruction
    (turn.outcome, { machine := turn.machine, events := progress.events ++ turn.events })

/-- The turn of a step that ends without a fault. -/
def step (answers : Answers) (machine : Machine) : Except Fault Turn :=
  match attempt answers { machine } with
  | .error fault _ => .error fault
  | .ok outcome progress =>
    .ok { machine := progress.machine, events := progress.events, outcome }

end Machine

end Chip8
