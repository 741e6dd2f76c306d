import Chip8.Machine.Step

/-!
# Laws of execution

How the operations that instructions share act on each part of the machine, and
what they ask of the host. Most leave most parts alone and ask for nothing.
What holds of whole sessions rests on that.
-/
namespace Chip8

def Event.call? : Event → Option Call
  | .call asked => some asked
  | .note _ => none

/-- What was asked of the host, in order. -/
def calls (events : List Event) : List Call := events.filterMap Event.call?

theorem calls_append (early late : List Event) :
    calls (early ++ late) = calls early ++ calls late := List.filterMap_append

theorem calls_note (note : Note) (events : List Event) :
    calls (.note note :: events) = calls events := rfl

theorem calls_call (call : Call) (events : List Event) :
    calls (.call call :: events) = call :: calls events := rfl

theorem calls_asks (keys : List Nibble) :
    calls (keys.map fun key => .call (.askKey key)) = keys.map .askKey := by
  rw [calls, List.filterMap_map]
  exact congrFun List.filterMap_eq_map keys

namespace Registers

/-- Both timers counted once. -/
def counted (registers : Registers) : Registers :=
  { registers with
    delay := if registers.delay = 0 then 0 else registers.delay - 1
    sound := if registers.sound = 0 then 0 else registers.sound - 1 }

theorem countSound_countDelay (registers : Registers) :
    registers.countDelay.countSound = (registers.counted, decide (registers.sound = 1)) := by
  by_cases silent : registers.sound = 0
  · simp [countSound, countDelay, counted, silent]
  · rw [counted, if_neg silent]
    exact if_neg silent

end Registers

namespace Machine

theorem skipIf_eq (machine : Machine) (condition : Bool) :
    machine.skipIf condition =
      { machine with counter := if condition then machine.counter + 2 else machine.counter } := by
  cases condition <;> rfl

theorem loadRegisters_eq (machine : Machine) (x : Nibble) :
    machine.loadRegisters x =
      { machine with
        registers := { machine.registers with v := (machine.loadRegisters x).registers.v } } := by
  simp only [loadRegisters]

theorem awaitKey_eq (held : Nibble → Bool) (machine : Machine) (x : Nibble) :
    (machine.awaitKey held x).machine =
      match (List.finRange 16).find? held with
      | some key => machine.set x (UInt8.ofNat key.val)
      | none => { machine with counter := machine.counter - 2 } := by
  simp only [awaitKey]
  cases (List.finRange 16).find? held <;> rfl

theorem awaitKey_calls (held : Nibble → Bool) (machine : Machine) (x : Nibble) :
    ∃ keys : List Nibble, calls (machine.awaitKey held x).events = keys.map .askKey := by
  simp only [awaitKey]
  split
  all_goals exact ⟨_, calls_asks _⟩

theorem setSound_calls (machine : Machine) (value : UInt8) :
    calls (machine.setSound value).events =
      if machine.registers.sound = 0 ∧ value ≠ 0 then [.beginTone]
      else if machine.registers.sound ≠ 0 ∧ value = 0 then [.endTone]
      else [] := by
  simp only [setSound]
  split
  · rfl
  · split <;> rfl

theorem loading_calls (rom : Rom) :
    calls (loading rom) = [.loadProgram programRoom (rom.copied programRoom)] := by
  simp only [loading, Rom.notes]
  split <;> rfl

/-- Nothing is left out: of the machine that is emptied part by part only the dialect is kept. -/
theorem reset_eq (answers : Answers) (machine : Machine) :
    machine.reset answers = (fresh machine.dialect answers,
      .call .takeWords :: ((if machine.registers.sound = 0 then [] else [.call .endTone])
        ++ (if machine.plane.resolution = .low then [] else [.call (.resized .low)])
        ++ loading answers.rom)) := rfl

theorem reset_calls (answers : Answers) (machine : Machine) :
    calls (machine.reset answers).2 =
      .takeWords :: ((if machine.registers.sound = 0 then [] else [.endTone])
        ++ (if machine.plane.resolution = .low then [] else [.resized .low])
        ++ [.loadProgram programRoom (answers.rom.copied programRoom)]) := by
  simp only [reset_eq, calls_call, calls_append, loading_calls]
  split <;> split <;> rfl

theorem drawSprite_eq (machine : Machine) (x y height : Nibble) :
    let v := machine.registers.get
    let drawn := machine.plane.stamp (machine.sprite height) (v x).toNat (v y).toNat
    machine.drawSprite x y height =
      { machine with plane := drawn.1, registers := machine.registers.setFlag drawn.2 } := rfl

/-- Nothing but the gate and the two timers takes part in a tick. -/
theorem tick_eq (now : Instant) (machine : Machine) :
    (machine.tick now).1 =
      { machine with
        gate := (machine.gate.poll now).1
        registers :=
          if (machine.gate.poll now).2 then machine.registers.counted else machine.registers } := by
  unfold tick
  rcases machine.gate.poll now with ⟨gate, _ | _⟩
  · rfl
  · simp only [Registers.countSound_countDelay, if_true]

theorem tick_calls (now : Instant) (machine : Machine) :
    calls (machine.tick now).2 =
      if (machine.gate.poll now).2 = true ∧ machine.registers.sound = 1 then [.endTone]
      else [] := by
  unfold tick
  rcases machine.gate.poll now with ⟨gate, _ | _⟩
  · rfl
  · simp only [Registers.countSound_countDelay, decide_eq_true_iff, true_and]
    split <;> rfl

theorem tick_get (now : Instant) (machine : Machine) (x : Nibble) :
    (machine.tick now).1.registers.get x = machine.registers.get x := by
  simp only [tick_eq]
  split <;> rfl

theorem tick_plane (now : Instant) (machine : Machine) :
    (machine.tick now).1.plane = machine.plane := by rw [tick_eq]

/-- The machines differ in their timers and the gate at most. -/
structure SameButTimers (before after : Machine) : Prop where
  counter : after.counter = before.counter
  v : after.registers.v = before.registers.v
  index : after.registers.index = before.registers.index
  memory : after.memory = before.memory
  stack : after.stack = before.stack
  plane : after.plane = before.plane
  words : after.words = before.words
  dialect : after.dialect = before.dialect

theorem tick_same (now : Instant) (machine : Machine) :
    machine.SameButTimers (machine.tick now).1 := by
  rw [tick_eq]
  split
  all_goals exact ⟨rfl, rfl, rfl, rfl, rfl, rfl, rfl, rfl⟩

/-- Whether or not it was shown, a refreshed plane is clean. -/
theorem refresh_eq (machine : Machine) :
    machine.refresh.1 = { machine with plane := machine.plane.shown } := by
  unfold refresh
  split
  · rfl
  next clean =>
    have same : machine.plane.shown = machine.plane := by
      rw [Plane.shown, ← Bool.eq_false_iff.mpr clean]
    rw [same]

theorem refresh_calls (machine : Machine) :
    calls machine.refresh.2 =
      if machine.plane.dirty then [.draw machine.plane.visible] else [] := by
  unfold refresh
  split <;> rfl

theorem execute_outcome (answers : Answers) (machine : Machine) (instruction : Instruction) :
    (execute answers machine instruction).outcome =
      if instruction = .exit then .exited else .running := by
  cases instruction with
  | awaitKey x =>
    simp only [execute, awaitKey]
    split <;> rfl
  | _ => rfl

/-- The machine whose counter points past the opcode it is about to obey. -/
def advanced (machine : Machine) : Machine := { machine with counter := machine.counter + 2 }

/-- Every instruction but the exit leaves the timers their chance. -/
theorem obey_running (answers : Answers) (machine : Machine) (instruction : Instruction)
    (runs : instruction ≠ .exit) :
    let turn := execute answers machine.advanced instruction
    let ticked := turn.machine.tick answers.pollClock
    machine.obey answers instruction =
      { machine := ticked.1
        events := .note (.executing machine.counter machine.fetch instruction)
          :: (turn.events ++ ticked.2) } := by
  have outcome := execute_outcome answers machine.advanced instruction
  rw [if_neg runs, advanced] at outcome
  simp only [obey, advanced, outcome]

/-- Whatever is executed before it, the tick of a step leaves alone. -/
theorem obey_same (answers : Answers) (machine : Machine) (instruction : Instruction)
    (runs : instruction ≠ .exit) :
    (execute answers machine.advanced instruction).machine.SameButTimers
      (machine.obey answers instruction).machine := by
  rw [obey_running answers machine instruction runs]
  exact tick_same answers.pollClock _

theorem obey_exit (answers : Answers) (machine : Machine) :
    machine.obey answers .exit =
      { machine := machine.advanced
        events := [.note (.executing machine.counter machine.fetch .exit),
          .note (.exited machine.advanced.counter)]
        outcome := .exited } := rfl

/-- Where a part of the machine is exchanged that neither the trace nor a tick looks at, an
instruction that does not look at it either makes a step that does not. -/
theorem obey_exchanged {exchange : Machine → Machine} {answers : Answers} {machine : Machine}
    {instruction : Instruction}
    (traced : (exchange machine).counter = machine.counter ∧
      (exchange machine).fetch = machine.fetch)
    (advances : (exchange machine).advanced = exchange machine.advanced)
    (ticks : ∀ later : Machine, (exchange later).tick answers.pollClock =
      (exchange (later.tick answers.pollClock).1, (later.tick answers.pollClock).2))
    (executes : execute answers (exchange machine.advanced) instruction =
      { execute answers machine.advanced instruction with
        machine := exchange (execute answers machine.advanced instruction).machine }) :
    (exchange machine).obey answers instruction =
      { machine.obey answers instruction with
        machine := exchange (machine.obey answers instruction).machine } := by
  obtain ⟨counter, fetched⟩ := traced
  by_cases leaves : instruction = .exit
  · rw [leaves, obey_exit, obey_exit, counter, fetched, advances]
    have past : (exchange machine.advanced).counter = machine.advanced.counter := by
      rw [← advances, advanced, advanced, counter]
    rw [past]
  · rw [obey_running answers _ instruction leaves, obey_running answers _ instruction leaves,
      advances, executes, counter, fetched, ticks]

theorem get_start (machine : Machine) :
    (get : Attempt Progress) { machine } = .ok { machine } { machine } := rfl

/-- An opcode that decodes is obeyed to the end. -/
theorem attempt_decoded {machine : Machine} {instruction : Instruction} (answers : Answers)
    (decoded : machine.dialect.decode machine.fetch = .ok instruction) :
    let turn := machine.obey answers instruction
    attempt answers { machine } =
      .ok turn.outcome { machine := turn.machine, events := turn.events } := by
  have read : decode { machine } = .ok instruction { machine } := by
    simp only [decode, bind, EStateM.bind, get_start, decoded]
    rfl
  change EStateM.bind decode _ { machine } = _
  rw [EStateM.bind, read]
  rfl

/-- One that does not is met before anything has happened. -/
theorem attempt_refused {machine : Machine} {fault : Fault} (answers : Answers)
    (refused : machine.dialect.decode machine.fetch = .error fault) :
    attempt answers { machine } = .error fault { machine } := by
  have read : decode { machine } = .error fault { machine } := by
    simp only [decode, bind, EStateM.bind, get_start, refused]
    rfl
  change EStateM.bind decode _ { machine } = _
  rw [EStateM.bind, read]

theorem step_decoded {machine : Machine} {instruction : Instruction} (answers : Answers)
    (decoded : machine.dialect.decode machine.fetch = .ok instruction) :
    machine.step answers = .ok (machine.obey answers instruction) := by
  rw [step, attempt_decoded answers decoded]

theorem step_refused {machine : Machine} {fault : Fault} (answers : Answers)
    (refused : machine.dialect.decode machine.fetch = .error fault) :
    machine.step answers = .error fault := by
  rw [step, attempt_refused answers refused]

theorem attempt_of_error {machine : Machine} {answers : Answers} {fault : Fault}
    (refused : machine.step answers = .error fault) :
    attempt answers { machine } = .error fault { machine } := by
  cases decoded : machine.dialect.decode machine.fetch with
  | error other =>
    rw [step_refused answers decoded] at refused
    cases refused
    exact attempt_refused answers decoded
  | ok instruction =>
    rw [step_decoded answers decoded] at refused
    cases refused

theorem attempt_of_ok {machine : Machine} {answers : Answers} {turn : Turn}
    (stepped : machine.step answers = .ok turn) :
    attempt answers { machine } =
      .ok turn.outcome { machine := turn.machine, events := turn.events } := by
  cases decoded : machine.dialect.decode machine.fetch with
  | error other =>
    rw [step_refused answers decoded] at stepped
    cases stepped
  | ok instruction =>
    rw [step_decoded answers decoded] at stepped
    cases stepped
    exact attempt_decoded answers decoded

end Machine

end Chip8
