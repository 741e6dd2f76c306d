import Chip8.Proofs.Session

/-!
# The tone protocol

The tone is started and stopped in four places: by an instruction that sets the
sound timer, by the tick that runs it out, and by a reset, whether the host or
the program asks for it. Between them the host hears a strict alternation, and
the tone sounds just while the sound timer is not zero.

Each part of an operation leads from one state of the tone to another by
calls that switch it every time. That relation composes, so whole sessions
have it too.
-/
namespace Chip8

def Call.isTone : Call → Bool
  | beginTone | endTone => true
  | _ => false

/-- The calls about the tone that the host received. -/
def tones (events : List Event) : List Call := (calls events).filter Call.isTone

namespace Tone

/-- The call that changes the state of the tone. -/
def switch (sounding : Bool) : Call := if sounding then .endTone else .beginTone

/-- Calls that switch the tone every time, from one state to another. -/
def Switches : Bool → List Call → Bool → Prop
  | before, [], after => before = after
  | before, tone :: rest, after => tone = switch before ∧ Switches (!before) rest after

theorem Switches.append {before middle after : Bool} {early late : List Call}
    (first : Switches before early middle) (second : Switches middle late after) :
    Switches before (early ++ late) after := by
  induction early generalizing before with
  | nil =>
    cases first
    exact second
  | cons tone rest ih => exact ⟨first.1, ih first.2⟩

theorem Switches.get {before after : Bool} {calls : List Call}
    (switches : Switches before calls after) (place : Nat) (inside : place < calls.length) :
    calls[place]? = some (switch (if place % 2 = 0 then before else !before)) := by
  induction calls generalizing before place with
  | nil => exact absurd inside (Nat.not_lt_zero place)
  | cons tone rest ih =>
    cases place with
    | zero => simpa using switches.1
    | succ place =>
      -- The rest starts from the other state, and every place in it is one lower.
      rw [List.getElem?_cons_succ, ih switches.2 place (Nat.lt_of_succ_lt_succ inside)]
      rcases Nat.mod_two_eq_zero_or_one place with even | odd
      · simp [even, show (place + 1) % 2 = 1 by omega]
      · simp [odd, show (place + 1) % 2 = 0 by omega]

/-- The last call tells the state. Before the first it is as if the opposite call had been made. -/
theorem Switches.last {before after : Bool} {calls : List Call}
    (switches : Switches before calls after) :
    calls.getLast?.getD (switch (!before)) = switch (!after) := by
  induction calls generalizing before with
  | nil =>
    cases switches
    rfl
  | cons tone rest ih =>
    -- Seen from the rest, the first call is what had been made before.
    have state := ih switches.2
    rw [Bool.not_not, ← switches.1] at state
    rw [List.getLast?_cons]
    exact state

theorem Switches.begun_iff {after : Bool} {calls : List Call}
    (switches : Switches false calls after) : calls.getLast? = some .beginTone ↔ after = true := by
  have last : calls.getLast?.getD .endTone = switch (!after) := switches.last
  cases found : calls.getLast? with
  | none => cases after <;> simp [found, switch] at last ⊢
  | some tone =>
    rw [found, Option.getD_some] at last
    cases after <;> simp [last, switch]

end Tone

namespace Machine

def sounding (machine : Machine) : Bool := machine.registers.sound ≠ 0

/-- The host is told of every change of the sound timer from or to zero, and of nothing else. -/
def Heard (before : Machine) (events : List Event) (after : Machine) : Prop :=
  Tone.Switches before.sounding (tones events) after.sounding

theorem heard_of_quiet {before after : Machine} {events : List Event}
    (same : after.registers.sound = before.registers.sound) (quiet : tones events = []) :
    Heard before events after := by
  rw [Heard, quiet, sounding, sounding, same]
  exact rfl

theorem setSound_heard (machine : Machine) (value : UInt8) :
    Heard machine (machine.setSound value).events (machine.setSound value).machine := by
  rw [Heard, tones, setSound_calls, sounding, sounding]
  -- A timer that stays at zero or stays away from it is not worth a call.
  by_cases old : machine.registers.sound = 0 <;> by_cases new : value = 0 <;>
    simp [old, new, setSound, List.filter_cons, Call.isTone, Tone.Switches, Tone.switch]

theorem awaitKey_heard (held : Nibble → Bool) (machine : Machine) (x : Nibble) :
    Heard machine (machine.awaitKey held x).events (machine.awaitKey held x).machine := by
  apply heard_of_quiet
  · rw [awaitKey_eq]
    split <;> rfl
  · obtain ⟨keys, asks⟩ := awaitKey_calls held machine x
    rw [tones, asks, List.filter_eq_nil_iff]
    simp [Call.isTone]

theorem skipIf_sound (machine : Machine) (condition : Bool) :
    (machine.skipIf condition).registers.sound = machine.registers.sound := by rw [skipIf_eq]

theorem loadRegisters_sound (machine : Machine) (x : Nibble) :
    (machine.loadRegisters x).registers.sound = machine.registers.sound := by
  rw [loadRegisters_eq]

theorem execute_heard (answers : Answers) (machine : Machine) (instruction : Instruction)
    (hard : instruction ≠ .softReset) : Heard machine (execute answers machine instruction).events
      (execute answers machine instruction).machine := by
  cases instruction with
  | softReset => exact absurd rfl hard
  | setSound x => exact setSound_heard machine (machine.registers.get x)
  | awaitKey x => exact awaitKey_heard answers.held machine x
  | skipIfByte | skipUnlessByte | skipIfEqual | skipUnlessEqual | skipIfKey | skipUnlessKey =>
    exact heard_of_quiet (skipIf_sound machine _) rfl
  | loadRegisters x => exact heard_of_quiet (loadRegisters_sound machine x) rfl
  | _ => exact heard_of_quiet rfl rfl

/-- The tick that runs the sound timer out is the one that ends the tone. -/
theorem tick_heard (now : Instant) (machine : Machine) :
    Heard machine (machine.tick now).2 (machine.tick now).1 := by
  rw [Heard, tones, tick_calls, tick_eq, sounding, sounding]
  cases (machine.gate.poll now).2 with
  | false => rfl
  | true =>
    by_cases silent : machine.registers.sound = 0
    · simp [silent, Registers.counted, Tone.Switches]
    · by_cases last : machine.registers.sound = 1
      · simp [last, Registers.counted, List.filter_cons, Call.isTone, Tone.Switches, Tone.switch]
      · -- A timer above one is still running after the count.
        have sounds : machine.registers.sound - 1 ≠ 0 := by
          intro zero
          exact last (by simpa [zero] using (UInt8.sub_add_cancel machine.registers.sound 1).symm)
        simp [silent, last, sounds, Registers.counted, Tone.Switches]

theorem reset_heard (answers : Answers) (machine : Machine) :
    Heard machine (machine.reset answers).2 (machine.reset answers).1 := by
  -- A new sound timer is at zero, so the tone ends just if it had begun.
  have silent : (machine.reset answers).1.registers.sound = 0 := rfl
  rw [Heard, tones, reset_calls]
  by_cases sound : machine.registers.sound = 0 <;>
    by_cases narrow : machine.plane.resolution = .low <;>
    simp [silent, sound, narrow, sounding, List.filter_cons, Call.isTone, Tone.Switches,
      Tone.switch]

theorem heard_follows : Follows Heard where
  idle _ := rfl
  chain first second := by
    unfold Heard at *
    rw [tones, calls_append, List.filter_append]
    exact first.append second
  advanced _ _ := rfl
  executed := execute_heard
  ticked := tick_heard
  restarted := reset_heard
  refreshed machine := by
    unfold refresh
    split <;> exact heard_of_quiet rfl rfl

theorem session_tones (dialect : Dialect) (answers : Answers) (operations : List Operation) :
    tones (session dialect answers operations).events =
      tones ((boot dialect answers).1.run operations).events := by
  simp only [tones, session, boot, calls_append, calls_call, loading_calls]
  rfl

/-- From construction on the host receives begin, end, begin and so on. Whenever an operation is
over, the last it received was a begin exactly if the sound timer is not zero. -/
theorem tones_alternate (dialect : Dialect) (answers : Answers) (operations : List Operation) :
    let after := session dialect answers operations
    (∀ place < (tones after.events).length,
      (tones after.events)[place]? = some (if place % 2 = 0 then .beginTone else .endTone)) ∧
    ((tones after.events).getLast? = some .beginTone ↔ after.machine.registers.sound ≠ 0) := by
  intro after
  have heard : Tone.Switches false (tones after.events) after.machine.sounding := by
    rw [session_tones]
    exact heard_follows.run (boot dialect answers).1 operations
  constructor
  · intro place inside
    rw [heard.get place inside]
    by_cases even : place % 2 = 0 <;> simp [even, Tone.switch]
  · rw [heard.begun_iff, sounding, decide_eq_true_iff]

end Machine

end Chip8
