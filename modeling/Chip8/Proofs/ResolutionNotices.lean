import Chip8.Proofs.Footprint
import Chip8.Proofs.FrameDelivery
import Chip8.Proofs.Restart

/-!
# Notices of the resolution

A frame comes without its width, so a host has to remember what it was told
last. That is enough: an instruction that changes the width announces it at
once, a reset announces that it goes back to the narrow screen where the screen
was wide, and nothing else touches the width. Whoever reads each frame at the
width that was announced last reads it as the plane has it.

The host's memory is a single number. What a call makes of it, and whether a
frame fits it, is said for one call and then for a series of them.
-/
namespace Chip8

def Call.width? : Call → Option Nat
  | resized resolution => some resolution.width
  | _ => none

/-- The widths that the host was told, in order. -/
def announced (calls : List Call) : List Nat := calls.filterMap Call.width?

theorem announced_append (early late : List Call) :
    announced (early ++ late) = announced early ++ announced late := List.filterMap_append

/-- The width that a host goes by. Until it is told one it goes by that of a new machine. -/
def lastAnnounced (calls : List Call) : Nat := (announced calls).getLast?.getD 64

namespace Call

/-- The width that a host goes by after a call. -/
def tells (known : Nat) : Call → Nat
  | resized resolution => resolution.width
  | _ => known

/-- A frame has as many cells as a screen of the width that the host goes by. -/
def Fits (known : Nat) : Call → Prop
  | draw cells => cells.size = known * (known / 2)
  | _ => True

/-- A call that is neither a notice nor a frame. -/
def aside : Call → Bool
  | resized _ | draw _ => false
  | _ => true

/-- A host that goes by one width at first goes by another after the calls, and every frame among
them fits what it goes by when it gets it. -/
def Follow : Nat → List Call → Nat → Prop
  | known, [], after => known = after
  | known, call :: rest, after => call.Fits known ∧ Follow (call.tells known) rest after

namespace Follow

variable {before middle after : Nat} {calls early late : List Call}

theorem append (first : Follow before early middle) (second : Follow middle late after) :
    Follow before (early ++ late) after := by
  induction early generalizing before with
  | nil =>
    cases first
    exact second
  | cons call rest ih => exact ⟨first.1, ih first.2⟩

/-- Calls that are neither notices nor frames leave the host with the width it had. -/
theorem of_aside (asides : ∀ call ∈ calls, call.aside = true) : Follow before calls before := by
  induction calls with
  | nil => rfl
  | cons call rest ih =>
    rw [List.forall_mem_cons] at asides
    have later := ih asides.2
    cases call with
    | resized | draw => cases asides.1
    | _ => exact ⟨trivial, later⟩

theorem tells_eq (known : Nat) (call : Call) :
    call.tells known = (announced [call]).getLast?.getD known := by
  cases call <;> rfl

/-- The last notice tells the width, and without one it is still the first. -/
theorem last (follows : Follow before calls after) :
    (announced calls).getLast?.getD before = after := by
  induction calls generalizing before with
  | nil => exact follows
  | cons call rest ih =>
    have split : announced (call :: rest) = announced [call] ++ announced rest :=
      announced_append [call] rest
    -- A notice in the rest overrides this call, and without one it is this call that counts.
    rw [split, List.getLast?_append, Option.getD_or, ← tells_eq, ih follows.2]

/-- Each frame fits the width that was announced last before it. -/
theorem frame {cells : Array UInt8} (follows : Follow before (early ++ .draw cells :: late) after) :
    let known := (announced early).getLast?.getD before
    cells.size = known * (known / 2) := by
  induction early generalizing before with
  | nil => exact follows.1
  | cons call rest ih =>
    have split : announced (call :: rest) = announced [call] ++ announced rest :=
      announced_append [call] rest
    have later := ih follows.2
    rw [split, List.getLast?_append, Option.getD_or, ← tells_eq]
    exact later

end Follow

end Call

theorem Plane.visible_size_of_width (plane : Plane) :
    plane.visible.size = plane.width * (plane.width / 2) := by
  rw [visible_size, width, height]
  cases plane.resolution <;> rfl

namespace Machine

/-- The host goes by the width of the plane, and goes on to do so. -/
def Informs (before : Machine) (events : List Event) (after : Machine) : Prop :=
  Call.Follow before.plane.width (calls events) after.plane.width

theorem informs_of_aside {before after : Machine} {events : List Event}
    (same : after.plane.width = before.plane.width)
    (asides : ∀ call ∈ calls events, call.aside = true) : Informs before events after := by
  rw [Informs, same]
  exact Call.Follow.of_aside asides

/-- Only the two instructions that switch the resolution have anything to announce. -/
theorem execute_informs (answers : Answers) (machine : Machine) (instruction : Instruction)
    (hard : instruction ≠ .softReset) : Informs machine (execute answers machine instruction).events
      (execute answers machine instruction).machine := by
  by_cases resizes : instruction.resizes = true
  · cases instruction with
    | lowResolution | highResolution => exact ⟨trivial, rfl⟩
    | _ => cases resizes
  · rw [Bool.not_eq_true] at resizes
    -- What else an instruction asks for is listed, and neither notices nor frames are.
    apply informs_of_aside (execute_width answers machine hard resizes)
    intro call asked
    have asks := execute_asks answers machine hard call asked
    cases call with
    | draw cells => cases instruction <;> exact asks.elim
    | resized resolution =>
      cases instruction with
      | lowResolution | highResolution => cases resizes
      | _ => exact asks.elim
    | _ => rfl

theorem tick_informs (now : Instant) (machine : Machine) :
    Informs machine (machine.tick now).2 (machine.tick now).1 := by
  apply informs_of_aside (congrArg Plane.width (tick_plane now machine))
  rw [tick_calls]
  split
  · simp [Call.aside]
  · simp

theorem reset_announced (answers : Answers) (machine : Machine) :
    announced (calls (machine.reset answers).2) =
      if machine.plane.width = 128 then [64] else [] := by
  rw [reset_calls, Plane.width]
  cases machine.plane.resolution
  all_goals
    split
    all_goals rfl

/-- A new plane is narrow, so where the old one was not the host has to be told. -/
theorem reset_informs (answers : Answers) (machine : Machine) :
    Informs machine (machine.reset answers).2 (machine.reset answers).1 := by
  have narrow : (machine.reset answers).1.plane.width = 64 := rfl
  rw [Informs, reset_calls, narrow, Plane.width]
  cases machine.plane.resolution
  all_goals
    split
    all_goals simp [Call.Follow, Call.Fits, Call.tells, Resolution.width]

theorem refresh_informs (machine : Machine) :
    Informs machine machine.refresh.2 machine.refresh.1 := by
  rw [Informs, refresh_calls, refresh_eq]
  split
  · exact ⟨machine.plane.visible_size_of_width, rfl⟩
  · rfl

theorem informs_follows : Follows Informs where
  idle _ := rfl
  chain first second := by
    unfold Informs at *
    rw [calls_append]
    exact first.append second
  advanced _ _ := rfl
  executed := execute_informs
  ticked := tick_informs
  restarted := reset_informs
  refreshed := refresh_informs

/-- A new machine announces nothing, and its plane is as wide as a host takes it to be. -/
theorem session_informs (dialect : Dialect) (answers : Answers) (operations : List Operation) :
    let after := session dialect answers operations
    Call.Follow 64 (calls after.events) after.machine.plane.width := by
  have start : Informs (boot dialect answers).1 (boot dialect answers).2
      (boot dialect answers).1 := by
    apply informs_of_aside rfl
    simp [boot, calls_call, loading_calls, Call.aside]
  have later := informs_follows.run (boot dialect answers).1 operations
  intro after
  rw [show calls after.events = _ from calls_append _ _]
  exact start.append later

/-- The step of a program that starts itself over makes the calls of a reset, and a tick can only
add the end of the tone. -/
theorem softReset_announced {machine : Machine} {answers : Answers} {turn : Turn}
    (fetched : machine.fetch = 0x0101) (stepped : machine.step answers = .ok turn) :
    announced (calls turn.events) = if machine.plane.width = 128 then [64] else [] := by
  obtain ⟨instruction, decoded, rfl⟩ := step_obeys stepped
  have plain := (Dialect.decode_eq_ok_iff.mp decoded).1
  obtain rfl : .softReset = instruction :=
    Except.ok.inj ((Instruction.decode_softReset_iff.mpr fetched).symm.trans plain)
  rw [obey_running answers machine .softReset nofun]
  have ticked (machine : Machine) :
      announced (calls (machine.tick answers.pollClock).2) = [] := by
    rw [tick_calls]
    split <;> rfl
  rw [calls_note, calls_append, announced_append, ticked, List.append_nil]
  exact reset_announced answers machine.advanced

/-- Whatever the host does with its machine, the width is the one that it was told last, and so is
that of every frame it is shown. A reset, by the host or by the program, tells it of the narrow
screen just where the screen was wide. -/
theorem resolution_announced (dialect : Dialect) (answers : Answers)
    (operations : List Operation) :
    let after := session dialect answers operations
    after.machine.plane.width = lastAnnounced (calls after.events) ∧
    (∀ early cells late, calls after.events = early ++ Call.draw cells :: late →
      cells.size = lastAnnounced early * (lastAnnounced early / 2)) ∧
    (∀ answers, announced (calls (after.machine.perform (.reset answers)).events) =
      if after.machine.plane.width = 128 then [64] else []) ∧
    ∀ answers turn, after.machine.fetch = 0x0101 → after.machine.step answers = .ok turn →
      announced (calls turn.events) = if after.machine.plane.width = 128 then [64] else [] := by
  intro after
  have follows : Call.Follow 64 (calls after.events) after.machine.plane.width :=
    session_informs dialect answers operations
  refine ⟨follows.last.symm, ?_, ?_, ?_⟩
  · intro early cells late split
    rw [split] at follows
    exact follows.frame
  · intro answers
    exact reset_announced answers after.machine
  · intro answers turn fetched stepped
    exact softReset_announced fetched stepped

/-- A program that switches to the wide screen, is shown there and is reset. -/
theorem resolution_announced_wide :
    let answers : Answers :=
      { resetClock := 0, pollClock := 0, held := fun _ => false, rom := { bytes := #[0x00, 0xFF] },
        words := .cycling #[] }
    let shown := session {} answers [.step answers, .refresh]
    ∃ cells, calls shown.events =
        [.takeWords, .loadProgram 3584 2, .resized .high] ++ [Call.draw cells] ∧
      cells.size = 8192 ∧ shown.machine.plane.width = 128 ∧
      announced (calls (shown.machine.perform (.reset answers)).events) = [64] := by
  intro answers shown
  have loaded := (fresh_pristine {} answers).memory
  have fetched : (fresh {} answers).fetch = 0x00FF :=
    (loaded.readWord 0x200 (by decide) (by decide) rfl rfl).trans (by decide)
  have decoded : (fresh {} answers).dialect.decode (fresh {} answers).fetch =
      .ok .highResolution := by
    rw [fetched]
    rfl
  have stepped : (fresh {} answers).perform (.step answers) =
      { machine := ((fresh {} answers).obey answers .highResolution).machine
        events := ((fresh {} answers).obey answers .highResolution).events
        reply := .stepped .running } := by
    rw [perform_ok (step_decoded answers decoded)]
    rfl
  have asked : calls shown.events = [.takeWords, .loadProgram 3584 2, .resized .high] ++
      [Call.draw (((fresh {} answers).obey answers .highResolution).machine.plane.visible)] := by
    simp only [shown, session, run, boot, stepped]
    rfl
  obtain ⟨known, frames, resets, -⟩ :=
    resolution_announced {} answers [.step answers, .refresh]
  have wide : shown.machine.plane.width = 128 := by
    rw [show shown.machine.plane.width = _ from known, asked]
    rfl
  refine ⟨_, asked, frames _ _ _ asked, wide, ?_⟩
  rw [show announced _ = _ from resets answers, if_pos wide]

end Machine

end Chip8
