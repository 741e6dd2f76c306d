import Chip8.Proofs.Session
import Chip8.Proofs.SpriteDrawing

/-!
# Frame delivery

A refresh shows the plane only if it is dirty. This loses no frame: whatever
changes the plane sets the flag, and only a refresh clears it. So a plane that
is clean is the one that the host was shown last.
-/
namespace Chip8

def Call.frame? : Call → Option (Array UInt8)
  | draw cells => some cells
  | _ => none

/-- The planes that the host was shown. -/
def frames (events : List Event) : List (Array UInt8) := (calls events).filterMap Call.frame?

theorem frames_append (early late : List Event) :
    frames (early ++ late) = frames early ++ frames late := by
  rw [frames, calls_append, List.filterMap_append, frames, frames]

namespace Plane

/-- A frame of as many cells as the plane shows, each with the same value. Its size tells the
width. -/
structure ShownBy (plane : Plane) (frame : Array UInt8) : Prop where
  size : frame.size = plane.width * plane.height
  width (resolution : Resolution) :
    frame.size = resolution.width * resolution.height → resolution.width = plane.width
  cell : ∀ place < plane.width * plane.height, frame[place]? = plane.cells[place]?

theorem visible_size (plane : Plane) : plane.visible.size = plane.width * plane.height := by
  have fits : plane.area ≤ 8192 := plane.resolution.area_le
  rw [visible, Array.size_extract, Vector.size_toArray, Nat.sub_zero, Nat.min_eq_left fits]
  rfl

theorem shownBy_visible (plane : Plane) : plane.ShownBy plane.visible where
  size := plane.visible_size
  width resolution same := by
    rw [visible_size] at same
    revert same
    unfold Plane.width height
    cases resolution <;> cases plane.resolution <;> decide
  cell place inside := by
    have fits : plane.area ≤ 8192 := plane.resolution.area_le
    have within : place < plane.area := inside
    rw [visible, Array.getElem?_extract, Vector.size_toArray, Nat.min_eq_left fits,
      if_pos (by omega), Nat.zero_add, Vector.getElem?_toArray]

end Plane

namespace Machine

/-- A clean plane is the one that was shown last, or nothing has changed and nothing was shown. -/
def Delivered (before : Machine) (events : List Event) (after : Machine) : Prop :=
  after.plane.dirty = false →
    (frames events).getLast? = some after.plane.visible ∨
      frames events = [] ∧ after.plane = before.plane

theorem delivered_of_changed {before after : Machine} {events : List Event}
    (quiet : frames events = [])
    (changed : after.plane = before.plane ∨ after.plane.dirty = true) :
    Delivered before events after := by
  intro clean
  rcases changed with same | dirty
  · exact Or.inr ⟨quiet, same⟩
  · rw [dirty] at clean
    cases clean

theorem Delivered.chain {first second third : Machine} {early late : List Event}
    (one : Delivered first early second) (two : Delivered second late third) :
    Delivered first (early ++ late) third := by
  intro clean
  rcases two clean with shown | ⟨quiet, same⟩
  · left
    rw [frames_append, List.getLast?_append, shown, Option.some_or]
  -- Nothing happened in the second part, so what it ends with is what the first ended with.
  · rw [frames_append, quiet, List.append_nil, same]
    exact one (same ▸ clean)

theorem execute_frames (answers : Answers) (machine : Machine) (instruction : Instruction)
    (hard : instruction ≠ .softReset) :
    frames (execute answers machine instruction).events = [] := by
  cases instruction with
  | softReset => exact absurd rfl hard
  | awaitKey x =>
    obtain ⟨keys, asks⟩ := awaitKey_calls answers.held machine x
    rw [frames, execute, asks, List.filterMap_eq_nil_iff]
    simp [Call.frame?]
  | setSound x =>
    rw [frames, execute, setSound_calls]
    split
    · rfl
    · split <;> rfl
  | _ => rfl

/-- No instruction changes the plane without setting the dirty flag. -/
theorem execute_plane (answers : Answers) (machine : Machine) (instruction : Instruction) :
    (execute answers machine instruction).machine.plane = machine.plane ∨
      (execute answers machine instruction).machine.plane.dirty = true := by
  cases instruction with
  | scrollDown | clearScreen | scrollRight | scrollLeft | lowResolution | highResolution
  | softReset | setColours => exact Or.inr rfl
  | draw x y height =>
    simp only [execute, drawSprite_plane]
    exact machine.plane.plots_changed (machine.points x y height)
  | skipIfByte | skipUnlessByte | skipIfEqual | skipUnlessEqual | skipIfKey | skipUnlessKey =>
    left
    simp only [execute, skipIf_eq]
  | awaitKey x =>
    left
    simp only [execute, awaitKey_eq]
    split <;> rfl
  | loadRegisters x =>
    left
    simp only [execute]
    rw [loadRegisters_eq]
  | _ => exact Or.inl rfl

theorem reset_frames (answers : Answers) (machine : Machine) :
    frames (machine.reset answers).2 = [] := by
  rw [frames, reset_calls]
  split <;> split <;> rfl

theorem tick_frames (now : Instant) (machine : Machine) : frames (machine.tick now).2 = [] := by
  rw [frames, tick_calls]
  split <;> rfl

/-- No step shows the plane. -/
theorem step_frames {machine : Machine} {answers : Answers} {turn : Turn}
    (stepped : machine.step answers = .ok turn) : frames turn.events = [] := by
  obtain ⟨instruction, -, rfl⟩ := step_obeys stepped
  have executed : frames (execute answers machine.advanced instruction).events = [] := by
    by_cases soft : instruction = .softReset
    · rw [soft]
      exact reset_frames answers machine.advanced
    · exact execute_frames answers machine.advanced instruction soft
  by_cases leaves : instruction = .exit
  · rw [leaves]
    rfl
  · rw [obey_running answers machine instruction leaves]
    have traced (note : Note) (events : List Event) :
        frames (.note note :: events) = frames events := rfl
    rw [traced, frames_append, executed, tick_frames, List.append_nil]

theorem refresh_frames (machine : Machine) :
    (frames machine.refresh.2).length = if machine.plane.dirty then 1 else 0 := by
  rw [frames, refresh_calls]
  split <;> rfl

theorem boot_frames (dialect : Dialect) (answers : Answers) :
    frames (boot dialect answers).2 = [] := by
  simp only [frames, boot, calls_call, loading_calls]
  rfl

theorem refresh_delivered (machine : Machine) :
    Delivered machine machine.refresh.2 machine.refresh.1 := by
  rw [Delivered, frames, refresh_calls, refresh_eq]
  intro _
  split
  · exact Or.inl rfl
  next clean =>
    exact Or.inr ⟨rfl, by rw [Plane.shown, ← Bool.eq_false_iff.mpr clean]⟩

theorem delivered_follows : Follows Delivered where
  idle _ := delivered_of_changed rfl (Or.inl rfl)
  chain := Delivered.chain
  advanced _ _ := delivered_of_changed rfl (Or.inl rfl)
  executed answers machine instruction hard := delivered_of_changed
    (execute_frames answers machine instruction hard) (execute_plane answers machine instruction)
  ticked now machine := delivered_of_changed (tick_frames now machine)
    (Or.inl (tick_plane now machine))
  restarted answers machine := delivered_of_changed (reset_frames answers machine) (Or.inr rfl)
  refreshed := refresh_delivered

/-- A new machine's plane is dirty, so a clean one has been shown since. -/
theorem session_delivered (dialect : Dialect) (answers : Answers) (operations : List Operation)
    (clean : (session dialect answers operations).machine.plane.dirty = false) :
    (frames (session dialect answers operations).events).getLast? =
      some (session dialect answers operations).machine.plane.visible := by
  have fresh : (boot dialect answers).1.plane.dirty = true := rfl
  have start : Delivered (boot dialect answers).1 (boot dialect answers).2
      (boot dialect answers).1 :=
    delivered_of_changed (boot_frames dialect answers) (Or.inl rfl)
  rcases (start.chain (delivered_follows.run _ operations)) clean with shown | ⟨_, same⟩
  · exact shown
  -- The plane of the new machine would still be there, and it is dirty.
  · have unclean := congrArg Plane.dirty same
    rw [fresh] at unclean
    exact absurd (clean.symm.trans unclean) nofun

/-- While the plane is clean it is what the host was shown last, and so it always is after a
refresh. -/
theorem clean_plane_shown (dialect : Dialect) (answers : Answers) (operations : List Operation) :
    let after := session dialect answers operations
    let refreshed := session dialect answers (operations ++ [Operation.refresh])
    (after.machine.plane.dirty = false →
      ∃ frame, (frames after.events).getLast? = some frame ∧ after.machine.plane.ShownBy frame) ∧
    ∃ frame, (frames refreshed.events).getLast? = some frame ∧
      refreshed.machine.plane.ShownBy frame := by
  intro after refreshed
  have shown (operations : List Operation)
      (clean : (session dialect answers operations).machine.plane.dirty = false) :
      ∃ frame, (frames (session dialect answers operations).events).getLast? = some frame ∧
        (session dialect answers operations).machine.plane.ShownBy frame :=
    ⟨_, session_delivered dialect answers operations clean, Plane.shownBy_visible _⟩
  have clean : refreshed.machine.plane.dirty = false := by
    rw [show refreshed = _ from session_append dialect answers operations [Operation.refresh]]
    exact congrArg (·.plane.dirty) (refresh_eq after.machine)
  exact ⟨shown operations, shown (operations ++ [Operation.refresh]) clean⟩

end Machine

end Chip8
