import Chip8.Proofs.FrameDelivery
import Chip8.Proofs.NestedCalls
import Chip8.Proofs.Painting

/-!
# What cells may hold

The drawing rule is not stored. It follows from the width and from whether
colours have been chosen, so a change of either gives a new meaning to cells
that hold the values of the old one. No visible cell is ever caught with a
third value, because what changes the rule or the colours also clears the
screen.

What a machine does to its plane is strokes on a new one, from the last time
it started over. So what strokes keep holds of every machine, and whether
colours have been chosen can be told from the steps since then.
-/
namespace Chip8

namespace Plane

theorem paint_concat (plane : Plane) (strokes : List Stroke) (stroke : Stroke) :
    (plane.paint (strokes ++ [stroke])).1 = ((plane.paint strokes).1.apply stroke).1 := by
  induction strokes generalizing plane with
  | nil => rfl
  | cons first rest ih => exact ih (plane.apply first).1

namespace Reachable

theorem new : Reachable {} := ⟨[], rfl⟩

theorem apply {plane : Plane} (reachable : plane.Reachable) (stroke : Stroke) :
    (plane.apply stroke).1.Reachable := by
  obtain ⟨strokes, rfl⟩ := reachable
  exact ⟨strokes ++ [stroke], paint_concat {} strokes stroke⟩

theorem plots {plane : Plane} (reachable : plane.Reachable) (points : List (Nat × Nat)) :
    (plane.plots points).1.Reachable := by
  induction points generalizing plane with
  | nil => exact reachable
  | cons point rest ih => exact ih (reachable.apply (.plot point.1 point.2))

end Reachable

/-- Only the stroke that chooses colours leaves a trace of it. -/
theorem paint_coloured (plane : Plane) (strokes : List Stroke) :
    (plane.paint strokes).1.coloured = true ↔
      plane.coloured = true ∨
        ∃ background foreground, Stroke.setColours background foreground ∈ strokes := by
  induction strokes generalizing plane with
  | nil => simp [paint]
  | cons stroke rest ih =>
    change ((plane.apply stroke).1.paint rest).1.coloured = true ↔ _
    rw [ih]
    cases stroke with
    | plot x y =>
      rw [show (plane.apply (.plot x y)).1.coloured = _ from (plane.plot_screen x y).coloured]
      simp
    | setColours background foreground =>
      have chosen : (plane.apply (.setColours background foreground)).1.coloured = true := rfl
      exact iff_of_true (Or.inl chosen) (Or.inr ⟨_, _, List.mem_cons_self⟩)
    | _ =>
      simp only [List.mem_cons, reduceCtorEq, false_or]
      rfl

/-- A width of two, the first colours until some are chosen, and no third value in sight. -/
structure Regular (plane : Plane) (chosen : Prop) : Prop where
  width : plane.width = 64 ∨ plane.width = 128
  size : plane.visible.size = plane.width * plane.height
  colours : ¬chosen → plane.background = 0x00 ∧ plane.foreground = 0xFF
  rule : plane.mode = .overwrite ↔ plane.width = 128 ∨ chosen
  flip : plane.mode = .flip →
    plane.background = 0 ∧ ∀ cell ∈ plane.visible, cell = 0 ∨ cell = 1
  overwrite : plane.mode = .overwrite →
    ∀ cell ∈ plane.visible, cell = plane.foreground ∨ cell = plane.background

namespace Proper

variable {plane : Plane} (proper : plane.Proper)
include proper

theorem allows_visible {cell : UInt8} (seen : cell ∈ plane.visible) : plane.Allows cell := by
  obtain ⟨place, found⟩ := Array.getElem?_of_mem seen
  rw [visible_getElem?] at found
  split at found
  next inside => exact proper.allowed place cell inside found
  next => cases found

theorem regular {chosen : Prop} (told : plane.coloured = true ↔ chosen) :
    plane.Regular chosen where
  width := by
    unfold Plane.width
    cases plane.resolution
    · exact Or.inl rfl
    · exact Or.inr rfl
  size := plane.visible_size
  colours plain := proper.uncoloured (Bool.eq_false_iff.mpr (mt told.mp plain))
  rule := by
    have wide : plane.width = 128 ↔ plane.resolution = .high := by
      unfold Plane.width
      cases plane.resolution <;> decide
    rw [wide, ← told, mode]
    split
    next overwrites => exact iff_of_true rfl overwrites
    next flips => exact iff_of_false (by simp) flips
  flip rule := by
    have background := proper.flip_background rule
    refine ⟨background, fun cell seen => ?_⟩
    have allowed := proper.allows_visible seen
    rwa [Allows, background, ink, rule] at allowed
  overwrite rule cell seen := by
    have allowed := proper.allows_visible seen
    rw [Allows, ink, rule] at allowed
    exact allowed.symm

end Proper

end Plane

/-- An opcode of a host extension needs a dialect that has them. -/
theorem Dialect.decode_extension_iff {dialect : Dialect} {opcode only : UInt16}
    {instruction : Instruction}
    (single : Instruction.decode opcode = .ok instruction ↔ opcode = only)
    (extended : instruction.isHostExtension = true) :
    dialect.decode opcode = .ok instruction ↔
      opcode = only ∧ dialect.hostExtensions = true := by
  rw [decode_eq_ok_iff, single, extended]
  exact and_congr_right fun _ => forall_prop_of_true rfl

namespace Machine

section

variable (machine : Machine)

/-- The program chooses colours in an operation. -/
def Chooses : Operation → Prop
  | .step _ => machine.fetch = 0x0102 ∧ machine.dialect.hostExtensions = true
  | .reset _ | .refresh => False

end

/-- Colours are chosen in a run, and nothing starts the machine over afterwards. -/
def ChoosesAmong (machine : Machine) : List Operation → Prop
  | [] => False
  | operation :: rest =>
    let next := (machine.perform operation).machine
    machine.Chooses operation ∧ next.Unbroken rest ∨ next.ChoosesAmong rest

section

variable {answers : Answers} {machine : Machine} {instruction : Instruction}

theorem execute_reachable (reachable : machine.plane.Reachable) :
    (execute answers machine instruction).machine.plane.Reachable := by
  by_cases paints : instruction.paints = true
  · cases instruction with
    | scrollDown n => exact reachable.apply (.scrollDown n.val)
    | clearScreen => exact reachable.apply .clear
    | scrollRight => exact reachable.apply .scrollRight
    | scrollLeft => exact reachable.apply .scrollLeft
    | lowResolution => exact reachable.apply (.resize 64)
    | highResolution => exact reachable.apply (.resize 128)
    | setColours =>
      exact reachable.apply (.setColours (machine.registers.get 0) (machine.registers.get 1))
    | draw x y height =>
      simp only [execute, drawSprite_plane]
      exact reachable.plots (machine.points x y height)
    | _ => cases paints
  · by_cases soft : instruction = .softReset
    · rw [soft]
      exact .new
    · rw [execute_unpainted answers machine soft (Bool.not_eq_true _ ▸ paints)]
      exact reachable

/-- No part of an operation leads to a plane that strokes do not lead to. -/
theorem reachable_follows :
    Follows fun before _ after => before.plane.Reachable → after.plane.Reachable where
  idle _ := id
  chain early late := late ∘ early
  advanced _ _ := id
  executed _ _ _ _ := execute_reachable
  ticked now machine := by
    rw [tick_plane]
    exact id
  restarted _ _ _ := .new
  refreshed machine reachable := by
    rw [refresh_eq]
    exact reachable.apply .takeDirty

theorem session_reachable (dialect : Dialect) (answers : Answers) (operations : List Operation) :
    (session dialect answers operations).machine.plane.Reachable :=
  reachable_follows.run (boot dialect answers).1 operations .new

theorem chooses_iff : machine.Chooses (.step answers) ↔
    machine.dialect.decode machine.fetch = .ok .setColours :=
  (Dialect.decode_extension_iff Instruction.decode_setColours_iff rfl).symm

theorem restarts_iff : machine.Restarts (.step answers) ↔
    machine.dialect.decode machine.fetch = .ok .softReset :=
  (Dialect.decode_extension_iff Instruction.decode_softReset_iff rfl).symm

/-- Choosing colours leaves a trace on the plane, and starting over wipes it out. -/
theorem perform_coloured (operation : Operation) :
    (machine.perform operation).machine.plane.coloured = true ↔
      machine.Chooses operation ∨ ¬machine.Restarts operation ∧ machine.plane.coloured = true := by
  cases operation with
  | reset answers => exact iff_of_false Bool.false_ne_true (by simp [Chooses, Restarts])
  | refresh =>
    have shown : (machine.perform .refresh).machine = _ := machine.refresh_eq
    simp [shown, Plane.shown, Chooses, Restarts]
  | step answers =>
    rw [chooses_iff, restarts_iff]
    cases known : machine.dialect.decode machine.fetch with
    | error fault =>
      rw [perform_error (step_refused answers known)]
      simp
    | ok instruction =>
      have left : (machine.perform (.step answers)).machine.plane =
          (execute answers machine.advanced instruction).machine.plane := by
        by_cases leaves : instruction = .exit
        · rw [perform_ok (step_decoded answers known), leaves]
          rfl
        · rw [perform_running answers known leaves]
          exact tick_plane _ _
      rw [left, Except.ok.injEq, Except.ok.injEq]
      by_cases soft : instruction = .softReset
      · subst soft
        exact iff_of_false Bool.false_ne_true (by simp)
      · by_cases chooses : instruction = .setColours
        · subst chooses
          exact iff_of_true rfl (Or.inl rfl)
        · rw [(execute_colours answers machine.advanced soft chooses).2.2]
          simp only [chooses, soft, false_or, not_false_eq_true, true_and]
          rfl

theorem run_coloured (operations : List Operation) :
    (machine.run operations).machine.plane.coloured = true ↔
      machine.ChoosesAmong operations ∨
        machine.Unbroken operations ∧ machine.plane.coloured = true := by
  induction operations generalizing machine with
  | nil => simp [run, ChoosesAmong, Unbroken]
  | cons operation rest ih =>
    change ((machine.perform operation).machine.run rest).machine.plane.coloured = true ↔ _
    rw [ih, perform_coloured, ChoosesAmong, Unbroken]
    tauto

end

/-- Whatever strokes are made and whatever a machine has done: there are two widths, the first
colours stay until others are chosen, under the first drawing rule the visible cells are 0 and 1,
and under the other each of them has one of the two colours. -/
theorem planes_stay_regular :
    (∀ strokes : List Stroke, (Plane.paint {} strokes).1.Regular
      (∃ background foreground, Stroke.setColours background foreground ∈ strokes)) ∧
    ∀ (dialect : Dialect) (answers : Answers) (operations : List Operation),
      (session dialect answers operations).machine.plane.Regular
        ((boot dialect answers).1.ChoosesAmong operations) := by
  constructor
  · intro strokes
    have reachable : (Plane.paint {} strokes).1.Reachable := ⟨strokes, rfl⟩
    apply reachable.proper.regular
    rw [Plane.paint_coloured]
    exact or_iff_right nofun
  · intro dialect answers operations
    apply (session_reachable dialect answers operations).proper.regular
    have plain : ¬(boot dialect answers).1.plane.coloured = true := nofun
    rw [session, run_coloured]
    exact or_iff_left fun kept => plain kept.2

end Machine

end Chip8
