import Chip8.Proofs.Plotting

/-!
# Painting

All that can be done to a plane, as data, so that whatever a program or a host
does to it is a list of strokes. A visible cell has one of two values at any
time: the background, or the ink that the drawing rule leaves behind. Every
stroke keeps it so, whichever rule is in force, because those that change the
rule or the colours also clear the screen.
-/
namespace Chip8

inductive Stroke
  | plot (x y : Nat)
  | clear
  | resize (width : Nat)
  | setColours (background foreground : UInt8)
  | scrollDown (rows : Nat)
  | scrollRight
  | scrollLeft
  | takeDirty
deriving DecidableEq, Repr

namespace Plane

/-- A stroke, and what it answers: a plot whether it collided, the dirty flag its old value. -/
def apply (plane : Plane) : Stroke → Plane × Option Bool
  | .plot x y =>
    let (plane, hit) := plane.plot x y
    (plane, some hit)
  | .clear => (plane.clear, none)
  | .resize width => (plane.resize (.ofWidth width), none)
  | .setColours background foreground => (plane.setColours background foreground, none)
  | .scrollDown rows => (plane.scrollDown rows, none)
  | .scrollRight => (plane.scrollRight, none)
  | .scrollLeft => (plane.scrollLeft, none)
  | .takeDirty => (plane.shown, some plane.dirty)

/-- Strokes one after the other, and their answers in order. -/
def paint (plane : Plane) : List Stroke → Plane × List (Option Bool)
  | [] => (plane, [])
  | stroke :: rest =>
    let (plane, answer) := plane.apply stroke
    let (plane, answers) := plane.paint rest
    (plane, answer :: answers)

/-- Strokes lead to the plane from a new one. -/
def Reachable (plane : Plane) : Prop := ∃ strokes, (paint {} strokes).1 = plane

theorem Reachable.induct {holds : Plane → Prop} (new : holds {})
    (stroke : ∀ plane stroke, holds plane → holds (plane.apply stroke).1) {plane : Plane}
    (reachable : plane.Reachable) : holds plane := by
  obtain ⟨strokes, rfl⟩ := reachable
  have painted (plane : Plane) (start : holds plane) : holds (plane.paint strokes).1 := by
    induction strokes generalizing plane with
    | nil => exact start
    | cons first rest ih => exact ih _ (stroke plane first start)
  exact painted {} new

section

variable (plane : Plane)

theorem visible_getElem? (place : Nat) :
    plane.visible[place]? = if place < plane.area then plane.cells[place]? else none := by
  have fits : plane.area ≤ 8192 := plane.resolution.area_le
  rw [visible, Array.getElem?_extract, Vector.size_toArray, Nat.min_eq_left fits, Nat.sub_zero,
    Nat.zero_add, Vector.getElem?_toArray]

theorem width_pos : 0 < plane.width := by
  unfold width
  cases plane.resolution <;> decide

theorem place_inside {row column : Nat} (within : row < plane.height)
    (narrow : column < plane.width) : row * plane.width + column < plane.area := by
  have rows : (row + 1) * plane.width ≤ plane.height * plane.width := Nat.mul_le_mul_right _ within
  rw [Nat.add_mul, Nat.one_mul, Nat.mul_comm plane.height] at rows
  exact Nat.lt_of_lt_of_le (Nat.add_lt_add_left narrow _) rows

/-- A repainted place has the colour of its row and its column. -/
theorem repaint_getElem? (colour : Nat → Nat → UInt8) {place : Nat} (inside : place < plane.area) :
    (plane.repaint colour).cells[place]? =
      some (colour (place / plane.width) (place % plane.width)) := by
  have bound : place < 8192 := Nat.lt_of_lt_of_le inside plane.resolution.area_le
  rw [repaint, Vector.getElem?_mapIdx, Vector.getElem?_eq_getElem bound, Option.map_some,
    if_pos inside]

/-- What the drawing rule makes of the background. -/
def ink : UInt8 :=
  match plane.mode with
  | .flip => 1
  | .overwrite => plane.foreground

/-- One of the two values that a visible cell may have. -/
def Allows (cell : UInt8) : Prop := cell = plane.background ∨ cell = plane.ink

/-- Colours are the first ones until some are chosen, and no visible cell has a third value. -/
structure Proper : Prop where
  uncoloured : plane.coloured = false →
    plane.background = defaultBackground ∧ plane.foreground = defaultForeground
  allowed (place : Nat) (cell : UInt8) : place < plane.area → plane.cells[place]? = some cell →
    plane.Allows cell

end

theorem new_cell {place : Nat} {cell : UInt8} (found : (cells {})[place]? = some cell) :
    cell = defaultBackground := by
  rw [Vector.getElem?_replicate] at found
  split at found
  · exact (Option.some.inj found).symm
  · cases found

theorem new_proper : Proper {} where
  uncoloured _ := ⟨rfl, rfl⟩
  allowed _ _ _ found := Or.inl (new_cell found)

theorem repaint_proper {plane : Plane} (colour : Nat → Nat → UInt8)
    (uncoloured : plane.coloured = false →
      plane.background = defaultBackground ∧ plane.foreground = defaultForeground)
    (allowed : ∀ row < plane.height, ∀ column < plane.width, plane.Allows (colour row column)) :
    (plane.repaint colour).Proper where
  uncoloured := uncoloured
  allowed place cell inside found := by
    have inside : place < plane.width * plane.height := inside
    rw [plane.repaint_getElem? colour inside, Option.some.injEq] at found
    rw [← found]
    exact allowed _ (Nat.div_lt_of_lt_mul inside) _ (Nat.mod_lt _ plane.width_pos)

theorem clear_proper {plane : Plane} (uncoloured : plane.coloured = false →
    plane.background = defaultBackground ∧ plane.foreground = defaultForeground) :
    plane.clear.Proper := repaint_proper _ uncoloured fun _ _ _ _ => Or.inl rfl

namespace Proper

variable {plane : Plane} (proper : plane.Proper)
include proper

theorem cell {row column : Nat} (within : row < plane.height) (narrow : column < plane.width) :
    plane.Allows (plane.cell row column) := by
  have inside := plane.place_inside within narrow
  have bound := Nat.lt_of_lt_of_le inside plane.resolution.area_le
  rw [Plane.cell, Vector.getElem?_eq_getElem bound, Option.getD_some]
  exact proper.allowed _ _ inside (Vector.getElem?_eq_getElem bound)

/-- In the first drawing rule no colours have been chosen, so the cells are 0 and 1. -/
theorem flip_background (mode : plane.mode = .flip) : plane.background = 0 := by
  apply And.left
  apply proper.uncoloured
  unfold Plane.mode at mode
  split at mode
  · cases mode
  next plain => exact Bool.eq_false_iff.mpr fun coloured => plain (Or.inr coloured)

/-- Under either drawing rule a lit pixel swaps the two values. -/
theorem touched {cell : UInt8} (allowed : plane.Allows cell) :
    plane.touched cell = if cell = plane.ink then plane.background else plane.ink := by
  cases mode : plane.mode with
  | flip =>
    simp only [Allows, ink, Plane.touched, mode, proper.flip_background mode] at allowed ⊢
    rcases allowed with rfl | rfl <;> decide
  | overwrite => simp only [Plane.touched, ink, mode]

/-- Under either drawing rule a lit pixel collides with ink. -/
theorem collides {cell : UInt8} (allowed : plane.Allows cell) :
    plane.collides cell = decide (cell = plane.ink) := by
  cases mode : plane.mode with
  | flip =>
    simp only [Allows, ink, Plane.collides, mode, proper.flip_background mode] at allowed ⊢
    rcases allowed with rfl | rfl <;> decide
  | overwrite => simp only [Plane.collides, ink, mode]

theorem plot (x y : Nat) : (plane.plot x y).1.Proper := by
  -- A plot changes neither the colours nor the rule, so the same two values are allowed after it.
  have same := plane.plot_screen x y
  have ink : (plane.plot x y).1.ink = plane.ink := by
    rw [Plane.ink, same.mode, same.foreground, Plane.ink]
  have allows (cell : UInt8) (allowed : plane.Allows cell) :
      (plane.plot x y).1.Allows cell := by
    rw [Allows, same.background, ink]
    exact allowed
  refine ⟨?_, ?_⟩
  · rw [same.coloured, same.background, same.foreground]
    exact proper.uncoloured
  · intro place cell inside found
    rw [same.area] at inside
    rw [plot_cells] at found
    split at found
    · obtain ⟨old, before, rfl⟩ := Option.map_eq_some_iff.mp found
      have allowed := proper.allowed place old inside before
      rw [proper.touched allowed]
      split
      · exact allows _ (Or.inl rfl)
      · exact allows _ (Or.inr rfl)
    · exact allows cell (proper.allowed place cell inside found)

theorem scrollDown (rows : Nat) : (plane.scrollDown rows).Proper := by
  apply repaint_proper _ proper.uncoloured
  intro row within column narrow
  split
  · exact proper.cell (by omega) narrow
  · exact Or.inl rfl

theorem scrollRight : plane.scrollRight.Proper := by
  apply repaint_proper _ proper.uncoloured
  intro row within column narrow
  split
  · exact proper.cell within (by omega)
  · exact Or.inl rfl

theorem scrollLeft : plane.scrollLeft.Proper := by
  apply repaint_proper _ proper.uncoloured
  intro row within column narrow
  split
  next inside => exact proper.cell within inside
  · exact Or.inl rfl

theorem apply (stroke : Stroke) : (plane.apply stroke).1.Proper := by
  cases stroke with
  | plot x y => exact proper.plot x y
  | clear => exact clear_proper proper.uncoloured
  | resize width => exact clear_proper proper.uncoloured
  | setColours background foreground => exact clear_proper nofun
  | scrollDown rows => exact proper.scrollDown rows
  | scrollRight => exact proper.scrollRight
  | scrollLeft => exact proper.scrollLeft
  | takeDirty => exact ⟨proper.uncoloured, proper.allowed⟩

end Proper

theorem Reachable.proper {plane : Plane} (reachable : plane.Reachable) : plane.Proper :=
  reachable.induct new_proper fun _ stroke proper => proper.apply stroke

end Plane

end Chip8
