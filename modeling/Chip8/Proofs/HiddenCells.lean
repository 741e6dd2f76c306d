import Chip8.Proofs.Painting

/-!
# Hidden cells

In the low resolution three quarters of the array are hidden, and hold what is
left of an earlier screen. No stroke brings that back. What a stroke paints it
works out from visible cells alone, and it leaves alone what is hidden after
it. The one stroke that uncovers cells is a change to the high resolution, and
it paints all of them over: the screen is cleared after its width has changed.
-/
namespace Chip8.Plane

/-- Planes that agree on all but the hidden cells. -/
structure LooksLike (one other : Plane) : Prop extends SameScreen one other where
  dirty : other.dirty = one.dirty
  visible (place : Nat) : place < one.width * one.height → other.cells[place]? = one.cells[place]?

section

variable (plane : Plane)

/-- Repainting leaves hidden cells as they are. -/
theorem repaint_hidden (colour : Nat → Nat → UInt8) {place : Nat} (hidden : plane.area ≤ place) :
    (plane.repaint colour).cells[place]? = plane.cells[place]? := by
  rw [repaint, Vector.getElem?_mapIdx]
  simp only [if_neg (Nat.not_lt.mpr hidden)]
  exact Option.map_id'

theorem plot_hidden (x y : Nat) {place : Nat} (hidden : plane.area ≤ place) :
    (plane.plot x y).1.cells[place]? = plane.cells[place]? := by
  rw [plot_cells, if_neg fun named => Nat.not_lt.mpr hidden named.2]

/-- A stroke changes nothing but what is visible after it. -/
theorem apply_hidden (stroke : Stroke) {place : Nat}
    (hidden : (plane.apply stroke).1.area ≤ place) :
    (plane.apply stroke).1.cells[place]? = plane.cells[place]? := by
  cases stroke with
  | plot x y =>
    apply plot_hidden
    rw [← (plane.plot_screen x y).area]
    exact hidden
  | takeDirty => rfl
  | _ => exact repaint_hidden _ _ hidden

/-- Only a stroke to the high resolution leads there. -/
theorem apply_low (stroke : Stroke) (low : plane.resolution = .low)
    (stays : stroke ≠ .resize 128) : (plane.apply stroke).1.resolution = .low := by
  cases stroke with
  | plot x y => exact (plane.plot_screen x y).resolution.trans low
  | resize width => exact if_neg fun wide => stays (congrArg Stroke.resize wide)
  | _ => exact low

/-- As long as the screen stays narrow the hidden cells are not touched. -/
theorem paint_low (strokes : List Stroke) (low : plane.resolution = .low)
    (stays : .resize 128 ∉ strokes) :
    (plane.paint strokes).1.resolution = .low ∧
      ∀ place, 2048 ≤ place → (plane.paint strokes).1.cells[place]? = plane.cells[place]? := by
  induction strokes generalizing plane with
  | nil => exact ⟨low, fun _ _ => rfl⟩
  | cons stroke rest ih =>
    rw [List.mem_cons, not_or] at stays
    have narrow := plane.apply_low stroke low (Ne.symm stays.1)
    obtain ⟨later, kept⟩ := ih (plane.apply stroke).1 narrow stays.2
    refine ⟨later, fun place hidden => ?_⟩
    have outside : (plane.apply stroke).1.area ≤ place := by
      rw [area, narrow]
      exact hidden
    exact (kept place hidden).trans (plane.apply_hidden stroke outside)

end

namespace LooksLike

variable {one other : Plane}

theorem width (alike : SameScreen one other) : other.width = one.width := by
  rw [Plane.width, alike.resolution, Plane.width]

theorem repaint (same : SameScreen one other) {colour colour' : Nat → Nat → UInt8}
    (paired : ∀ row < one.height, ∀ column < one.width, colour' row column = colour row column) :
    LooksLike (one.repaint colour) (other.repaint colour') where
  toSameScreen := ⟨same.resolution, same.background, same.foreground, same.coloured⟩
  dirty := rfl
  visible place inside := by
    have inside : place < one.width * one.height := inside
    have narrow : place % one.width < one.width := Nat.mod_lt _ one.width_pos
    have within : place / one.width < one.height := Nat.div_lt_of_lt_mul inside
    have inside' : place < other.area := by
      rw [same.area]
      exact inside
    rw [repaint_getElem? one colour inside, repaint_getElem? other colour' inside', width same,
      paired _ within _ narrow]

theorem clear (same : SameScreen one other) : LooksLike one.clear other.clear :=
  repaint same fun _ _ _ _ => same.background

variable (alike : LooksLike one other)
include alike

theorem cell {row column : Nat} (within : row < one.height) (narrow : column < one.width) :
    other.cell row column = one.cell row column := by
  rw [Plane.cell, width alike.toSameScreen, alike.background,
    alike.visible _ (one.place_inside within narrow), Plane.cell]

theorem plot (x y : Nat) :
    (other.plot x y).2 = (one.plot x y).2 ∧ LooksLike (one.plot x y).1 (other.plot x y).1 := by
  have same := alike.toSameScreen
  have drawn : SameScreen (one.plot x y).1 (other.plot x y).1 := by
    have screen := one.plot_screen x y
    have screen' := other.plot_screen x y
    exact ⟨by rw [screen'.resolution, same.resolution, screen.resolution],
      by rw [screen'.background, same.background, screen.background],
      by rw [screen'.foreground, same.foreground, screen.foreground],
      by rw [screen'.coloured, same.coloured, screen.coloured]⟩
  refine ⟨?_, drawn, ?_, ?_⟩
  · rw [plot_hit, plot_hit, same.place, same.area, same.collides]
    -- A place that is not visible is not looked at.
    by_cases inside : one.place (x, y) < one.area
    · rw [alike.visible _ inside]
    · simp [inside]
  · rw [plot_dirty, plot_dirty, same.place, same.area, alike.dirty]
  · intro place inside
    have visible : place < one.area := by
      rw [← (one.plot_screen x y).area]
      exact inside
    rw [plot_cells, plot_cells, same.place, same.area, same.touched, alike.visible place visible]

theorem scrollDown (rows : Nat) : LooksLike (one.scrollDown rows) (other.scrollDown rows) := by
  apply repaint alike.toSameScreen
  intro row within column narrow
  split
  · exact alike.cell (by omega) narrow
  · exact alike.background

theorem scrollRight : LooksLike one.scrollRight other.scrollRight := by
  apply repaint alike.toSameScreen
  intro row within column narrow
  split
  · exact alike.cell within (by omega)
  · exact alike.background

theorem scrollLeft : LooksLike one.scrollLeft other.scrollLeft := by
  apply repaint alike.toSameScreen
  intro row within column narrow
  rw [width alike.toSameScreen]
  split
  next inside => exact alike.cell within inside
  · exact alike.background

/-- A stroke gets the same answer from both planes and leaves them looking the same. -/
theorem apply (stroke : Stroke) : (other.apply stroke).2 = (one.apply stroke).2 ∧
    LooksLike (one.apply stroke).1 (other.apply stroke).1 := by
  obtain ⟨same, dirty, visible⟩ := alike
  cases stroke with
  | plot x y =>
    obtain ⟨hit, drawn⟩ := plot ⟨same, dirty, visible⟩ x y
    exact ⟨congrArg some hit, drawn⟩
  | clear => exact ⟨rfl, clear same⟩
  -- Uncovered cells may differ, but the new width is cleared in both.
  | resize width => exact ⟨rfl, clear ⟨rfl, same.background, same.foreground, same.coloured⟩⟩
  | setColours background foreground => exact ⟨rfl, clear ⟨same.resolution, rfl, rfl, rfl⟩⟩
  | scrollDown rows => exact ⟨rfl, scrollDown ⟨same, dirty, visible⟩ rows⟩
  | scrollRight => exact ⟨rfl, scrollRight ⟨same, dirty, visible⟩⟩
  | scrollLeft => exact ⟨rfl, scrollLeft ⟨same, dirty, visible⟩⟩
  | takeDirty =>
    exact ⟨congrArg some dirty,
      ⟨same.resolution, same.background, same.foreground, same.coloured⟩, rfl, visible⟩

theorem paint (strokes : List Stroke) : (other.paint strokes).2 = (one.paint strokes).2 ∧
    LooksLike (one.paint strokes).1 (other.paint strokes).1 := by
  induction strokes generalizing one other with
  | nil => exact ⟨rfl, alike⟩
  | cons stroke rest ih =>
    obtain ⟨answer, next⟩ := alike.apply stroke
    obtain ⟨answers, last⟩ := ih next
    exact ⟨congrArg₂ List.cons answer answers, last⟩

end LooksLike

/-- What cells hold while they are hidden is never seen again, and on a narrow screen none of them
is touched before the screen is made wide. -/
theorem hidden_cells_stay_hidden :
    (∀ one other : Plane, LooksLike one other → ∀ strokes : List Stroke,
      (other.paint strokes).2 = (one.paint strokes).2 ∧
        LooksLike (one.paint strokes).1 (other.paint strokes).1) ∧
    ∀ (plane : Plane) (strokes : List Stroke), plane.width = 64 → .resize 128 ∉ strokes →
      (plane.paint strokes).1.width = 64 ∧
        ∀ place, 2048 ≤ place → (plane.paint strokes).1.cells[place]? = plane.cells[place]? := by
  constructor
  · intro one other alike strokes
    exact alike.paint strokes
  · intro plane strokes narrow stays
    have low : plane.resolution = .low := by
      rw [width] at narrow
      cases known : plane.resolution with
      | low => rfl
      | high =>
        rw [known] at narrow
        cases narrow
    obtain ⟨later, kept⟩ := plane.paint_low strokes low stays
    exact ⟨congrArg Resolution.width later, kept⟩

/-- A pixel of the wide screen that is still there when the screen is narrow, next to a screen that
never was wide. -/
theorem hidden_cells_stay_hidden_pixel :
    let one := resize {} .low
    let other := ((resize {} .high).plot 100 60).1.resize .low
    one.cells[7780]? = some 0x00 ∧ other.cells[7780]? = some 0xFF ∧
    (other.paint [.plot 3 4, .scrollLeft]).1.cells[7780]? = some 0xFF ∧
    LooksLike (one.paint [.resize 128]).1 (other.paint [.resize 128]).1 := by
  intro one other
  have wide := (resize {} .high).plot_screen 100 60
  have alike : LooksLike one other :=
    LooksLike.clear ⟨rfl, wide.background, wide.foreground, wide.coloured⟩
  have kept (plane : Plane) : (plane.resize .low).cells[7780]? = plane.cells[7780]? := by
    rw [resize, clear, repaint_hidden _ _ (show 2048 ≤ 7780 by decide)]
  have blank : (resize {} .high).cells[7780]? = some 0x00 := by
    rw [resize, clear, repaint_getElem? _ _ (show 7780 < 8192 by decide)]
    rfl
  have lit : ((resize {} .high).plot 100 60).1.cells[7780]? = some 0xFF := by
    rw [plot_cells, blank]
    rfl
  have left : other.cells[7780]? = some 0xFF := (kept _).trans lit
  obtain ⟨looks, stays⟩ := hidden_cells_stay_hidden
  obtain ⟨-, untouched⟩ := stays other [.plot 3 4, .scrollLeft] rfl (by simp)
  refine ⟨?_, left, (untouched 7780 (by decide)).trans left, (looks one other alike _).2⟩
  rw [show one.cells[7780]? = _ from kept {}, Vector.getElem?_replicate, if_pos (by decide)]
  rfl

end Chip8.Plane
