import Chip8.Sprite
import Mathlib.Data.List.Nodup
import Mathlib.Logic.Function.Iterate

/-!
# Plotting

Drawing a sprite plots its lit spots one after the other. What a whole series
of plots comes to depends on the points alone: each visible cell is touched as
often as the series names its place, and all other cells are left alone. Where
no place is named twice, the collisions can be read off the plane as it was.
-/
namespace Chip8.Plane

/-- Where a point given by its column and its row lies in the row order. -/
def place (plane : Plane) (point : Nat × Nat) : Nat := point.1 + point.2 * plane.width

/-- Everything but the cells and the dirty flag agrees. -/
structure SameScreen (plane other : Plane) : Prop where
  resolution : other.resolution = plane.resolution
  background : other.background = plane.background
  foreground : other.foreground = plane.foreground
  coloured : other.coloured = plane.coloured

namespace SameScreen

theorem refl (plane : Plane) : SameScreen plane plane := ⟨rfl, rfl, rfl, rfl⟩

theorem trans {first second third : Plane} (one : SameScreen first second)
    (two : SameScreen second third) : SameScreen first third where
  resolution := two.resolution.trans one.resolution
  background := two.background.trans one.background
  foreground := two.foreground.trans one.foreground
  coloured := two.coloured.trans one.coloured

variable {plane other : Plane}

theorem area (same : SameScreen plane other) : other.area = plane.area := by
  rw [Plane.area, same.resolution, Plane.area]

theorem place (same : SameScreen plane other) : other.place = plane.place := by
  funext point
  rw [Plane.place, width, same.resolution, Plane.place, width]

theorem mode (same : SameScreen plane other) : other.mode = plane.mode := by
  rw [Plane.mode, same.resolution, same.coloured, Plane.mode]

theorem touched (same : SameScreen plane other) : other.touched = plane.touched := by
  funext cell
  rw [Plane.touched, same.mode, same.background, same.foreground, Plane.touched]

theorem collides (same : SameScreen plane other) : other.collides = plane.collides := by
  funext cell
  rw [Plane.collides, same.mode, same.foreground, Plane.collides]

end SameScreen

section Plot

variable (plane : Plane) (x y : Nat)

theorem place_lt (inside : plane.place (x, y) < plane.area) : plane.place (x, y) < 8192 :=
  Nat.lt_of_lt_of_le inside plane.resolution.area_le

theorem plot_outside (outside : ¬plane.place (x, y) < plane.area) :
    plane.plot x y = (plane, false) := dif_neg outside

theorem plot_inside (inside : plane.place (x, y) < plane.area) :
    have := plane.place_lt x y inside
    let cell := plane.cells[plane.place (x, y)]
    plane.plot x y =
      ({ plane with
          dirty := true
          cells := plane.cells.set (plane.place (x, y)) (plane.touched cell) },
        plane.collides cell) := dif_pos inside

theorem plot_screen : SameScreen plane (plane.plot x y).1 := by
  by_cases inside : plane.place (x, y) < plane.area
  · rw [plane.plot_inside x y inside]
    exact ⟨rfl, rfl, rfl, rfl⟩
  · rw [plane.plot_outside x y inside]
    exact .refl plane

theorem plot_dirty :
    (plane.plot x y).1.dirty = (decide (plane.place (x, y) < plane.area) || plane.dirty) := by
  by_cases inside : plane.place (x, y) < plane.area
  · simp [plane.plot_inside x y inside, inside]
  · simp [plane.plot_outside x y inside, inside]

theorem plot_hit : (plane.plot x y).2 =
    (decide (plane.place (x, y) < plane.area) &&
      plane.cells[plane.place (x, y)]?.any plane.collides) := by
  by_cases inside : plane.place (x, y) < plane.area
  · have bound := plane.place_lt x y inside
    simp [plane.plot_inside x y inside, inside, bound]
  · simp [plane.plot_outside x y inside, inside]

theorem plot_cells (other : Nat) : (plane.plot x y).1.cells[other]? =
    if plane.place (x, y) = other ∧ other < plane.area then plane.cells[other]?.map plane.touched
    else plane.cells[other]? := by
  by_cases inside : plane.place (x, y) < plane.area
  · have bound := plane.place_lt x y inside
    rw [plane.plot_inside x y inside, Vector.getElem?_set]
    by_cases same : plane.place (x, y) = other
    · subst same
      simp [inside, bound]
    · simp [same]
  · rw [plane.plot_outside x y inside, if_neg (by omega)]

theorem plot_elsewhere {other : Nat} (differs : plane.place (x, y) ≠ other) :
    (plane.plot x y).1.cells[other]? = plane.cells[other]? := by
  rw [plot_cells, if_neg fun named => differs named.1]

end Plot

/-- Plots points one after the other and says whether any collided. -/
def plots (plane : Plane) : List (Nat × Nat) → Plane × Bool
  | [] => (plane, false)
  | (x, y) :: rest =>
    let (plane, hit) := plane.plot x y
    let (plane, hits) := plane.plots rest
    (plane, hit || hits)

theorem stamp_eq_plots (plane : Plane) (sprite : Sprite) (x y : Nat) :
    plane.stamp sprite x y =
      plane.plots (sprite.spots.map fun spot => (x + spot.2, y + spot.1)) := by
  have accumulates (spots : List (Nat × Nat)) (drawn : Plane × Bool) :
      spots.foldl (fun drawn spot =>
        let next := drawn.1.plot (x + spot.2) (y + spot.1)
        (next.1, drawn.2 || next.2)) drawn =
      let later := drawn.1.plots (spots.map fun spot => (x + spot.2, y + spot.1))
      (later.1, drawn.2 || later.2) := by
    induction spots generalizing drawn with
    | nil => simp [plots]
    | cons spot rest ih => simp [plots, ih, Bool.or_assoc]
  have stamped := accumulates sprite.spots (plane, false)
  simp only [Bool.false_or] at stamped
  exact stamped

section Plots

variable (plane : Plane) (points : List (Nat × Nat))

theorem plots_screen : SameScreen plane (plane.plots points).1 := by
  induction points generalizing plane with
  | nil => exact .refl plane
  | cons point rest ih => exact (plane.plot_screen point.1 point.2).trans (ih _)

/-- No plot changes anything without setting the dirty flag. -/
theorem plots_changed : (plane.plots points).1 = plane ∨ (plane.plots points).1.dirty = true := by
  induction points generalizing plane with
  | nil => exact Or.inl rfl
  | cons point rest ih =>
    rcases ih (plane.plot point.1 point.2).1 with same | dirty
    -- If the rest changed nothing, it is up to the first point.
    · by_cases inside : plane.place point < plane.area
      · right
        change ((plane.plot point.1 point.2).1.plots rest).1.dirty = true
        rw [same, plot_dirty, decide_eq_true inside, Bool.true_or]
      · left
        change ((plane.plot point.1 point.2).1.plots rest).1 = plane
        rw [same, plane.plot_outside point.1 point.2 inside]
    · exact Or.inr dirty

theorem plots_dirty : (plane.plots points).1.dirty =
    (points.any (fun point => decide (plane.place point < plane.area)) || plane.dirty) := by
  induction points generalizing plane with
  | nil => rfl
  | cons point rest ih =>
    have same := plane.plot_screen point.1 point.2
    simp only [plots, ih, same.place, same.area, plot_dirty, List.any_cons]
    rw [← Bool.or_assoc, Bool.or_comm (rest.any _)]

/-- How often a place is named decides what becomes of its cell. -/
theorem plots_cells (other : Nat) : (plane.plots points).1.cells[other]? =
    plane.cells[other]?.map (plane.touched^[points.countP fun point =>
      plane.place point = other ∧ other < plane.area]) := by
  induction points generalizing plane with
  | nil => simp [plots]
  | cons point rest ih =>
    have same := plane.plot_screen point.1 point.2
    -- What a touch does depends on the screen, which no plot changes.
    simp only [plots, ih, same.place, same.area, same.touched, plot_cells, List.countP_cons]
    by_cases named : plane.place point = other ∧ other < plane.area
    · simp [named]
    · simp [named]

/-- Where no place is named twice, every collision is one with the plane as it was. -/
theorem plots_hit (apart : (points.map plane.place).Nodup) : (plane.plots points).2 =
    points.any fun point => decide (plane.place point < plane.area) &&
      plane.cells[plane.place point]?.any plane.collides := by
  induction points generalizing plane with
  | nil => rfl
  | cons point rest ih =>
    have same := plane.plot_screen point.1 point.2
    rw [List.map_cons, List.nodup_cons] at apart
    simp only [plots, List.any_cons]
    rw [ih _ (by rw [same.place]; exact apart.2)]
    simp only [same.place, same.area, same.collides, plot_hit]
    congr 1
    apply Bool.eq_iff_iff.mpr
    simp only [List.any_eq_true]
    apply exists_congr
    intro other
    apply and_congr_right
    intro member
    -- The first point cannot have changed a cell that a later one meets.
    have differs : plane.place point ≠ plane.place other := fun same =>
      apart.1 (List.mem_map.mpr ⟨other, member, same.symm⟩)
    rw [plane.plot_elsewhere point.1 point.2 differs]

theorem getElem?_get (cells : Vector UInt8 8192) (place : Fin 8192) :
    cells[place.val]? = some (cells.get place) := Vector.getElem?_eq_getElem place.isLt

/-- The place is visible and some point of the series lies on it. -/
def Named (place : Nat) : Prop := place < plane.area ∧ ∃ point ∈ points, plane.place point = place

theorem plots_dirty_iff : (plane.plots points).1.dirty = true ↔
    plane.dirty = true ∨ ∃ place, plane.Named points place := by
  rw [plots_dirty, Bool.or_eq_true, List.any_eq_true, or_comm]
  apply or_congr_right
  constructor
  · rintro ⟨point, member, inside⟩
    exact ⟨plane.place point, of_decide_eq_true inside, point, member, rfl⟩
  · rintro ⟨_, inside, point, member, rfl⟩
    exact ⟨point, member, decide_eq_true inside⟩

theorem plots_unnamed (place : Fin 8192) (unnamed : ¬plane.Named points place) :
    (plane.plots points).1.cells.get place = plane.cells.get place := by
  have never : points.countP (fun point => plane.place point = place ∧ place < plane.area) = 0 := by
    rw [List.countP_eq_zero]
    intro point member named
    obtain ⟨there, inside⟩ := of_decide_eq_true named
    exact unnamed ⟨inside, point, member, there⟩
  have cells := plane.plots_cells points place
  rw [never, Function.iterate_zero, Option.map_id, getElem?_get, getElem?_get] at cells
  exact Option.some.inj cells

theorem plots_named (apart : (points.map plane.place).Nodup) (place : Fin 8192)
    (named : plane.Named points place) :
    (plane.plots points).1.cells.get place = plane.touched (plane.cells.get place) := by
  obtain ⟨inside, point, member, there⟩ := named
  have once : points.countP (fun point => plane.place point = place ∧ place < plane.area) = 1 := by
    have counted := List.count_eq_one_of_mem apart (List.mem_map.mpr ⟨point, member, there⟩)
    rw [List.count_eq_countP, List.countP_map] at counted
    rw [← counted]
    apply List.countP_congr
    intro other _
    simp [inside]
  have cells := plane.plots_cells points place
  rw [once, Function.iterate_one, getElem?_get, getElem?_get] at cells
  exact Option.some.inj cells

theorem plots_hit_iff (apart : (points.map plane.place).Nodup) :
    (plane.plots points).2 = true ↔ ∃ place : Fin 8192,
      plane.Named points place ∧ plane.collides (plane.cells.get place) = true := by
  rw [plots_hit plane points apart, List.any_eq_true]
  constructor
  · rintro ⟨point, member, hit⟩
    obtain ⟨inside, struck⟩ := (Bool.and_eq_true _ _).mp hit
    have inside := of_decide_eq_true inside
    have bound := plane.place_lt point.1 point.2 inside
    refine ⟨⟨plane.place point, bound⟩, ⟨inside, point, member, rfl⟩, ?_⟩
    rwa [Vector.getElem?_eq_getElem bound] at struck
  · rintro ⟨place, ⟨inside, point, member, there⟩, struck⟩
    refine ⟨point, member, ?_⟩
    rw [there, getElem?_get, Option.any_some, struck, Bool.and_true]
    exact decide_eq_true inside

end Plots

end Chip8.Plane
