import Chip8.Proofs.CellValues
import Mathlib.Data.List.Perm.Basic

/-!
# Drawing again

Drawing a sprite a second time takes it away again, which is how programs move
things. A visible cell holds one of two values, and a touch swaps them, so a
cell that is touched twice is as it was, whatever the colours are and even if
they are the same. A sprite that met nothing the first time meets itself the
second time.

Nor does it matter in which order things are drawn. What becomes of a cell
depends on how often its place is named, and not on when.
-/
namespace Chip8

/-- What is drawn at one go: a point by its column and its row, or a sprite by its bytes and the
place of its top left corner. -/
inductive Drawing
  | plot (x y : Nat)
  | sprite (sprite : Sprite) (x y : Nat)

def Drawing.points : Drawing → List (Nat × Nat)
  | plot x y => [(x, y)]
  | sprite bits x y => bits.spots.map fun spot => (x + spot.2, y + spot.1)

namespace Plane

def draw (plane : Plane) : Drawing → Plane
  | .plot x y => (plane.plot x y).1
  | .sprite sprite x y => (plane.stamp sprite x y).1

theorem cells_ext {cells cells' : Vector UInt8 8192}
    (same : ∀ place : Nat, cells[place]? = cells'[place]?) : cells = cells' := by
  rw [← Vector.toArray_inj]
  apply Array.ext_getElem?
  intro place
  rw [Vector.getElem?_toArray, Vector.getElem?_toArray, same]

section

variable (plane : Plane)

theorem plots_append (first second : List (Nat × Nat)) :
    (plane.plots (first ++ second)).1 = ((plane.plots first).1.plots second).1 := by
  induction first generalizing plane with
  | nil => rfl
  | cons point rest ih => exact ih (plane.plot point.1 point.2).1

/-- The order of the points does not matter, as their number at each place is all that does. -/
theorem plots_perm {points points' : List (Nat × Nat)} (perm : points.Perm points') :
    (plane.plots points').1 = (plane.plots points).1 := by
  have same := plane.plots_screen points
  have same' := plane.plots_screen points'
  apply Plane.ext
  · exact same'.resolution.trans same.resolution.symm
  · exact same'.background.trans same.background.symm
  · exact same'.foreground.trans same.foreground.symm
  · exact same'.coloured.trans same.coloured.symm
  · rw [plots_dirty, plots_dirty, perm.any_eq]
  · apply cells_ext
    intro place
    rw [plots_cells, plots_cells, perm.countP_eq]

theorem draw_eq_plots (drawing : Drawing) :
    plane.draw drawing = (plane.plots drawing.points).1 := by
  cases drawing with
  | plot x y => rfl
  | sprite sprite x y => exact congrArg Prod.fst (plane.stamp_eq_plots sprite x y)

theorem foldl_draw (drawings : List Drawing) :
    drawings.foldl draw plane = (plane.plots (drawings.flatMap Drawing.points)).1 := by
  induction drawings generalizing plane with
  | nil => rfl
  | cons drawing rest ih =>
    rw [List.foldl_cons, ih, draw_eq_plots, List.flatMap_cons, plots_append]

end

section

variable {plane : Plane} (proper : plane.Proper)
include proper

/-- A second touch undoes the first. -/
theorem Proper.touched_touched {cell : UInt8} (allowed : plane.Allows cell) :
    plane.touched (plane.touched cell) = cell := by
  rw [proper.touched allowed]
  split
  next inked =>
    rw [proper.touched (Or.inl rfl), inked]
    split
    next alike => exact alike
    next => rfl
  next plain =>
    rw [proper.touched (Or.inr rfl), if_pos rfl]
    exact (allowed.resolve_right plain).symm

/-- What did not collide collides after a touch. -/
theorem Proper.collides_touched {cell : UInt8} (allowed : plane.Allows cell)
    (missed : plane.collides cell = false) : plane.collides (plane.touched cell) = true := by
  rw [proper.collides allowed, decide_eq_false_iff_not] at missed
  rw [proper.touched allowed, if_neg missed, proper.collides (Or.inr rfl), decide_eq_true rfl]

theorem plots_plots_cells (points : List (Nat × Nat)) :
    ((plane.plots points).1.plots points).1.cells = plane.cells := by
  have same := plane.plots_screen points
  apply cells_ext
  intro place
  rw [plots_cells, plots_cells, same.place, same.area, same.touched, Option.map_map,
    ← Function.iterate_add]
  by_cases inside : place < plane.area
  · have bound := Nat.lt_of_lt_of_le inside plane.resolution.area_le
    have allowed := proper.allowed place _ inside (Vector.getElem?_eq_getElem bound)
    -- An even number of touches is so many times two, and two do nothing.
    have restored : plane.touched^[2] plane.cells[place] = plane.cells[place] :=
      proper.touched_touched allowed
    rw [Vector.getElem?_eq_getElem bound, Option.map_some, ← Nat.two_mul, Function.iterate_mul,
      Function.iterate_fixed restored]
  · simp [inside]

/-- Points that met nothing meet themselves when they are plotted again. -/
theorem plots_plots_hit {points : List (Nat × Nat)} (apart : (points.map plane.place).Nodup)
    (missed : (plane.plots points).2 = false) {place : Nat} (named : plane.Named points place) :
    ((plane.plots points).1.plots points).2 = true := by
  have same := plane.plots_screen points
  have bound := Nat.lt_of_lt_of_le named.1 plane.resolution.area_le
  have clear : plane.collides (plane.cells.get ⟨place, bound⟩) = false := by
    refine Bool.eq_false_iff.mpr fun struck => ?_
    have hit := (plane.plots_hit_iff points apart).mpr ⟨⟨place, bound⟩, named, struck⟩
    exact absurd (hit.symm.trans missed) nofun
  have allowed := proper.allowed place _ named.1 (getElem?_get plane.cells ⟨place, bound⟩)
  rw [plots_hit_iff _ _ (by rwa [same.place])]
  refine ⟨⟨place, bound⟩, ?_, ?_⟩
  · rw [Named, same.area, same.place]
    exact named
  · rw [same.collides, plane.plots_named points apart ⟨place, bound⟩ named]
    exact proper.collides_touched allowed clear

end

end Plane

namespace Machine

section

variable (machine : Machine) (answers : Answers) (x y height : Nibble)

theorem obey_draw_plane : (machine.obey answers (.draw x y height)).machine.plane =
    (machine.plane.plots (machine.points x y height)).1 := by
  rw [obey_running answers machine (.draw x y height) nofun, tick_plane]
  exact drawSprite_plane machine.advanced x y height

theorem obey_draw_flag : (machine.obey answers (.draw x y height)).machine.registers.get 0xF =
    if (machine.plane.plots (machine.points x y height)).2 then 1 else 0 := by
  rw [obey_running answers machine (.draw x y height) nofun, tick_get]
  exact drawSprite_flag machine.advanced x y height

variable {x y}

/-- Unless the flag gives its position, a sprite that was drawn would be drawn there again. -/
theorem obey_draw_points (across : x ≠ 0xF) (down : y ≠ 0xF) :
    (machine.obey answers (.draw x y height)).machine.points x y height =
      machine.points x y height := by
  obtain ⟨_, _, -, -, footprint⟩ := @obey_footprint answers machine (.draw x y height) nofun
  have memory : (machine.obey answers (.draw x y height)).machine.memory = machine.memory := by
    rw [obey_running answers machine (.draw x y height) nofun, tick_eq]
    rfl
  have narrow := (machine.plane.plots_screen (machine.points x y height)).resolution
  rw [← obey_draw_plane machine answers] at narrow
  rw [points, points, sprite, sprite, footprint.register x across, footprint.register y down,
    footprint.index rfl, memory, narrow]

end

/-- A sprite that is drawn twice in a row is gone and has left nothing behind. If it met nothing
before, it meets itself, as long as any of it is in sight. And whatever is drawn, the order of
drawing does not show. -/
theorem drawings_undo_and_commute :
    (∀ (dialect : Dialect) (start : Answers) (operations : List Operation)
        (answers answers' : Answers) (x y height : Nibble), x ≠ 0xF → y ≠ 0xF →
      let machine := (session dialect start operations).machine
      let once := (machine.obey answers (.draw x y height)).machine
      let twice := (once.obey answers' (.draw x y height)).machine
      twice.plane.cells = machine.plane.cells ∧
        (once.registers.get 0xF = 0 → (∃ place, machine.Toggles x y height place) →
          twice.registers.get 0xF = 1)) ∧
    (∀ (plane : Plane) (drawings drawings' : List Drawing), drawings.Perm drawings' →
      drawings'.foldl Plane.draw plane = drawings.foldl Plane.draw plane) ∧
    ∀ (machine : Machine) (answers : Answers) (x y height : Nibble),
      let turn := machine.obey answers (.draw x y height)
      (machine.fetch.toNat = 0xD000 + 0x100 * x.val + 0x10 * y.val + height.val →
        machine.step answers = .ok turn) ∧
      turn.machine.plane = machine.plane.draw (.sprite (machine.sprite height)
        (machine.registers.get x).toNat (machine.registers.get y).toNat) := by
  refine ⟨?_, ?_, ?_⟩
  · intro dialect start operations answers answers' x y height across down machine once twice
    have proper : machine.plane.Proper := (session_reachable dialect start operations).proper
    have drawn : once.plane = (machine.plane.plots (machine.points x y height)).1 :=
      machine.obey_draw_plane answers x y height
    have again : once.points x y height = machine.points x y height :=
      machine.obey_draw_points answers height across down
    constructor
    · rw [obey_draw_plane, again, drawn]
      exact Plane.plots_plots_cells proper _
    -- No two lit spots of a sprite lie on one cell, so none of them met another the first time.
    · rintro clear ⟨place, toggled⟩
      rw [obey_draw_flag] at clear
      have missed : (machine.plane.plots (machine.points x y height)).2 = false :=
        Bool.eq_false_iff.mpr fun hit => by simp [hit] at clear
      have named := (machine.toggles_iff x y height place).mp toggled
      have met := Plane.plots_plots_hit proper (machine.points_apart x y height) missed named
      rw [obey_draw_flag, again, drawn, met, if_pos rfl]
  · intro plane drawings drawings' perm
    rw [Plane.foldl_draw, Plane.foldl_draw]
    exact plane.plots_perm (perm.flatMap_right Drawing.points)
  · intro machine answers x y height turn
    refine ⟨fun fetched => ?_, ?_⟩
    · exact step_decoded answers (decode_draw machine.dialect machine.fetch x y height fetched)
    · rw [Plane.draw_eq_plots]
      exact machine.obey_draw_plane answers x y height

theorem session_single (dialect : Dialect) (answers : Answers) (operation : Operation) :
    (session dialect answers [operation]).machine =
      ((fresh dialect answers).perform operation).machine := rfl

/-- A program that makes the screen wide leaves registers and memory alone. -/
theorem perform_wide {machine : Machine} (answers : Answers)
    (decoded : machine.dialect.decode machine.fetch = .ok .highResolution) :
    let left := (machine.perform (.step answers)).machine
    left.plane = machine.plane.resize .high ∧
      (∀ x, left.registers.get x = machine.registers.get x) ∧
      left.registers.index = machine.registers.index ∧ left.memory = machine.memory := by
  have same := perform_same answers decoded (by simp)
  exact ⟨same.plane, fun x => congrArg (·.get x) same.v, same.index, same.memory⟩

/-- The digit zero at the left end of the first row of a blank wide screen. -/
theorem draw_digit {machine : Machine} (wide : machine.plane = Plane.resize {} .high)
    (corner : ∀ x, machine.registers.get x = 0) (index : machine.registers.index = 0)
    (digit : machine.memory.cells[0]? = some 0xF0) (answers : Answers) :
    machine.Toggles 0 1 5 0 ∧
      (machine.obey answers (.draw 0 1 5)).machine.registers.get 0xF = 0 := by
  constructor
  · refine ⟨?_, 0, 0, ⟨?_, ?_, 0xF0, ?_, ?_⟩, ?_⟩
    · rw [wide]
      decide
    · rw [spriteRows, if_neg fun both => absurd both.1 (by decide)]
      decide
    · rw [spriteBytes, if_neg fun both => absurd both.1 (by decide)]
      decide
    · rw [index, Nat.zero_mul]
      exact digit
    · decide
    · rw [offset, corner, corner]
      simp
  · rw [obey_draw_flag]
    apply (machine.plots_stamped 0 1 5).missed
    rintro ⟨place, toggled, lit⟩
    -- Every visible cell has just been cleared.
    have cleared : machine.plane.cells[place.val]? = some 0x00 := by
      rw [wide, Plane.resize, Plane.clear, Plane.repaint_getElem? _ _ place.isLt]
      rfl
    rw [Plane.getElem?_get, Option.some.injEq] at cleared
    rw [cleared, wide] at lit
    cases lit

/-- A digit on a wide screen, drawn twice in the corner, and drawn before and after a point in the
middle of it. -/
theorem drawings_undo_and_commute_wide :
    let answers : Answers :=
      { resetClock := 0, pollClock := 0, held := fun _ => false, rom := { bytes := #[0x00, 0xFF] },
        words := .cycling #[] }
    let machine := (session {} answers [.step answers]).machine
    let once := (machine.obey answers (.draw 0 1 5)).machine
    let twice := (once.obey answers (.draw 0 1 5)).machine
    let digit := Drawing.sprite (machine.sprite 5) 0 0
    machine.plane.mode = .overwrite ∧ once.registers.get 0xF = 0 ∧ twice.registers.get 0xF = 1 ∧
      twice.plane.cells = machine.plane.cells ∧
      [.plot 2 2, digit].foldl Plane.draw machine.plane =
        [digit, .plot 2 2].foldl Plane.draw machine.plane := by
  -- Whatever the program, it is enough that it starts with the wide screen.
  have general (answers : Answers)
      (decoded : (fresh {} answers).dialect.decode (fresh {} answers).fetch = .ok .highResolution) :
      let machine := (session {} answers [.step answers]).machine
      let once := (machine.obey answers (.draw 0 1 5)).machine
      let twice := (once.obey answers (.draw 0 1 5)).machine
      let digit := Drawing.sprite (machine.sprite 5) 0 0
      machine.plane.mode = .overwrite ∧ once.registers.get 0xF = 0 ∧
        twice.registers.get 0xF = 1 ∧ twice.plane.cells = machine.plane.cells ∧
        [.plot 2 2, digit].foldl Plane.draw machine.plane =
          [digit, .plot 2 2].foldl Plane.draw machine.plane := by
    have pristine := fresh_pristine {} answers
    obtain ⟨wide, registers, index, memory⟩ := perform_wide answers decoded
    rw [← session_single] at wide registers index memory
    have digit : (session {} answers [.step answers]).machine.memory.cells[0]? = some 0xF0 := by
      rw [memory]
      exact pristine.memory.font 0 (by decide)
    obtain ⟨toggled, clear⟩ := draw_digit wide
      (fun x => (registers x).trans (pristine.register x)) (index.trans pristine.index) digit
      answers
    obtain ⟨undoes, commutes, -⟩ := drawings_undo_and_commute
    obtain ⟨restored, met⟩ := undoes {} answers [.step answers] answers answers 0 1 5
      (by decide) (by decide)
    exact ⟨congrArg Plane.mode wide, clear, met clear ⟨0, toggled⟩, restored,
      commutes _ _ _ (.swap _ _ [])⟩
  intro answers
  apply general answers
  have fetched : (fresh {} answers).fetch = 0x00FF :=
    ((fresh_pristine {} answers).memory.readWord 0x200 (by decide) (by decide) rfl rfl).trans
      (by decide)
  rw [fetched]
  rfl

end Machine

end Chip8
