import Chip8.Proofs.Painting

/-!
# Colours do not matter

A program cannot see colours: all it learns from the plane is whether a pixel
collided. So what is lit has to be the same whatever the colours are, and
whichever of the two drawing rules is in force. Where foreground and background
differ, either rule swaps two values of which one is the background. Hence what
a stroke makes of the lit cells, and what it answers, follows from the lit
cells alone.
-/
namespace Chip8

/-- Strokes that differ in the colours they choose and in nothing else. Chosen colours differ from
each other. -/
inductive Stroke.Recoloured : Stroke → Stroke → Prop
  | plot (x y : Nat) : Recoloured (.plot x y) (.plot x y)
  | clear : Recoloured .clear .clear
  | resize (width : Nat) : Recoloured (.resize width) (.resize width)
  | setColours {background foreground background' foreground' : UInt8} :
    background ≠ foreground → background' ≠ foreground' →
    Recoloured (.setColours background foreground) (.setColours background' foreground')
  | scrollDown (rows : Nat) : Recoloured (.scrollDown rows) (.scrollDown rows)
  | scrollRight : Recoloured .scrollRight .scrollRight
  | scrollLeft : Recoloured .scrollLeft .scrollLeft

namespace Stroke.Recoloured

variable {stroke stroke' : Stroke} (recoloured : stroke.Recoloured stroke')
include recoloured

theorem chosen (background foreground : UInt8)
    (chooses : stroke = .setColours background foreground) : background ≠ foreground := by
  subst chooses
  cases recoloured with
  | setColours distinct _ => exact distinct

theorem chosen' (background foreground : UInt8)
    (chooses : stroke' = .setColours background foreground) : background ≠ foreground := by
  subst chooses
  cases recoloured with
  | setColours _ distinct => exact distinct

end Stroke.Recoloured

namespace Plane

/-- The place is visible and differs from the background. -/
def Lit (plane : Plane) (place : Nat) : Prop :=
  ∃ cell, plane.visible[place]? = some cell ∧ cell ≠ plane.background

/-- What is lit can be told from what is not. -/
structure TwoColoured (plane : Plane) : Prop extends plane.Proper where
  distinct : plane.background ≠ plane.foreground

/-- The same places are lit. -/
structure SameLit (one other : Plane) : Prop where
  resolution : other.resolution = one.resolution
  lit (place : Nat) : other.Lit place ↔ one.Lit place

section

variable (plane : Plane)

theorem lit_iff (place : Nat) : plane.Lit place ↔
    place < plane.area ∧ ∃ cell, plane.cells[place]? = some cell ∧ cell ≠ plane.background := by
  rw [Lit, visible_getElem?]
  split
  next inside => simp only [inside, true_and]
  next outside => simp only [outside, false_and, reduceCtorEq, exists_false]

theorem cell_lit {row column : Nat} (within : row < plane.height) (narrow : column < plane.width) :
    plane.cell row column ≠ plane.background ↔ plane.Lit (row * plane.width + column) := by
  have inside := plane.place_inside within narrow
  have bound := Nat.lt_of_lt_of_le inside plane.resolution.area_le
  rw [lit_iff, Plane.cell, Vector.getElem?_eq_getElem bound]
  simp only [inside, Option.getD_some, Option.some.injEq, exists_eq_left', true_and]

theorem repaint_lit (colour : Nat → Nat → UInt8) (place : Nat) :
    (plane.repaint colour).Lit place ↔ place < plane.area ∧
      colour (place / plane.width) (place % plane.width) ≠ plane.background := by
  rw [lit_iff]
  apply and_congr_right
  intro inside
  rw [plane.repaint_getElem? colour inside]
  simp only [Option.some.injEq, exists_eq_left']
  rfl

theorem clear_unlit (place : Nat) : ¬plane.clear.Lit place := by
  intro lit
  exact ((plane.repaint_lit _ place).mp lit).2 rfl

end

theorem new_unlit (place : Nat) : ¬Lit {} place := by
  rw [lit_iff]
  rintro ⟨-, cell, found, lit⟩
  exact lit (new_cell found)

theorem SameLit.repaint {one other : Plane} (same : SameLit one other)
    {colour colour' : Nat → Nat → UInt8}
    (paired : ∀ row < one.height, ∀ column < one.width,
      (colour' row column ≠ other.background ↔ colour row column ≠ one.background)) :
    SameLit (one.repaint colour) (other.repaint colour') where
  resolution := same.resolution
  lit place := by
    have area : other.area = one.area := by rw [area, same.resolution, area]
    have width : other.width = one.width := by rw [width, same.resolution, width]
    rw [repaint_lit, repaint_lit, area, width]
    apply and_congr_right
    intro inside
    have inside : place < one.width * one.height := inside
    exact paired _ (Nat.div_lt_of_lt_mul inside) _ (Nat.mod_lt _ one.width_pos)

/-- Cleared planes of one resolution are alike. -/
theorem clear_sameLit {one other : Plane} (resolution : other.resolution = one.resolution) :
    SameLit one.clear other.clear where
  resolution := resolution
  lit place := iff_of_false (other.clear_unlit place) (one.clear_unlit place)

namespace TwoColoured

variable {plane : Plane} (coloured : plane.TwoColoured)
include coloured

theorem background_ne_ink : plane.background ≠ plane.ink := by
  cases mode : plane.mode with
  | flip =>
    rw [coloured.flip_background mode]
    simp only [ink, mode]
    decide
  | overwrite =>
    simp only [ink, mode]
    exact coloured.distinct

theorem ink_iff {cell : UInt8} (allowed : plane.Allows cell) :
    cell = plane.ink ↔ cell ≠ plane.background := by
  rcases allowed with rfl | rfl
  · exact iff_of_false coloured.background_ne_ink (not_not_intro rfl)
  · exact iff_of_true rfl coloured.background_ne_ink.symm

/-- A pixel collides just where something is lit. -/
theorem plot_hit_iff (x y : Nat) : (plane.plot x y).2 = true ↔ plane.Lit (plane.place (x, y)) := by
  rw [plot_hit, lit_iff, Bool.and_eq_true, decide_eq_true_iff]
  apply and_congr_right
  intro inside
  have bound := plane.place_lt x y inside
  have found : plane.cells[plane.place (x, y)]? = some plane.cells[plane.place (x, y)] :=
    Vector.getElem?_eq_getElem bound
  have allowed := coloured.allowed _ _ inside found
  rw [found, Option.any_some, coloured.collides allowed, decide_eq_true_iff,
    coloured.ink_iff allowed]
  simp only [Option.some.injEq, exists_eq_left']

/-- A pixel changes whether its own place is lit, and no other. -/
theorem plot_lit (x y place : Nat) : (plane.plot x y).1.Lit place ↔
    if plane.place (x, y) = place ∧ place < plane.area then ¬plane.Lit place
    else plane.Lit place := by
  have same := plane.plot_screen x y
  rw [lit_iff, same.area, same.background, plot_cells, lit_iff]
  split
  -- The cell is swapped with the other of the two values, of which one is the background.
  next struck =>
    have bound := Nat.lt_of_lt_of_le struck.2 plane.resolution.area_le
    have found : plane.cells[place]? = some plane.cells[place] := Vector.getElem?_eq_getElem bound
    have allowed := coloured.allowed _ _ struck.2 found
    rw [found, Option.map_some, coloured.touched allowed]
    simp only [struck.2, true_and, Option.some.injEq, exists_eq_left', not_not]
    split
    next inked => exact iff_of_false (not_not_intro rfl) ((coloured.ink_iff allowed).mp inked)
    next plain =>
      exact iff_of_true coloured.background_ne_ink.symm
        (not_not.mp (mt (coloured.ink_iff allowed).mpr plain))
  · rfl

theorem plot (x y : Nat) : (plane.plot x y).1.TwoColoured where
  toProper := coloured.toProper.plot x y
  distinct := by
    have same := plane.plot_screen x y
    rw [same.background, same.foreground]
    exact coloured.distinct

end TwoColoured

section

variable {one other : Plane}

/-- Strokes that choose colours choose different ones. -/
theorem TwoColoured.apply {plane : Plane} (coloured : plane.TwoColoured) {stroke : Stroke}
    (chosen : ∀ background foreground, stroke = .setColours background foreground →
      background ≠ foreground) : (plane.apply stroke).1.TwoColoured where
  toProper := coloured.toProper.apply stroke
  distinct := by
    cases stroke with
    | plot x y => exact (coloured.plot x y).distinct
    | setColours background foreground => exact chosen background foreground rfl
    | _ => exact coloured.distinct

theorem SameLit.width (same : SameLit one other) : other.width = one.width := by
  rw [Plane.width, same.resolution, Plane.width]

theorem SameLit.height (same : SameLit one other) : other.height = one.height := by
  rw [Plane.height, same.resolution, Plane.height]

theorem SameLit.cell (same : SameLit one other) {row column : Nat} (within : row < one.height)
    (narrow : column < one.width) :
    other.cell row column ≠ other.background ↔ one.cell row column ≠ one.background := by
  rw [one.cell_lit within narrow, other.cell_lit (same.height ▸ within) (same.width ▸ narrow),
    same.width]
  exact same.lit _

theorem SameLit.plot (same : SameLit one other) (coloured : one.TwoColoured)
    (coloured' : other.TwoColoured) (x y : Nat) :
    (one.plot x y).2 = (other.plot x y).2 ∧ SameLit (one.plot x y).1 (other.plot x y).1 := by
  have place : other.place (x, y) = one.place (x, y) := by
    rw [Plane.place, same.width, Plane.place]
  have area : other.area = one.area := by rw [Plane.area, same.resolution, Plane.area]
  refine ⟨?_, ?_, ?_⟩
  · rw [Bool.eq_iff_iff, coloured.plot_hit_iff, coloured'.plot_hit_iff, place, same.lit]
  · rw [(one.plot_screen x y).resolution, (other.plot_screen x y).resolution, same.resolution]
  · intro spot
    rw [coloured.plot_lit, coloured'.plot_lit, place, area, same.lit]

theorem SameLit.scrollDown (same : SameLit one other) (rows : Nat) :
    SameLit (one.scrollDown rows) (other.scrollDown rows) := by
  apply same.repaint
  intro row within column narrow
  split
  · exact same.cell (by omega) narrow
  · exact iff_of_false (not_not_intro rfl) (not_not_intro rfl)

theorem SameLit.scrollRight (same : SameLit one other) :
    SameLit one.scrollRight other.scrollRight := by
  apply same.repaint
  intro row within column narrow
  split
  · exact same.cell within (by omega)
  · exact iff_of_false (not_not_intro rfl) (not_not_intro rfl)

theorem SameLit.scrollLeft (same : SameLit one other) :
    SameLit one.scrollLeft other.scrollLeft := by
  apply same.repaint
  intro row within column narrow
  rw [same.width]
  split
  next inside => exact same.cell within inside
  · exact iff_of_false (not_not_intro rfl) (not_not_intro rfl)

theorem SameLit.apply (same : SameLit one other) (coloured : one.TwoColoured)
    (coloured' : other.TwoColoured) {stroke stroke' : Stroke}
    (recoloured : stroke.Recoloured stroke') :
    (one.apply stroke).2 = (other.apply stroke').2 ∧
      SameLit (one.apply stroke).1 (other.apply stroke').1 := by
  cases recoloured with
  | plot x y =>
    obtain ⟨hit, drawn⟩ := same.plot coloured coloured' x y
    exact ⟨congrArg some hit, drawn⟩
  | clear => exact ⟨rfl, clear_sameLit same.resolution⟩
  | resize width => exact ⟨rfl, clear_sameLit rfl⟩
  | setColours => exact ⟨rfl, clear_sameLit same.resolution⟩
  | scrollDown rows => exact ⟨rfl, same.scrollDown rows⟩
  | scrollRight => exact ⟨rfl, same.scrollRight⟩
  | scrollLeft => exact ⟨rfl, same.scrollLeft⟩

theorem SameLit.paint (same : SameLit one other) (coloured : one.TwoColoured)
    (coloured' : other.TwoColoured) {strokes strokes' : List Stroke}
    (recoloured : List.Forall₂ Stroke.Recoloured strokes strokes') :
    (one.paint strokes).2 = (other.paint strokes').2 ∧
      SameLit (one.paint strokes).1 (other.paint strokes').1 := by
  induction recoloured generalizing one other with
  | nil => exact ⟨rfl, same⟩
  | cons head _ ih =>
    obtain ⟨answer, next⟩ := same.apply coloured coloured' head
    obtain ⟨answers, last⟩ := ih next (coloured.apply head.chosen) (coloured'.apply head.chosen')
    exact ⟨congrArg₂ List.cons answer answers, last⟩

end

/-- Strokes that differ in colours alone get the same answers from both planes, and leave the same
lit. -/
def Indistinct (one other : Plane) : Prop :=
  ∀ strokes strokes' : List Stroke, List.Forall₂ Stroke.Recoloured strokes strokes' →
    (one.paint strokes).2 = (other.paint strokes').2 ∧
      ∀ place, (other.paint strokes').1.Lit place ↔ (one.paint strokes).1.Lit place

theorem SameLit.indistinct {one other : Plane} (same : SameLit one other)
    (coloured : one.TwoColoured) (coloured' : other.TwoColoured) : Indistinct one other := by
  intro strokes strokes' recoloured
  obtain ⟨answers, left⟩ := same.paint coloured coloured' recoloured
  exact ⟨answers, left.lit⟩

theorem resolution_of_width {one other : Plane} (width : other.width = one.width) :
    other.resolution = one.resolution := by
  revert width
  unfold Plane.width
  cases other.resolution <;> cases one.resolution <;> decide

/-- The lit cells decide what collides, whatever the colours and whichever drawing rule is in
force. So no strokes tell the plain narrow screen from one with any two colours. -/
theorem collisions_colour_blind :
    (∀ one other : Plane, one.Reachable → other.Reachable →
      one.background ≠ one.foreground → other.background ≠ other.foreground →
      other.width = one.width → (∀ place, other.Lit place ↔ one.Lit place) →
      Indistinct one other) ∧
    ∀ background foreground : UInt8, background ≠ foreground →
      Indistinct {} (setColours {} background foreground) := by
  constructor
  · intro one other reachable reachable' distinct distinct' width lit
    have same : SameLit one other := ⟨resolution_of_width width, lit⟩
    exact same.indistinct ⟨reachable.proper, distinct⟩ ⟨reachable'.proper, distinct'⟩
  · intro background foreground distinct
    have same : SameLit {} (setColours {} background foreground) :=
      ⟨rfl, fun place => iff_of_false (clear_unlit _ place) (new_unlit place)⟩
    exact same.indistinct ⟨new_proper, by decide⟩ ⟨clear_proper nofun, distinct⟩

/-- One pixel on a plain narrow screen and one on a screen of two greys. -/
theorem collisions_colour_blind_greys :
    let one := (paint {} [.plot 3 4]).1
    let other := (paint {} [.setColours 0x40 0xC0, .plot 3 4]).1
    one.mode = .flip ∧ other.mode = .overwrite ∧ Indistinct one other := by
  intro one other
  obtain ⟨general, plain⟩ := collisions_colour_blind
  obtain ⟨-, lit⟩ := plain 0x40 0xC0 (by decide) [.plot 3 4] [.plot 3 4] (.cons (.plot 3 4) .nil)
  have screen := plot_screen {} 3 4
  have screen' := plot_screen (setColours {} 0x40 0xC0) 3 4
  refine ⟨screen.mode, screen'.mode, ?_⟩
  apply general one other ⟨_, rfl⟩ ⟨_, rfl⟩
  · rw [show one = (plot {} 3 4).1 from rfl, screen.background, screen.foreground]
    decide
  · rw [show other = (plot (setColours {} 0x40 0xC0) 3 4).1 from rfl, screen'.background,
      screen'.foreground]
    decide
  · exact congrArg Resolution.width (screen'.resolution.trans screen.resolution.symm)
  · exact lit

end Plane

end Chip8
