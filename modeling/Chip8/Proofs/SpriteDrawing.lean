import Chip8.Proofs.Execution
import Chip8.Proofs.OpcodeTable
import Chip8.Proofs.Plotting
import Mathlib.Data.List.Nodup

/-!
# Sprite drawing

What an instruction that draws means, said of the machine before it: which
pixels of the sprite are lit in memory, which cells they toggle and what the
flag tells afterwards. The instruction plots the lit pixels one by one. As a
sprite is never wider than a row, no two of them fall on one cell, so every
collision is one with the plane as it was.
-/
namespace Chip8

namespace Sprite

variable (sprite : Sprite)

theorem mem_spots (spot : Nat × Nat) : spot ∈ sprite.spots ↔
    spot.1 < sprite.rows ∧ spot.2 < sprite.columns ∧ sprite.lit spot.1 spot.2 = true := by
  simp only [spots, List.mem_flatMap, List.mem_range, List.mem_map, List.mem_filter]
  constructor
  · rintro ⟨row, within, column, ⟨inside, lit⟩, rfl⟩
    exact ⟨within, inside, lit⟩
  · rintro ⟨within, inside, lit⟩
    exact ⟨spot.1, within, spot.2, ⟨inside, lit⟩, rfl⟩

theorem spots_nodup : sprite.spots.Nodup := by
  rw [spots, List.nodup_flatMap]
  constructor
  · intro row _
    exact (List.nodup_range.filter _).map fun _ _ same => (Prod.ext_iff.mp same).2
  -- Spots of different rows differ in their first part.
  · refine List.nodup_range.imp fun apart spot first second => ?_
    obtain ⟨_, _, rfl⟩ := List.mem_map.mp first
    obtain ⟨_, _, same⟩ := List.mem_map.mp second
    exact apart (Prod.ext_iff.mp same).1.symm

end Sprite

/-- Spots of a grid no wider than a row lie on different places. -/
theorem spot_unique {width x y row column row' column' : Nat} (narrow : column < width)
    (narrow' : column' < width)
    (same : x + column + (y + row) * width = x + column' + (y + row') * width) :
    row = row' ∧ column = column' := by
  -- The columns are the remainders by the width, and the rows are what is left.
  have rest : column + (y + row) * width = column' + (y + row') * width := by omega
  have columns : column = column' := by
    have cut := congrArg (· % width) rest
    simpa [Nat.add_mul_mod_self_right, Nat.mod_eq_of_lt narrow, Nat.mod_eq_of_lt narrow'] using cut
  have rows : y + row = y + row' :=
    Nat.eq_of_mul_eq_mul_right (Nat.zero_lt_of_lt narrow) (by omega)
  exact ⟨by omega, columns⟩

namespace Plane

/-- Whether a cell counts as lit where sprites are drawn. -/
def Shows (plane : Plane) (cell : UInt8) : Prop :=
  match plane.mode with
  | .flip => cell.toNat % 2 = 1
  | .overwrite => cell = plane.foreground

/-- A plane after some of its cells were toggled once, and the flag that tells of a collision. -/
structure Stamped (before : Plane) (toggled : Nat → Prop) (after : Plane) (flag : UInt8) :
    Prop where
  flipped : before.mode = .flip → ∀ place : Fin 8192, toggled place →
    after.cells.get place = before.cells.get place ^^^ 1
  swapped : before.mode = .overwrite → ∀ place : Fin 8192, toggled place →
    after.cells.get place =
      if before.cells.get place = before.foreground then before.background else before.foreground
  kept : ∀ place : Fin 8192, ¬toggled place → after.cells.get place = before.cells.get place
  collided : (∃ place : Fin 8192, toggled place ∧ before.Shows (before.cells.get place)) → flag = 1
  missed : (¬∃ place : Fin 8192, toggled place ∧ before.Shows (before.cells.get place)) → flag = 0
  dirty : after.dirty = true ↔ before.dirty = true ∨ ∃ place, toggled place
  screen : SameScreen before after

theorem collides_iff (plane : Plane) (cell : UInt8) :
    plane.collides cell = true ↔ plane.Shows cell := by
  unfold collides Shows
  cases plane.mode with
  | flip =>
    rw [decide_eq_true_iff, ← UInt8.toNat_inj, UInt8.toNat_and]
    exact Nat.and_one_is_mod cell.toNat ▸ Iff.rfl
  | overwrite => exact decide_eq_true_iff

theorem area_eq (plane : Plane) : plane.area = plane.width * (plane.width / 2) := by
  unfold area width Resolution.area
  cases plane.resolution <;> rfl

end Plane

namespace Machine

variable (machine : Machine)

def spriteRows (height : Nibble) : Nat :=
  if height = 0 ∧ machine.plane.width = 128 then 16 else height.val

/-- Bytes a row. -/
def spriteBytes (height : Nibble) : Nat :=
  if height = 0 ∧ machine.plane.width = 128 then 2 else 1

/-- Whether the sprite at the index has a lit pixel at a row and a column. -/
def Lit (height : Nibble) (row column : Nat) : Prop :=
  row < machine.spriteRows height ∧ column < 8 * machine.spriteBytes height ∧
    ∃ byte, machine.memory.cells[(machine.registers.index.toNat
        + row * machine.spriteBytes height + column / 8) % 4096]? = some byte ∧
      byte.toNat.testBit (7 - column % 8) = true

/-- Where a pixel of the sprite at (Vx, Vy) falls in the row order. -/
def offset (x y : Nibble) (row column : Nat) : Nat :=
  (machine.registers.get x).toNat + column
    + ((machine.registers.get y).toNat + row) * machine.plane.width

/-- A lit pixel falls on the place, and the place is visible. -/
def Toggles (x y height : Nibble) (place : Nat) : Prop :=
  place < machine.plane.width * (machine.plane.width / 2) ∧
    ∃ row column, machine.Lit height row column ∧ machine.offset x y row column = place

theorem read_wraps (memory : Memory) (index : UInt16) (place : Nat) :
    memory.cells[(index.toNat + place) % 4096]? =
      some (memory.read (index + UInt16.ofNat place)) := by
  -- Sixteen bits wrap at a multiple of the size of memory.
  have wraps : (index.toNat + place) % 4096 = (index + UInt16.ofNat place).toNat % 4096 := by
    rw [UInt16.toNat_add, UInt16.toNat_ofNat']
    omega
  rw [wraps, Vector.getElem?_eq_getElem (Nat.mod_lt _ (by decide))]
  rfl

theorem wide_iff : machine.plane.width = 128 ↔ machine.plane.resolution = .high := by
  unfold Plane.width
  cases machine.plane.resolution <;> decide

/-- The sprite that is drawn has just the lit pixels. -/
theorem lit_iff (height : Nibble) (row column : Nat) :
    machine.Lit height row column ↔ (row, column) ∈ (machine.sprite height).spots := by
  have rows : (machine.sprite height).rows = machine.spriteRows height := by
    simp only [sprite, spriteRows, wide_iff]
    split <;> rfl
  have stride : (machine.sprite height).stride = machine.spriteBytes height := by
    simp only [sprite, spriteBytes, wide_iff]
    split <;> rfl
  have byte (place : Nat) : (machine.sprite height).byte place =
      machine.memory.read (machine.registers.index + UInt16.ofNat place) := by
    simp only [sprite]
    split <;> rfl
  rw [Sprite.mem_spots, Sprite.columns, Sprite.lit, rows, stride, byte]
  simp only [Lit, Nat.add_assoc, read_wraps, Option.some.injEq, exists_eq_left']

/-- The points at which the sprite is plotted, one for each lit pixel. -/
def points (x y height : Nibble) : List (Nat × Nat) :=
  (machine.sprite height).spots.map fun spot =>
    ((machine.registers.get x).toNat + spot.2, (machine.registers.get y).toNat + spot.1)

theorem offset_unique (x y height : Nibble) {row column row' column' : Nat}
    (lit : machine.Lit height row column) (lit' : machine.Lit height row' column')
    (same : machine.offset x y row column = machine.offset x y row' column') :
    row = row' ∧ column = column' := by
  have narrow : 8 * machine.spriteBytes height ≤ machine.plane.width := by
    unfold spriteBytes Plane.width
    cases machine.plane.resolution <;> split <;> decide
  exact spot_unique (Nat.lt_of_lt_of_le lit.2.1 narrow) (Nat.lt_of_lt_of_le lit'.2.1 narrow) same

theorem points_apart (x y height : Nibble) :
    ((machine.points x y height).map machine.plane.place).Nodup := by
  rw [points, List.map_map]
  apply List.Nodup.map_on _ (machine.sprite height).spots_nodup
  intro spot member spot' member' same
  have unique := machine.offset_unique x y height ((machine.lit_iff height _ _).mpr member)
    ((machine.lit_iff height _ _).mpr member') same
  exact Prod.ext unique.1 unique.2

theorem toggles_iff (x y height : Nibble) (place : Nat) : machine.Toggles x y height place ↔
    machine.plane.Named (machine.points x y height) place := by
  rw [Toggles, Plane.Named, machine.plane.area_eq]
  apply and_congr_right
  intro _
  constructor
  · rintro ⟨row, column, lit, there⟩
    exact ⟨_, List.mem_map.mpr ⟨_, (machine.lit_iff height row column).mp lit, rfl⟩, there⟩
  · rintro ⟨_, member, there⟩
    obtain ⟨spot, drawn, rfl⟩ := List.mem_map.mp member
    exact ⟨spot.1, spot.2, (machine.lit_iff height _ _).mpr drawn, there⟩

theorem plots_stamped (x y height : Nibble) :
    let drawn := machine.plane.plots (machine.points x y height)
    machine.plane.Stamped (machine.Toggles x y height) drawn.1 (if drawn.2 then 1 else 0) := by
  intro drawn
  have apart := machine.points_apart x y height
  have hits : drawn.2 = true ↔ ∃ place : Fin 8192, machine.Toggles x y height place ∧
      machine.plane.Shows (machine.plane.cells.get place) := by
    simp only [toggles_iff, ← Plane.collides_iff]
    exact machine.plane.plots_hit_iff _ apart
  refine ⟨?flipped, ?swapped, ?kept, ?collided, ?missed, ?dirty, machine.plane.plots_screen _⟩
  case flipped =>
    intro mode place toggled
    rw [machine.plane.plots_named _ apart place ((machine.toggles_iff x y height _).mp toggled),
      Plane.touched, mode]
  case swapped =>
    intro mode place toggled
    rw [machine.plane.plots_named _ apart place ((machine.toggles_iff x y height _).mp toggled),
      Plane.touched, mode]
  case kept =>
    intro place untouched
    exact machine.plane.plots_unnamed _ place (mt (machine.toggles_iff x y height _).mpr untouched)
  case collided =>
    intro struck
    rw [if_pos (hits.mpr struck)]
  case missed =>
    intro clear
    rw [if_neg (mt hits.mp clear)]
  case dirty =>
    rw [machine.plane.plots_dirty_iff]
    simp only [toggles_iff]

theorem drawSprite_plane (x y height : Nibble) :
    (machine.drawSprite x y height).plane = (machine.plane.plots (machine.points x y height)).1 :=
  congrArg Prod.fst (Plane.stamp_eq_plots _ _ _ _)

theorem drawSprite_flag (x y height : Nibble) :
    (machine.drawSprite x y height).registers.get 0xF =
      if (machine.plane.plots (machine.points x y height)).2 then 1 else 0 := by
  rw [drawSprite_eq, Plane.stamp_eq_plots, Registers.setFlag, Registers.get_set, if_pos rfl]
  rfl

theorem decode_draw (dialect : Dialect) (opcode : UInt16) (x y height : Nibble)
    (digits : opcode.toNat = 0xD000 + 0x100 * x.val + 0x10 * y.val + height.val) :
    dialect.decode opcode = .ok (.draw x y height) :=
  Instruction.permitted_of_code dialect 0 rfl digits

/-- A sprite toggles each visible cell that a lit pixel falls on, once, and nothing else. The flag
tells whether any of them was lit before. -/
theorem draw_toggles (answers : Answers) (x y height : Nibble) :
    let turn := machine.obey answers (.draw x y height)
    (machine.fetch.toNat = 0xD000 + 0x100 * x.val + 0x10 * y.val + height.val →
      machine.step answers = .ok turn) ∧
    machine.plane.Stamped (machine.Toggles x y height) turn.machine.plane
      (turn.machine.registers.get 0xF) ∧
    ∀ row column row' column', machine.Lit height row column → machine.Lit height row' column' →
      machine.offset x y row column = machine.offset x y row' column' →
      row = row' ∧ column = column' := by
  refine ⟨?_, ?_, fun _ _ _ _ => machine.offset_unique x y height⟩
  · intro digits
    exact step_decoded answers (decode_draw machine.dialect machine.fetch x y height digits)
  · rw [obey_running answers machine (.draw x y height) nofun, tick_plane, tick_get]
    simp only [execute, drawSprite_plane, drawSprite_flag]
    exact machine.advanced.plots_stamped x y height

end Machine

end Chip8
