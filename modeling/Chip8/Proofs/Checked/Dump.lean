import Chip8.Proofs.Checked.Agreement
import Chip8.Proofs.SnapshotReading
import Mathlib.Data.List.FinRange

/-!
# Checked dumps

A dump samples the visible cells of the screen at offsets that it works out, and
numbers the lines of its hex dumps by their offsets. All of them stay in range.
-/
namespace Chip8.Checked

/-- The spots of the picture, row by row, each read off the visible cells. -/
def picture (display : Display) : Option (List (List Bool)) := do
  let stride ← div display.width 64
  (List.range 32).mapM fun y => (List.range 64).mapM fun x => do
    let pixels ← display.pixels
    let above ← mul wordLimit y stride
    let above ← mul wordLimit above display.width
    let left ← mul wordLimit x stride
    let place ← add wordLimit above left
    let cell ← pixels[place]?
    return cell ≠ display.background

/-- A hex dump with checked offsets. -/
def hexdump (bytes : List UInt8) : Option (List Char) := do
  let lines ← (Hexdump.rows bytes).zipIdx.mapM fun row => do
    let offset ← mul wordLimit row.2 16
    return Hexdump.line offset row.1 ++ ['\n']
  return lines.flatten

def pointers (counter pointer index : Nat) : List Char :=
  "PC: ".toList ++ Hex.marked 1 counter
    ++ ", SP: ".toList ++ Hex.marked 1 pointer
    ++ ", I: ".toList ++ Hex.marked 1 index ++ ['\n', '\n']

def Machine.dump (machine : Machine) (now : Instant) (name : String) : Option (List Char) := do
  let stack ← hexdump (machine.stack.slots.toList.flatMap Snapshot.wordBytes)
  let memory ← hexdump machine.memory.cells.toList
  let rows ← picture machine.display
  let screen := rows.flatMap fun row => '\n' :: row.map fun lit => if lit then '#' else '.'
  return Nat.toDigits 10 (now.toNat / 1000000000) ++ '\n' :: (name.toList ++ ['\n', '\n'])
    ++ pointers machine.counter.toNat machine.stack.pointer.toNat machine.registers.index.toNat
    ++ (machine.registers.v.toList.mapIdx Snapshot.registerLine).flatten
    ++ '\n' :: stack ++ '\n' :: memory ++ (screen ++ ['\n'])

/-- Rows and columns by number are those of a vector of vectors. -/
theorem toList_rows {height width : Nat} (spot : Nat → Nat → Bool) :
    (Vector.ofFn fun y : Fin height =>
      Vector.ofFn fun x : Fin width => spot y.val x.val).toList.map Vector.toList =
      (List.range height).map fun y => (List.range width).map (spot y) := by
  simp only [Vector.toList_ofFn, List.ofFn_eq_map, ← List.map_coe_finRange_eq_range, List.map_map]
  apply List.map_congr_left
  intro y _
  simp only [Function.comp_def, Vector.toList_ofFn, List.ofFn_eq_map]

theorem picture_of (plane : Plane) :
    picture (.of plane) = some (plane.picture.toList.map Vector.toList) := by
  let stride := plane.width / 64
  let spot (y x : Nat) : Bool := plane.cell (y * stride) (x * stride) ≠ plane.background
  have rows : plane.picture.toList.map Vector.toList =
      (List.range 32).map fun y => (List.range 64).map (spot y) := toList_rows spot
  have strides : div plane.width 64 = some stride := div_eq (by decide)
  have display : (Display.of plane).width = plane.width := rfl
  rw [picture, display, strides, rows]
  apply mapM_eq
  intro y low
  apply mapM_eq
  intro x narrow
  have below : y < 32 := List.mem_range.mp low
  have inside : x < 64 := List.mem_range.mp narrow
  obtain ⟨cell, seen, lit⟩ := plane.picture_getElem below inside
  have sampled : (plane.picture[y])[x] = spot y x := by
    simp only [Plane.picture, Vector.getElem_ofFn]
    rfl
  have spotted : decide (cell ≠ plane.background) = spot y x := by
    rw [← sampled, Bool.eq_iff_iff, lit, decide_eq_true_iff]
  -- The sampled cell was found among the visible ones, so its place is below their number.
  have bound : y * stride * plane.width + x * stride < 8192 := by
    have visible := (Array.getElem?_eq_some_iff.mp seen).1
    have size : plane.visible.size ≤ 8192 := by
      rw [Plane.visible, Array.size_extract, Vector.size_toArray]
      omega
    exact Nat.lt_of_lt_of_le visible size
  have step : y * stride ≤ y * stride * plane.width := Nat.le_mul_of_pos_right _ plane.width_pos
  have background : (Display.of plane).background = plane.background := rfl
  simp only [Display.pixels_of, background, mul_word (by omega : y * stride < 65536),
    mul_word (by omega : y * stride * plane.width < 65536),
    mul_word (by omega : x * stride < 65536),
    add_word (by omega : y * stride * plane.width + x * stride < 65536),
    Option.bind_eq_bind, Option.bind_some]
  exact (congrArg (fun found => found.bind fun cell => some (decide (cell ≠ plane.background)))
    seen).trans (congrArg some spotted)

theorem hexdump_of {bytes : List UInt8} (short : bytes.length < 65000) :
    hexdump bytes = some (Hexdump.text bytes) := by
  have lines : (Hexdump.rows bytes).zipIdx.mapM (fun row => do
      let offset ← mul wordLimit row.2 16
      return Hexdump.line offset row.1 ++ ['\n']) = some ((Hexdump.rows bytes).zipIdx.map fun row =>
        Hexdump.line (16 * row.2) row.1 ++ ['\n']) := by
    apply mapM_eq
    intro row member
    have count := Hexdump.rows_length bytes
    have early := List.snd_lt_of_mem_zipIdx member
    -- A line for each sixteen bytes: the last offset is below the number of bytes.
    rw [mul_word (by omega), Nat.mul_comm]
    rfl
  have text : Hexdump.text bytes = ((Hexdump.rows bytes).zipIdx.map fun row =>
      Hexdump.line (16 * row.2) row.1 ++ ['\n']).flatten := by
    rw [Hexdump.text, Hexdump.lines, List.mapIdx_eq_zipIdx_map, List.flatMap_def, List.map_map]
    rfl
  rw [hexdump, lines, text]
  rfl

theorem dump_of (machine : Chip8.Machine) (now : Instant) (name : String) :
    (Machine.of machine).dump now name = some (machine.snapshot now name).text := by
  have stack : hexdump (machine.stack.slots.toList.flatMap Snapshot.wordBytes) =
      some (Hexdump.text (machine.stack.slots.toList.flatMap Snapshot.wordBytes)) := by
    apply hexdump_of
    have length : (machine.stack.slots.toList.flatMap Snapshot.wordBytes).length = 32 :=
      Snapshot.wordBytes_length (machine.snapshot now name)
    rw [length]
    decide
  have memory : hexdump machine.memory.cells.toList =
      some (Hexdump.text machine.memory.cells.toList) := by
    apply hexdump_of
    rw [Vector.length_toList]
    decide
  have picture : picture (Machine.of machine).display =
      some (machine.plane.picture.toList.map Vector.toList) := picture_of machine.plane
  have pointer : (Machine.of machine).stack.pointer.toNat = machine.stack.pointer.val :=
    byte_of_nibble machine.stack.pointer
  have slots : (Machine.of machine).stack.slots = machine.stack.slots := rfl
  have cells : (Machine.of machine).memory = machine.memory := rfl
  rw [Machine.dump, slots, cells, stack, memory, picture, pointer]
  simp only [Option.bind_eq_bind, Option.bind_some, List.flatMap_map]
  rfl

end Chip8.Checked
