import Chip8.Proofs.Checked.Agreement
import Mathlib.Data.List.TakeWhile

/-!
# Checked loops

Sprites, transfers of registers and the search for a key go through their
bytes, registers and keys one after the other. Every round of such a loop
succeeds, and the rounds together do what the machine does at once.
-/
namespace Chip8.Checked

/-- A number of a register as a nibble. -/
theorem nibble_val {number : Nat} (few : number < 16) : (Nibble.ofNat number).val = number :=
  Nat.mod_eq_of_lt few

/-- A byte written behind others. -/
theorem writeFrom_append (memory : Memory) (index : UInt16) (bytes : List UInt8) (last : UInt8) :
    memory.writeFrom index (bytes ++ [last]) =
      (memory.writeFrom index bytes).write (index + UInt16.ofNat bytes.length) last := by
  induction bytes generalizing memory index with
  | nil =>
    have here : index + UInt16.ofNat 0 = index := UInt16.add_zero index
    rw [List.length_nil, here]
    rfl
  | cons byte rest ih =>
    have further : index + 1 + UInt16.ofNat rest.length =
        index + UInt16.ofNat (rest.length + 1) := by
      rw [UInt16.ofNat_add, UInt16.add_assoc, UInt16.add_comm (UInt16.ofNat rest.length)]
      rfl
    rw [List.cons_append, Memory.writeFrom, ih, List.length_cons, further]
    rfl

/-- Registers written one after the other are their bytes written at once. -/
theorem foldl_save (memory : Memory) (registers : Registers) (index : UInt16) {count : Nat}
    (few : count ≤ 16) :
    (List.range count).foldl (fun memory number =>
        memory.write (index + UInt16.ofNat number) (registers.get (Nibble.ofNat number))) memory =
      memory.writeFrom index (registers.v.toList.take count) := by
  -- On the count, as the last register is written behind all that come before it.
  induction count with
  | zero => rfl
  | succ count ih =>
    have inside : count < registers.v.toList.length := by
      rw [Vector.length_toList]
      exact few
    have length : (registers.v.toList.take count).length = count := by
      rw [List.length_take]
      omega
    have value : registers.v.toList[count] = registers.get (Nibble.ofNat count) := by
      rw [Vector.getElem_toList, Registers.get, get_eq_getElem]
      simp only [nibble_val few]
    rw [List.range_succ, List.foldl_append, ih (Nat.le_of_succ_le few),
      ← List.take_append_getElem inside, writeFrom_append, length, value]
    rfl

/-- Registers 0 up to `count` as memory has them from an address on. -/
def loaded (memory : Memory) (registers : Registers) (index : UInt16) (count : Nat) : Registers :=
  { registers with
    v := Vector.ofFn fun place : Nibble =>
      if place.val < count then memory.read (index + UInt16.ofNat place.val)
      else registers.get place }

section

variable (memory : Memory) (registers : Registers) (index : UInt16)

theorem loaded_zero : loaded memory registers index 0 = registers := by
  have v : (loaded memory registers index 0).v = registers.v := by
    apply Vector.ext
    intro place inside
    simp only [loaded, Vector.getElem_ofFn, Nat.not_lt_zero, if_false, Registers.get,
      get_eq_getElem]
  exact congrArg (fun v => { registers with v }) v

theorem loaded_succ {count : Nat} (few : count < 16) :
    (loaded memory registers index count).set (Nibble.ofNat count)
      (memory.read (index + UInt16.ofNat count)) = loaded memory registers index (count + 1) := by
  have v : ((loaded memory registers index count).set (Nibble.ofNat count)
      (memory.read (index + UInt16.ofNat count))).v =
        (loaded memory registers index (count + 1)).v := by
    apply Vector.ext
    intro place inside
    simp only [Registers.set, Bank.put, loaded, Vector.getElem_set, Vector.getElem_ofFn,
      nibble_val few]
    by_cases here : count = place
    · rw [if_pos here, if_pos (by omega), here]
    · rw [if_neg here]
      exact if_congr (by omega) rfl rfl
  exact congrArg (fun v => { registers with v }) v

/-- Registers read one after the other are all that memory has for them. -/
theorem foldl_load {count : Nat} (few : count ≤ 16) :
    (List.range count).foldl (fun registers number =>
        registers.set (Nibble.ofNat number) (memory.read (index + UInt16.ofNat number)))
        registers =
      loaded memory registers index count := by
  induction count with
  | zero => exact (loaded_zero memory registers index).symm
  | succ count ih =>
    rw [List.range_succ, List.foldl_append, ih (Nat.le_of_succ_le few),
      ← loaded_succ _ _ _ few]
    rfl

end

namespace Machine

variable (machine : Chip8.Machine)

theorem saveRegisters_of (x : Nibble) : (of machine).saveRegisters x.val =
    some (.of { machine := machine.store (machine.registers.v.toList.take (x.val + 1)) }) := by
  let index := machine.registers.index
  have looped : ((List.range (x.val + 1)).foldlM (fun memory number =>
      (getRegister machine.registers number).bind fun value =>
        writeByte memory (index + UInt16.ofNat number) value) machine.memory) =
      some ((List.range (x.val + 1)).foldl (fun memory number =>
        memory.write (index + UInt16.ofNat number)
          (machine.registers.get (Nibble.ofNat number))) machine.memory) := by
    apply foldlM_eq id
    intro number member memory
    have few : number < 16 := Nat.lt_of_lt_of_le (List.mem_range.mp member) x.isLt
    have value := getRegister_of machine.registers (Nibble.ofNat number)
    rw [nibble_val few] at value
    rw [value, Option.bind_some, writeByte_of]
    rfl
  rw [foldl_save _ _ _ x.isLt] at looped
  exact congrArg (fun memory => memory.bind fun memory =>
    some (Turn.of { machine := { machine with memory } })) looped

theorem loadRegisters_of (x : Nibble) : (of machine).loadRegisters x.val =
    some (.of { machine := machine.loadRegisters x }) := by
  let index := machine.registers.index
  have looped : ((List.range (x.val + 1)).foldlM (fun registers number =>
      (readByte machine.memory (index + UInt16.ofNat number)).bind fun value =>
        setRegister registers number value) machine.registers) =
      some ((List.range (x.val + 1)).foldl (fun registers number =>
        registers.set (Nibble.ofNat number)
          (machine.memory.read (index + UInt16.ofNat number))) machine.registers) := by
    apply foldlM_eq id
    intro number member registers
    have few : number < 16 := Nat.lt_of_lt_of_le (List.mem_range.mp member) x.isLt
    have set := setRegister_of registers (Nibble.ofNat number)
    rw [nibble_val few] at set
    rw [readByte_of, Option.bind_some]
    exact set _
  have result : loaded machine.memory machine.registers index (x.val + 1) =
      (machine.loadRegisters x).registers := by
    simp only [loaded, Chip8.Machine.loadRegisters, Nat.lt_succ_iff, Fin.le_def, index]
  have left : machine.loadRegisters x =
      { machine with registers := (machine.loadRegisters x).registers } := by
    rw [Chip8.Machine.loadRegisters_eq]
  rw [foldl_load _ _ _ x.isLt, result] at looped
  rw [left]
  exact congrArg (fun registers => registers.bind fun registers =>
    some (Turn.of { machine := { machine with registers } })) looped

/-- Keys are asked for up to the first that is held. -/
theorem findKey_of (held : Nibble → Bool) (keys : List Nibble) :
    findKey held (keys.map fun key => UInt8.ofNat key.val) =
      ((keys.takeWhile (!held ·) ++ (keys.find? held).toList).map fun key =>
          .askKey (UInt8.ofNat key.val),
        (keys.find? held).map fun key => UInt8.ofNat key.val) := by
  induction keys with
  | nil => rfl
  | cons key rest ih =>
    rw [List.map_cons, findKey, nibble_of_byte, ih, List.find?_cons, List.takeWhile_cons]
    cases held key <;> rfl

/-- Of all keys in order those up to the first that is held are as many as that key says. -/
theorem asked_keys {held : Nibble → Bool} {key : Nibble}
    (found : (List.finRange 16).find? held = some key) :
    (List.finRange 16).takeWhile (!held ·) ++ [key] = (List.finRange 16).take (key.val + 1) := by
  obtain ⟨holds, place, inside, here, before⟩ := List.find?_eq_some_iff_getElem.mp found
  -- In the list of all keys each stands at the place of its own number.
  have number : key.val = place := by
    rw [← here, List.getElem_finRange]
    rfl
  have first : (List.finRange 16).findIdx held = place := by
    refine (List.findIdx_eq inside).mpr ⟨?_, fun earlier less => ?_⟩
    · rw [here, holds]
    · exact Bool.eq_false_iff.mpr fun holds => by
        have := before earlier less
        rw [holds] at this
        cases this
  rw [List.takeWhile_eq_take_findIdx_not]
  simp only [Bool.not_not, first, number]
  rw [← here]
  exact List.take_append_getElem inside

theorem awaitKey_of (held : Nibble → Bool) (x : Nibble) :
    (of machine).awaitKey held x.val = some (.of (machine.awaitKey held x)) := by
  have keys : (List.range 16).map UInt8.ofNat =
      (List.finRange 16).map fun key => UInt8.ofNat key.val := by decide
  have askedFor (keys : List Nibble) : asked (keys.map fun key => Event.call (.askKey key)) =
      keys.map fun key => .askKey (UInt8.ofNat key.val) := by
    rw [asked, calls, List.filterMap_map, List.map_filterMap]
    exact congrFun List.filterMap_eq_map keys
  rw [awaitKey, keys, findKey_of]
  cases found : (List.finRange 16).find? held with
  | some key =>
    have set : setRegister (of machine).registers x.val (UInt8.ofNat key.val) =
      some (machine.registers.set x (UInt8.ofNat key.val)) := setRegister_of machine.registers x _
    have calls := askedFor ((List.finRange 16).take (key.val + 1))
    simp only [Option.toList_some, asked_keys found, Option.map_some, set,
      Option.bind_eq_bind, Option.bind_some, ← calls]
    simp only [Chip8.Machine.awaitKey, found]
    rfl
  | none =>
    have all : (List.finRange 16).takeWhile (!held ·) = List.finRange 16 := by
      refine List.takeWhile_eq_self_iff.mpr fun key member => ?_
      exact Bool.not_eq_true' _ ▸ Bool.eq_false_iff.mpr (List.find?_eq_none.mp found key member)
    have calls := askedFor (List.finRange 16)
    simp only [Option.toList_none, List.append_nil, all, Option.map_none, ← calls]
    simp only [Chip8.Machine.awaitKey, found]
    rfl

/-- A lit spot drawn after others. -/
def plotted (drawn : Plane × Bool) (x y : Nat) : Plane × Bool :=
  ((drawn.1.plot x y).1, drawn.2 || (drawn.1.plot x y).2)

/-- What is drawn, with the numbers of the plane made plain. -/
def drawnOf (drawn : Plane × Bool) : Display × Bool := (.of drawn.1, drawn.2)

theorem plot_drawnOf (drawn : Plane × Bool) {x y : Nat} (narrow : x < 512) (low : y < 384) :
    ((drawnOf drawn).1.plot x y).bind (fun plot => some (plot.1, drawn.2 || plot.2)) =
      some (drawnOf (plotted drawn x y)) := by
  have fits : x + y * drawn.1.width < wordLimit := by
    show _ < 65536
    rcases Display.size_cases drawn.1 with ⟨width, -⟩ | ⟨width, -⟩
    all_goals
      rw [width]
      omega
  rw [drawnOf, Display.plot_of drawn.1 fits]
  rfl

theorem drawByte_of (byte : UInt8) {left row : Nat} (narrow : left < 500) (low : row < 384)
    (drawn : Plane × Bool) : drawByte byte left row (drawnOf drawn) =
      some (drawnOf ((List.range 8).foldl (fun drawn column =>
        if byte.toNat.testBit (7 - column) then plotted drawn (left + column) row else drawn)
          drawn)) := by
  apply foldlM_eq drawnOf
  intro column member drawn
  have few : column < 8 := List.mem_range.mp member
  have bit : byte.toNat >>> (7 - column) &&& 1 = 1 ↔ byte.toNat.testBit (7 - column) = true := by
    rw [Nat.testBit, Nat.and_comm, bne_iff_ne, Nat.one_and_eq_mod_two]
    omega
  have right : add wordLimit left column = some (left + column) := add_word (by omega)
  simp only [sub_eq (by omega : column ≤ 7), shiftRight_eq (by omega : 7 - column < 8), bit, right,
    Option.bind_eq_bind, Option.bind_some]
  split
  · exact plot_drawnOf drawn (by omega) low
  · rfl

/-- Eights of columns one after the other. -/
theorem foldl_eights {State : Type} (round : State → Nat → State) (state : State) (count : Nat) :
    (List.range (8 * count)).foldl round state =
      (List.range count).foldl (fun state number =>
        (List.range 8).foldl (fun state column => round state (8 * number + column)) state)
        state := by
  induction count with
  | zero => rfl
  | succ count ih =>
    have split : 8 * (count + 1) = 8 * count + 8 := Nat.mul_succ 8 count
    rw [split, List.range_add, List.foldl_append, ih, List.foldl_map,
      List.range_succ (n := count), List.foldl_append]
    rfl

/-- A sprite is stamped byte after byte. -/
theorem stamp_bytes (plane : Plane) (sprite : Sprite) (x y : Nat) :
    plane.stamp sprite x y = (List.range sprite.rows).foldl (fun drawn row =>
      (List.range sprite.stride).foldl (fun drawn number =>
        (List.range 8).foldl (fun drawn column =>
          if (sprite.byte (row * sprite.stride + number)).toNat.testBit (7 - column) then
            plotted drawn (x + number * 8 + column) (y + row)
          else drawn) drawn) drawn) (plane, false) := by
  have spots : plane.stamp sprite x y = sprite.spots.foldl (fun drawn spot =>
      plotted drawn (x + spot.2) (y + spot.1)) (plane, false) := rfl
  rw [spots, Sprite.spots, List.foldl_flatMap]
  apply List.foldl_ext
  intro drawn row _
  -- The columns of a row come in eights, a byte for each eight.
  rw [List.foldl_map, List.foldl_filter, Sprite.columns, foldl_eights]
  apply List.foldl_ext
  intro drawn number _
  apply List.foldl_ext
  intro drawn column member
  have few : column < 8 := List.mem_range.mp member
  have quotient : (8 * number + column) / 8 = number := by omega
  have remainder : (8 * number + column) % 8 = column := by omega
  have place : x + (8 * number + column) = x + number * 8 + column := by omega
  rw [Sprite.lit, quotient, remainder, place]

/-- Every byte of a sprite of the sizes that there are is drawn in its place. -/
theorem stamp_of (memory : Memory) (index : UInt16) (plane : Plane) {sprite : Sprite}
    (low : sprite.rows ≤ 16) (narrow : sprite.stride ≤ 2)
    (bytes : ∀ place, sprite.byte place = memory.read (index + UInt16.ofNat place))
    (left top : UInt8) :
    (List.range sprite.rows).foldlM (fun drawn row =>
      (List.range sprite.stride).foldlM (fun drawn number => do
        let above ← mul wordLimit row sprite.stride
        let offset ← add wordLimit above number
        let byte ← readByte memory (index + UInt16.ofNat offset)
        let across ← mul wordLimit number 8
        let left ← add wordLimit left.toNat across
        let row ← add wordLimit top.toNat row
        drawByte byte left row drawn) drawn) (drawnOf (plane, false)) =
      some (drawnOf (plane.stamp sprite left.toNat top.toNat)) := by
  have leftmost := left.toNat_lt
  have topmost := top.toNat_lt
  rw [stamp_bytes]
  apply foldlM_eq drawnOf
  intro row member drawn
  have row_lt : row < sprite.rows := List.mem_range.mp member
  apply foldlM_eq drawnOf
  intro number member drawn
  have number_lt : number < sprite.stride := List.mem_range.mp member
  -- Sixteen rows of two bytes are far from the limit, and so is any spot from a corner below 256.
  have product : row * sprite.stride ≤ 16 * 2 := Nat.mul_le_mul (by omega) narrow
  have above : mul wordLimit row sprite.stride = some (row * sprite.stride) := mul_word (by omega)
  have offset : add wordLimit (row * sprite.stride) number = some (row * sprite.stride + number) :=
    add_word (by omega)
  have across : mul wordLimit number 8 = some (number * 8) := mul_word (by omega)
  have column : add wordLimit left.toNat (number * 8) = some (left.toNat + number * 8) :=
    add_word (by omega)
  have line : add wordLimit top.toNat row = some (top.toNat + row) := add_word (by omega)
  simp only [above, offset, across, column, line, readByte_of, Option.bind_eq_bind,
    Option.bind_some, bytes]
  exact drawByte_of _ (by omega) (by omega) drawn

/-- The two kinds of sprites at once. -/
theorem sprite_eq (height : Nibble) :
    let sprite := machine.sprite height
    (sprite.rows = if height = 0 ∧ machine.plane.resolution = .high then 16 else height.val) ∧
    (sprite.stride = if height = 0 ∧ machine.plane.resolution = .high then 2 else 1) ∧
    ∀ place, sprite.byte place =
      machine.memory.read (machine.registers.index + UInt16.ofNat place) := by
  rw [Chip8.Machine.sprite]
  split <;> exact ⟨rfl, rfl, fun _ => rfl⟩

theorem drawSprite_of (x y height : Nibble) :
    (of machine).drawSprite x.val y.val height.val =
      some (.of { machine := machine.drawSprite x y height }) := by
  have wide : (height.val = 0 ∧ (of machine).display.width = 128) =
      (height = 0 ∧ machine.plane.resolution = .high) := by
    have high : (of machine).display.width = 128 ↔ machine.plane.resolution = .high := by
      show machine.plane.resolution.width = 128 ↔ _
      cases machine.plane.resolution <;> decide
    rw [eq_iff_iff, high, Fin.ext_iff]
    rfl
  obtain ⟨rows, stride, bytes⟩ := sprite_eq machine height
  have low : (machine.sprite height).rows ≤ 16 := by
    rw [rows]
    split <;> omega
  have narrow : (machine.sprite height).stride ≤ 2 := by
    rw [stride]
    split <;> omega
  have stamped := stamp_of machine.memory machine.registers.index machine.plane low narrow bytes
    (machine.registers.get x) (machine.registers.get y)
  -- The flag is written twice, once before and once after the drawing.
  have again (value : Bool) : (machine.registers.setFlag false).setFlag value =
      machine.registers.setFlag value := by
    simp only [Registers.setFlag, Registers.set, Bank.put, Vector.set_set]
  have registers : (of machine).registers = machine.registers := rfl
  have memory : (of machine).memory = machine.memory := rfl
  have start : ((of machine).display, false) = drawnOf (machine.plane, false) := rfl
  simp only [Option.bind_eq_bind] at stamped
  simp only [drawSprite, wide, ← rows, ← stride, registers, memory, getRegister_of, setFlag_of,
    Option.bind_eq_bind, Option.bind_some]
  rw [start, stamped, Option.bind_some, again]
  rfl

end Machine

end Chip8.Checked
