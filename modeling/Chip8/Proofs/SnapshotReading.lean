import Chip8.Proofs.HexReading
import Chip8.Proofs.Painting
import Chip8.Snapshot

/-!
# Reading snapshots

The text of a snapshot can be read back, although the name in it is not
escaped and may contain anything, line ends and lines that look like those of
a snapshot included. Below the name there are always the same number of lines,
and none of them has a line end in it, so they can be counted from the end of
the text. In each of them the numbers stand behind a mark or in a fixed column.
-/
namespace Chip8

attribute [ext] Snapshot

namespace Snapshot

/-- Lines with their ends. -/
def ended (lines : List (List Char)) : List Char := lines.flatMap fun line => line ++ ['\n']

theorem ended_nil : ended [] = [] := rfl

theorem ended_cons (line : List Char) (lines : List (List Char)) :
    ended (line :: lines) = line ++ '\n' :: ended lines := by
  simp only [ended, List.flatMap_cons, List.append_assoc, List.singleton_append]

theorem ended_append (first second : List (List Char)) :
    ended (first ++ second) = ended first ++ ended second := List.flatMap_append

/-- It does not matter whether line ends are written before the lines and once more at the end. -/
theorem ended_blank (lines : List (List Char)) :
    (lines.flatMap fun line => '\n' :: line) ++ ['\n'] = ended ([] :: lines) := by
  induction lines with
  | nil => rfl
  | cons line rest ih =>
    rw [ended_cons, List.nil_append] at ih
    rw [ended_cons, ended_cons, List.flatMap_cons, List.append_assoc, ih]
    rfl

theorem splitOn_append (separator : Char) (first rest : List Char) :
    (first ++ separator :: rest).splitOn separator =
      first.splitOn separator ++ rest.splitOn separator := by
  simp only [List.splitOn_eq_splitOnP]
  exact List.splitOnP_append_cons first rest (beq_self_eq_true separator)

theorem splitOn_whole {separator : Char} {line : List Char} (whole : separator ∉ line) :
    line.splitOn separator = [line] := by
  rw [List.splitOn_eq_splitOnP]
  exact List.splitOnP_eq_singleton fun c member =>
    beq_eq_false_iff_ne.mpr fun same => whole (same ▸ member)

theorem splitOn_ended {lines : List (List Char)} (whole : ∀ line ∈ lines, '\n' ∉ line) :
    (ended lines).splitOn '\n' = lines ++ [[]] := by
  induction lines with
  | nil => rfl
  | cons line rest ih =>
    obtain ⟨first, others⟩ := List.forall_mem_cons.mp whole
    rw [ended_cons, splitOn_append, splitOn_whole first, ih others, List.singleton_append,
      List.cons_append]

/-- What stands below a section and the empty line that closes it. -/
theorem drop_section {lines : List (List Char)} {count : Nat} (length : lines.length = count)
    (below : List (List Char)) : (lines ++ [] :: below).drop (count + 1) = below := by
  rw [List.append_cons]
  apply List.drop_left'
  rw [List.length_append, length, List.length_singleton]

/-- The two bytes of a word stand at twice its place. -/
theorem wordBytes_getElem? {words : List UInt16} {place : Nat} {word : UInt16}
    (found : words[place]? = some word) :
    (words.flatMap wordBytes)[2 * place]? = some (word >>> 8).toUInt8 ∧
      (words.flatMap wordBytes)[2 * place + 1]? = some word.toUInt8 := by
  induction words generalizing place with
  | nil => cases found
  | cons first rest ih =>
    cases place with
    | zero =>
      obtain rfl : first = word := Option.some.inj found
      exact ⟨rfl, rfl⟩
    | succ place => exact ih found

theorem joined_bytes (word : UInt16) :
    UInt16.ofNat (0x100 * (word >>> 8).toUInt8.toNat + word.toUInt8.toNat) = word := by
  have high : (word >>> 8).toUInt8.toNat = word.toNat / 0x100 := by
    have small : word.toNat / 0x100 < 0x100 := Nat.div_lt_of_lt_mul word.toNat_lt
    rw [UInt16.toNat_toUInt8, UInt16.toNat_shiftRight, Nat.shiftRight_eq_div_pow]
    exact Nat.mod_eq_of_lt small
  have low : word.toUInt8.toNat = word.toNat % 0x100 := word.toNat_toUInt8
  rw [high, low, Nat.div_add_mod, UInt16.ofNat_toNat]

section

variable (snapshot : Snapshot)

def pointerLine : List Char :=
  ("PC: ".toList ++ Hex.marked 1 snapshot.counter.toNat) ++ ',' ::
    ((" SP: ".toList ++ Hex.marked 1 snapshot.pointer.val) ++ ',' ::
      (" I: ".toList ++ Hex.marked 1 snapshot.index.toNat))

def registerLabel (number : Nat) : List Char := 'V' :: (Hex.upper 1 number ++ [':', ' '])

def registerTable : List (List Char) :=
  snapshot.registers.toList.mapIdx fun number value =>
    registerLabel number ++ Hex.marked 1 value.toNat

def stackLines : List (List Char) := Hexdump.lines (snapshot.stack.toList.flatMap wordBytes)

def memoryLines : List (List Char) := Hexdump.lines snapshot.memory.toList

def pictureLines : List (List Char) := snapshot.picture.toList.map pictureRow

/-- The lines below the name. -/
def body : List (List Char) :=
  [[], snapshot.pointerLine, []] ++ (snapshot.registerTable ++ ([] ::
    (snapshot.stackLines ++ ([] :: (snapshot.memoryLines ++ ([] :: snapshot.pictureLines))))))

theorem pointers_eq : snapshot.pointers = ended [snapshot.pointerLine, []] := by
  have pointer : ", SP: ".toList = ',' :: " SP: ".toList := rfl
  have index : ", I: ".toList = ',' :: " I: ".toList := rfl
  unfold pointers pointerLine
  rewrite [pointer, index]
  -- The labels are hidden, or the literals are computed over and over again.
  generalize "PC: ".toList = first, " SP: ".toList = second, " I: ".toList = third
  simp only [ended_cons, ended_nil, List.append_assoc, List.cons_append, List.nil_append]

theorem registerLines_eq : snapshot.registerLines = ended snapshot.registerTable := by
  have line (number : Nat) (value : UInt8) : registerLine number value =
      (registerLabel number ++ Hex.marked 1 value.toNat) ++ ['\n'] := by
    simp only [registerLine, registerLabel, List.cons_append, List.append_assoc, List.nil_append]
  rw [registerLines, registerTable, ended, List.flatMap_def, List.mapIdx_eq_zipIdx_map,
    List.mapIdx_eq_zipIdx_map, List.map_map]
  simp only [Function.comp_def, line]

theorem screen_eq : snapshot.screen = ended ([] :: snapshot.pictureLines) := by
  rw [← ended_blank, pictureLines, List.flatMap_map, screen]

theorem text_eq : snapshot.text =
    Nat.toDigits 10 snapshot.seconds ++ '\n' ::
      (snapshot.name.toList ++ '\n' :: ended snapshot.body) := by
  have stack : Hexdump.text (snapshot.stack.toList.flatMap wordBytes) =
      ended snapshot.stackLines := rfl
  have memory : Hexdump.text snapshot.memory.toList = ended snapshot.memoryLines := rfl
  rw [text, heading, pointers_eq, registerLines_eq, screen_eq, body, stack, memory]
  simp only [ended_append, ended_cons, ended_nil, List.append_assoc, List.cons_append,
    List.nil_append]

theorem registerTable_length : snapshot.registerTable.length = 16 := by
  rw [registerTable, List.length_mapIdx, Vector.length_toList]

theorem wordBytes_length : (snapshot.stack.toList.flatMap wordBytes).length = 32 := by
  rw [List.length_flatMap, show (fun word => (wordBytes word).length) = fun _ => 2 from rfl,
    List.map_const', List.sum_replicate_nat, Vector.length_toList]

theorem stackLines_length : snapshot.stackLines.length = 2 := by
  rw [stackLines, Hexdump.lines_length, wordBytes_length]

theorem memoryLines_length : snapshot.memoryLines.length = 256 := by
  rw [memoryLines, Hexdump.lines_length, Vector.length_toList]
  rfl

theorem pictureLines_length : snapshot.pictureLines.length = 32 := by
  rw [pictureLines, List.length_map, Vector.length_toList]

theorem body_length : snapshot.body.length = 312 := by
  simp only [body, List.length_append, List.length_cons, List.length_nil, registerTable_length,
    stackLines_length, memoryLines_length, pictureLines_length]

theorem newline_not_mem_pointerLine : '\n' ∉ snapshot.pointerLine := by
  have first : '\n' ∉ "PC: ".toList := by decide
  have second : '\n' ∉ " SP: ".toList := by decide
  have third : '\n' ∉ " I: ".toList := by decide
  have marked (number : Nat) : '\n' ∉ Hex.marked 1 number :=
    Hex.not_mem_marked (by decide) (by decide) 1 number
  simp only [pointerLine, List.mem_append, List.mem_cons, first, second, third, marked,
    Char.reduceEq, or_self, not_false_iff]

theorem newline_not_mem_registerTable {line : List Char} (member : line ∈ snapshot.registerTable) :
    '\n' ∉ line := by
  have digits (number : Nat) : '\n' ∉ Hex.upper 1 number :=
    Hex.not_mem_upper (by decide) 1 number
  have marked (number : Nat) : '\n' ∉ Hex.marked 1 number :=
    Hex.not_mem_marked (by decide) (by decide) 1 number
  rw [registerTable, List.mem_mapIdx] at member
  obtain ⟨number, inside, rfl⟩ := member
  simp only [registerLabel, List.mem_append, List.mem_cons, List.not_mem_nil, digits, marked,
    Char.reduceEq, or_self, not_false_iff]

theorem newline_not_mem_pictureLines {line : List Char} (member : line ∈ snapshot.pictureLines) :
    '\n' ∉ line := by
  obtain ⟨row, -, rfl⟩ := List.mem_map.mp member
  rw [pictureRow, List.mem_map]
  rintro ⟨lit, -, same⟩
  cases lit <;> exact absurd same (by decide)

theorem newline_not_mem_body : ∀ line ∈ snapshot.body, '\n' ∉ line := by
  have blank : '\n' ∉ ([] : List Char) := List.not_mem_nil
  simp only [body, List.forall_mem_append, List.forall_mem_cons]
  exact ⟨⟨blank, snapshot.newline_not_mem_pointerLine, blank, nofun⟩,
    fun _ => snapshot.newline_not_mem_registerTable, blank,
    fun _ => Hexdump.newline_not_mem_lines, blank,
    fun _ => Hexdump.newline_not_mem_lines, blank,
    fun _ => snapshot.newline_not_mem_pictureLines⟩

theorem newline_not_mem_seconds : '\n' ∉ Nat.toDigits 10 snapshot.seconds := fun member =>
  absurd (Nat.isDigit_of_mem_toDigits (by decide) (by decide) member) (by decide)

theorem splitOn_text : snapshot.text.splitOn '\n' =
    Nat.toDigits 10 snapshot.seconds ::
      (snapshot.name.toList.splitOn '\n' ++ (snapshot.body ++ [[]])) := by
  rw [text_eq, splitOn_append, splitOn_append, splitOn_whole snapshot.newline_not_mem_seconds,
    splitOn_ended snapshot.newline_not_mem_body, List.singleton_append]

/-- The sections follow each other with an empty line between them. -/
theorem body_registers : snapshot.body.drop 3 = snapshot.registerTable ++ ([] ::
    (snapshot.stackLines ++ ([] :: (snapshot.memoryLines ++ ([] :: snapshot.pictureLines))))) := by
  rw [body]
  exact List.drop_left' rfl

theorem body_stack : snapshot.body.drop 20 =
    snapshot.stackLines ++ ([] :: (snapshot.memoryLines ++ ([] :: snapshot.pictureLines))) := by
  have further : snapshot.body.drop 20 = (snapshot.body.drop 3).drop 17 := by
    rw [List.drop_drop]
  rw [further, body_registers]
  exact drop_section snapshot.registerTable_length _

theorem body_memory :
    snapshot.body.drop 23 = snapshot.memoryLines ++ ([] :: snapshot.pictureLines) := by
  have further : snapshot.body.drop 23 = (snapshot.body.drop 20).drop 3 := by
    rw [List.drop_drop]
  rw [further, body_stack]
  exact drop_section snapshot.stackLines_length _

theorem body_picture : snapshot.body.drop 280 = snapshot.pictureLines := by
  have further : snapshot.body.drop 280 = (snapshot.body.drop 23).drop 257 := by
    rw [List.drop_drop]
  rw [further, body_memory]
  exact drop_section snapshot.memoryLines_length _

end

/-- The number in one of the parts of a line between commas. -/
def readPart (line : List Char) (part : Nat) : Nat :=
  Hex.readMarked ((line.splitOn ',')[part]?.getD [])

/-- The word at a place among the words whose bytes are dumped. -/
def readWord (lines : List (List Char)) (place : Nat) : UInt16 :=
  UInt16.ofNat (0x100 * (Hexdump.readByte lines (2 * place)).toNat +
    (Hexdump.readByte lines (2 * place + 1)).toNat)

/-- A snapshot out of the lines below its name. -/
def readBody (seconds : Nat) (name : String) (body : List (List Char)) : Snapshot :=
  let line (number : Nat) : List Char := body[number]?.getD []
  { seconds := seconds
    name := name
    counter := UInt16.ofNat (readPart (line 1) 0)
    pointer := Nibble.ofNat (readPart (line 1) 1)
    index := UInt16.ofNat (readPart (line 1) 2)
    registers := Vector.ofFn fun number => UInt8.ofNat (Hex.readMarked (line (3 + number.val)))
    stack := Vector.ofFn fun slot => readWord (body.drop 20) slot.val
    memory := Vector.ofFn fun place => Hexdump.readByte (body.drop 23) place.val
    picture := Vector.ofFn fun y => Vector.ofFn fun x => (line (280 + y.val))[x.val]? = some '#' }

/-- The snapshot in a text. Below its name there are 312 lines, and nothing stands behind the end of
the last one. -/
def read (text : List Char) : Snapshot :=
  let lines := text.splitOn '\n'
  let top := lines.length - 313
  readBody (Nat.ofDigitChars 10 (lines.headD []) 0)
    (String.ofList (['\n'].intercalate ((lines.take top).drop 1))) (lines.drop top).dropLast

section

variable (snapshot : Snapshot)

theorem pointerLine_parts : snapshot.pointerLine.splitOn ',' =
    ["PC: ".toList ++ Hex.marked 1 snapshot.counter.toNat,
      " SP: ".toList ++ Hex.marked 1 snapshot.pointer.val,
      " I: ".toList ++ Hex.marked 1 snapshot.index.toNat] := by
  -- Neither the labels nor the digits have commas in them.
  have whole {label : List Char} (plain : ',' ∉ label) (number : Nat) :
      ',' ∉ label ++ Hex.marked 1 number := by
    rw [List.mem_append, not_or]
    exact ⟨plain, Hex.not_mem_marked (by decide) (by decide) 1 number⟩
  rewrite [pointerLine, splitOn_append, splitOn_append, splitOn_whole (whole (by decide) _),
    splitOn_whole (whole (by decide) _), splitOn_whole (whole (by decide) _)]
  rfl

theorem readPart_pointerLine :
    readPart snapshot.pointerLine 0 = snapshot.counter.toNat ∧
      readPart snapshot.pointerLine 1 = snapshot.pointer.val ∧
      readPart snapshot.pointerLine 2 = snapshot.index.toNat := by
  simp only [readPart, pointerLine_parts]
  exact ⟨Hex.readMarked_append (by decide) 1 _, Hex.readMarked_append (by decide) 1 _,
    Hex.readMarked_append (by decide) 1 _⟩

theorem readRegister {number : Nat} (inside : number < 16) :
    UInt8.ofNat (Hex.readMarked (snapshot.body[3 + number]?.getD [])) =
      snapshot.registers[number] := by
  have plain : 'x' ∉ registerLabel number := by
    have digits : 'x' ∉ Hex.upper 1 number := Hex.not_mem_upper (by decide) 1 number
    simp only [registerLabel, List.mem_append, List.mem_cons, List.not_mem_nil, digits,
      Char.reduceEq, or_self, not_false_iff]
  have within : number < snapshot.registerTable.length := by rwa [registerTable_length]
  rw [← List.getElem?_drop, body_registers, List.getElem?_append_left within, registerTable,
    List.getElem?_mapIdx, Vector.getElem?_toList, Vector.getElem?_eq_getElem inside,
    Option.map_some, Option.getD_some, Hex.readMarked_append plain, UInt8.ofNat_toNat]

theorem readWord_body {slot : Nat} (inside : slot < 16) :
    readWord (snapshot.body.drop 20) slot = snapshot.stack[slot] := by
  have found : snapshot.stack.toList[slot]? = some snapshot.stack[slot] := by
    rw [Vector.getElem?_toList, Vector.getElem?_eq_getElem inside]
  obtain ⟨high, low⟩ := wordBytes_getElem? found
  have fits : (snapshot.stack.toList.flatMap wordBytes).length ≤ 16 ^ 8 := by
    rw [wordBytes_length]
    decide
  rw [readWord, body_stack, stackLines, Hexdump.readByte_lines fits _ high,
    Hexdump.readByte_lines fits _ low, joined_bytes]

theorem readByte_body {place : Nat} (inside : place < memorySize) :
    Hexdump.readByte (snapshot.body.drop 23) place = snapshot.memory[place] := by
  have found : snapshot.memory.toList[place]? = some snapshot.memory[place] := by
    rw [Vector.getElem?_toList, Vector.getElem?_eq_getElem inside]
  have fits : snapshot.memory.toList.length ≤ 16 ^ 8 := by
    rw [Vector.length_toList]
    decide
  rw [body_memory, memoryLines, Hexdump.readByte_lines fits _ found]

theorem spot_body {y x : Nat} (below : y < 32) (inside : x < 64) :
    (snapshot.body[280 + y]?.getD [])[x]? = some '#' ↔ (snapshot.picture[y])[x] = true := by
  have row : snapshot.body[280 + y]? = some (pictureRow snapshot.picture[y]) := by
    rw [← List.getElem?_drop, body_picture, pictureLines, List.getElem?_map,
      Vector.getElem?_toList, Vector.getElem?_eq_getElem below, Option.map_some]
  rw [row, Option.getD_some, pictureRow, List.getElem?_map, Vector.getElem?_toList,
    Vector.getElem?_eq_getElem inside, Option.map_some, Option.some_inj]
  cases (snapshot.picture[y])[x] <;> decide

theorem readBody_body : readBody snapshot.seconds snapshot.name snapshot.body = snapshot := by
  obtain ⟨counter, pointer, index⟩ := snapshot.readPart_pointerLine
  have line : snapshot.body[1]?.getD [] = snapshot.pointerLine := rfl
  apply Snapshot.ext
  case seconds | name => rfl
  case counter =>
    simp only [readBody, line, counter, UInt16.ofNat_toNat]
  case pointer =>
    simp only [readBody, line, pointer, Nibble.ofNat, Fin.ofNat_val_eq_self]
  case index =>
    simp only [readBody, line, index, UInt16.ofNat_toNat]
  case registers =>
    ext number inside
    simp only [readBody, Vector.getElem_ofFn, snapshot.readRegister inside]
  case stack =>
    ext slot inside
    simp only [readBody, Vector.getElem_ofFn, snapshot.readWord_body inside]
  case memory =>
    ext place inside
    simp only [readBody, Vector.getElem_ofFn, snapshot.readByte_body inside]
  case picture =>
    ext y below x inside
    simp only [readBody, Vector.getElem_ofFn, snapshot.spot_body below inside, Bool.decide_eq_true]

theorem read_text : read snapshot.text = snapshot := by
  -- The name has any number of lines, but what stands below it has 312 and an empty rest.
  let above := Nat.toDigits 10 snapshot.seconds :: snapshot.name.toList.splitOn '\n'
  have lines : snapshot.text.splitOn '\n' = above ++ (snapshot.body ++ [[]]) :=
    snapshot.splitOn_text
  have top : (snapshot.text.splitOn '\n').length - 313 = above.length := by
    rw [lines, List.length_append, List.length_append, body_length, List.length_singleton]
    omega
  rw [read]
  simp only [top]
  rw [lines, List.take_left, List.drop_left, List.dropLast_concat]
  simp only [above, List.cons_append, List.headD_cons, Nat.ofDigitChars_ten_toDigits, List.drop_one,
    List.tail_cons, List.intercalate_splitOn, String.ofList_toList, readBody_body]

end

end Snapshot

/-- The cells in a picture are visible ones, in either resolution. -/
theorem Plane.picture_getElem (plane : Plane) {y x : Nat} (below : y < 32) (inside : x < 64) :
    ∃ cell, plane.visible[y * (plane.width / 64) * plane.width + x * (plane.width / 64)]? =
        some cell ∧
      ((plane.picture[y])[x] = true ↔ cell ≠ plane.background) := by
  -- The stride is 1 in the low resolution and 2 in the high one, which is twice as wide and high.
  have row : y * (plane.width / 64) < plane.height := by
    unfold width height
    cases plane.resolution <;> simp only [Resolution.width, Resolution.height] <;> omega
  have column : x * (plane.width / 64) < plane.width := by
    unfold width
    cases plane.resolution <;> simp only [Resolution.width] <;> omega
  have place := plane.place_inside row column
  have bound := Nat.lt_of_lt_of_le place plane.resolution.area_le
  have found := (Vector.getElem?_eq_getElem bound : plane.cells[_]? = _)
  refine ⟨_, by rw [visible_getElem?, if_pos place, found], ?_⟩
  simp only [picture, Vector.getElem_ofFn, cell, found, Option.getD_some, decide_eq_true_eq]

namespace Machine

/-- What a snapshot says about a machine. Of the plane it says which cells of the visible ones, all
of them or every second of every second row, differ from the background. -/
structure Depicted (machine : Machine) (now : Instant) (name : String) (snapshot : Snapshot) :
    Prop where
  seconds : snapshot.seconds = now.toNat / 1000000000
  name : snapshot.name = name
  counter : snapshot.counter = machine.counter
  pointer : snapshot.pointer = machine.stack.pointer
  index : snapshot.index = machine.registers.index
  registers : snapshot.registers = machine.registers.v
  stack : snapshot.stack = machine.stack.slots
  memory : snapshot.memory = machine.memory.cells
  picture : ∀ (y : Fin 32) (x : Fin 64), ∃ cell,
    machine.plane.visible[y.val * (machine.plane.width / 64) * machine.plane.width +
      x.val * (machine.plane.width / 64)]? = some cell ∧
    ((snapshot.picture.get y).get x = true ↔ cell ≠ machine.plane.background)

/-- Everything in a snapshot can be read back from its text, whatever the name. Hence no two
machines have the same text unless they agree in everything that it shows. -/
theorem snapshot_read_back (machine : Machine) (now : Instant) (name : String) :
    machine.Depicted now name (Snapshot.read (machine.snapshot now name).text) ∧
    ∀ (other : Machine) (later : Instant) (title : String),
      (machine.snapshot now name).text = (other.snapshot later title).text →
        now.toNat / 1000000000 = later.toNat / 1000000000 ∧ name = title ∧
        machine.counter = other.counter ∧ machine.stack.pointer = other.stack.pointer ∧
        machine.registers.index = other.registers.index ∧
        machine.registers.v = other.registers.v ∧ machine.stack.slots = other.stack.slots ∧
        machine.memory.cells = other.memory.cells ∧
        machine.plane.picture = other.plane.picture := by
  constructor
  · rw [Snapshot.read_text]
    exact {
      seconds := rfl
      name := rfl
      counter := rfl
      pointer := rfl
      index := rfl
      registers := rfl
      stack := rfl
      memory := rfl
      picture := fun y x => machine.plane.picture_getElem y.isLt x.isLt }
  · intro other later title texts
    have same := congrArg Snapshot.read texts
    rw [Snapshot.read_text, Snapshot.read_text] at same
    exact Snapshot.ext_iff.mp same

/-- Two machines that differ in a timer alone, under a name that goes on like the text below it. -/
theorem snapshot_read_back_timer :
    let answers : Answers :=
      { resetClock := 0, pollClock := 0, held := fun _ => false, rom := { bytes := #[0x12, 0x00] },
        words := .cycling #[] }
    let machine := fresh {} answers
    let other : Machine := { machine with registers := { delay := 9 } }
    let name := "one\n\nPC: 0x200, SP: 0x0, I: 0x0\n\nV0: 0x7"
    machine ≠ other ∧ (machine.snapshot 0 name).text = (other.snapshot 0 name).text ∧
      machine.memory.cells = other.memory.cells ∧
      machine.Depicted 0 name (Snapshot.read (other.snapshot 0 name).text) := by
  intro answers machine other name
  have distinct : machine ≠ other := fun same =>
    absurd (congrArg (fun machine => machine.registers.delay) same) (by decide)
  have snapshots : machine.snapshot 0 name = other.snapshot 0 name := rfl
  have texts := congrArg Snapshot.text snapshots
  obtain ⟨depicted, alike⟩ := snapshot_read_back machine 0 name
  obtain ⟨-, -, -, -, -, -, -, memory, -⟩ := alike other 0 name texts
  rw [texts] at depicted
  exact ⟨distinct, texts, memory, depicted⟩

end Machine

end Chip8
