import Chip8.Hexdump
import Mathlib.Algebra.Group.Nat.Defs
import Mathlib.Data.List.Induction

/-!
# Reading hexadecimal text

A number can be read back from its digits in either case of letters, with or
without leading zeros. The lines of a hex dump can be read by column: as every
field of a line has the same width, whether or not there is a byte in it, each
byte stands in a column of its own and the gutter does not disturb it.
-/
namespace Chip8

namespace Hex

/-- The digit that a character stands for. Letters count from the tenth, in either case. -/
def digit (c : Char) : Nat := if c ≤ '9' then c.toNat - '0'.toNat else c.toNat % 32 + 9

def read (text : List Char) : Nat := text.foldl (fun number c => 16 * number + digit c) 0

theorem digit_lower : ∀ digit : Nibble, Hex.digit (lowerDigits.get digit) = digit.val := by decide

theorem digit_upper : ∀ digit : Nibble, Hex.digit (upperDigits.get digit) = digit.val := by decide

/-- The digits of a number in an alphabet that can be read. -/
theorem read_digits {alphabet : Nibble → Char}
    (readable : ∀ place, digit (alphabet place) = place.val) (width number : Nat) :
    read ((digits width number).map alphabet) = number := by
  fun_induction digits width number with
  | case1 width number small =>
    simp only [read, List.map_cons, List.map_nil, List.foldl_cons, List.foldl_nil, readable,
      Nibble.ofNat, Fin.val_ofNat]
    omega
  | case2 width number large ih =>
    rw [read] at ih
    simp only [read, List.map_append, List.map_cons, List.map_nil, List.foldl_append, ih,
      List.foldl_cons, List.foldl_nil, readable, Nibble.ofNat, Fin.val_ofNat]
    omega

theorem read_lower (width number : Nat) : read (lower width number) = number :=
  read_digits digit_lower width number

theorem read_upper (width number : Nat) : read (upper width number) = number :=
  read_digits digit_upper width number

/-- A number that fits into its least width has just as many digits. -/
theorem digits_length {width number : Nat} (fits : number < 16 ^ (width + 1)) :
    (digits (width + 1) number).length = width + 1 := by
  induction width generalizing number with
  | zero =>
    rw [digits, if_pos ⟨by omega, by omega⟩]
    rfl
  | succ width ih =>
    have shorter : number / 16 < 16 ^ (width + 1) := by
      rw [Nat.pow_succ] at fits
      omega
    rw [digits, if_neg (by omega), List.length_append, Nat.add_sub_cancel, ih shorter]
    rfl

/-- A width that the digits exceed makes no difference. -/
theorem digits_succ {width number : Nat} (wide : 16 ^ width ≤ number) :
    digits width number = digits (width + 1) number := by
  induction width generalizing number with
  | zero =>
    rw [digits, digits.eq_def (0 + 1)]
    simp
  | succ width ih =>
    have large : 16 ≤ number := Nat.le_trans (Nat.le_self_pow (Nat.succ_ne_zero width) 16) wide
    have shorter : 16 ^ width ≤ number / 16 := by
      rw [Nat.pow_succ] at wide
      omega
    rw [digits, if_neg (by omega), digits.eq_def (width + 1 + 1), if_neg (by omega),
      Nat.add_sub_cancel, Nat.add_sub_cancel, ih shorter]

theorem lower_length {width number : Nat} (fits : number < 16 ^ (width + 1)) :
    (lower (width + 1) number).length = width + 1 := by
  rw [lower, List.length_map, digits_length fits]

/-- Only digits of the alphabet occur. -/
theorem not_mem_upper {c : Char} (foreign : ∀ digit, upperDigits.get digit ≠ c)
    (width number : Nat) : c ∉ upper width number := by
  rw [upper, List.mem_map]
  rintro ⟨digit, -, same⟩
  exact foreign digit same

theorem not_mem_lower {c : Char} (foreign : ∀ digit, lowerDigits.get digit ≠ c)
    (width number : Nat) : c ∉ lower width number := by
  rw [lower, List.mem_map]
  rintro ⟨digit, -, same⟩
  exact foreign digit same

theorem not_mem_marked {c : Char} (foreign : ∀ digit, upperDigits.get digit ≠ c) (mark : c ≠ 'x')
    (width number : Nat) : c ∉ marked width number := by
  intro member
  rcases List.mem_cons.mp member with zero | member
  · exact foreign 0 zero.symm
  · rcases List.mem_cons.mp member with same | digit
    · exact mark same
    · exact not_mem_upper foreign width number digit

/-- The number behind the mark of a hexadecimal number. -/
def readMarked (text : List Char) : Nat := read ((text.dropWhile (· ≠ 'x')).drop 1)

/-- A label in front of the mark does not matter, if there is no mark in it. -/
theorem readMarked_append {label : List Char} (plain : 'x' ∉ label) (width number : Nat) :
    readMarked (label ++ marked width number) = number := by
  -- The zero of the mark is passed over with the label.
  have skipped : ∀ c ∈ label ++ ['0'], decide (c ≠ 'x') = true := by
    intro c member
    rw [decide_eq_true_iff]
    rintro rfl
    rcases List.mem_append.mp member with inside | zero
    · exact plain inside
    · exact absurd (List.mem_singleton.mp zero) (by decide)
  have split : label ++ marked width number =
      (label ++ ['0']) ++ ('x' :: upper width number) := by
    simp only [marked, List.append_assoc, List.singleton_append]
  rw [readMarked, split, List.dropWhile_append_of_pos skipped, List.dropWhile_cons_of_neg (by simp),
    List.drop_succ_cons, List.drop_zero, read_upper]

/-- A text is a mark and so many upper case digits, which stand for a number. -/
def Denotes (text : String) (width number : Nat) : Prop :=
  ∃ digits : List Char, text.toList = '0' :: 'x' :: digits ∧ digits.length = width ∧
    (∀ c ∈ digits, c ∈ "0123456789ABCDEF".toList) ∧ read digits = number

theorem mem_upperDigits {c : Char} :
    c ∈ "0123456789ABCDEF".toList ↔ ∃ digit, upperDigits.get digit = c := by
  have alphabet : "0123456789ABCDEF".toList = List.ofFn upperDigits.get := by decide +kernel
  rw [alphabet]
  exact List.mem_ofFn

theorem denotes_marked {width number : Nat} (fits : number < 16 ^ (width + 1)) :
    Denotes (String.ofList (marked (width + 1) number)) (width + 1) number := by
  refine ⟨upper (width + 1) number, String.toList_ofList, ?_, ?_, read_upper _ _⟩
  · rw [upper, List.length_map, digits_length fits]
  · intro c member
    obtain ⟨digit, -, same⟩ := List.mem_map.mp member
    exact mem_upperDigits.mpr ⟨digit, same⟩

/-- The digits of a number are its only ones. -/
theorem read_unique {one other : List Char} (length : one.length = other.length)
    (first : ∀ c ∈ one, c ∈ "0123456789ABCDEF".toList)
    (second : ∀ c ∈ other, c ∈ "0123456789ABCDEF".toList) (same : read one = read other) :
    one = other := by
  induction one using List.reverseRecOn generalizing other with
  | nil => exact (List.eq_nil_of_length_eq_zero length.symm).symm
  | append_singleton front c ih =>
    rcases List.eq_nil_or_concat other with rfl | ⟨front', d, rfl⟩
    · simp at length
    · simp only [List.concat_eq_append, List.forall_mem_append, List.forall_mem_singleton,
        List.length_append, List.length_singleton, Nat.add_right_cancel_iff] at first second length
      obtain ⟨last, rfl⟩ := mem_upperDigits.mp first.2
      obtain ⟨last', rfl⟩ := mem_upperDigits.mp second.2
      simp only [read, List.concat_eq_append, List.foldl_append, List.foldl_cons, List.foldl_nil,
        digit_upper] at same
      have fronts : read front = read front' := by
        simp only [read]
        omega
      have lasts : last = last' := Fin.ext (by omega)
      rw [ih length first.1 second.1 fronts, lasts, List.concat_eq_append]

theorem Denotes.unique {one other : String} {width number : Nat} (first : Denotes one width number)
    (second : Denotes other width number) : one = other := by
  obtain ⟨digits, spelled, length, listed, read⟩ := first
  obtain ⟨digits', spelled', length', listed', read'⟩ := second
  have same := read_unique (length.trans length'.symm) listed listed' (read.trans read'.symm)
  rw [← String.toList_inj, spelled, spelled', same]

end Hex

namespace Hexdump

theorem rows_getElem? (bytes : List UInt8) (place : Nat) : (rows bytes)[place]? =
    if 16 * place < bytes.length then some ((bytes.drop (16 * place)).take 16) else none := by
  fun_induction rows bytes generalizing place with
  | case1 bytes empty =>
    rw [List.isEmpty_iff.mp empty]
    rfl
  | case2 bytes filled ih =>
    have some : 0 < bytes.length := List.length_pos_iff.mpr (mt List.isEmpty_iff.mpr filled)
    cases place with
    | zero => simp [some]
    | succ place =>
      have shifted : 16 * (place + 1) = 16 + 16 * place := by omega
      have same : 16 * place < bytes.length - 16 ↔ 16 * (place + 1) < bytes.length := by omega
      simp only [List.getElem?_cons_succ, ih, List.length_drop, same, List.drop_drop, shifted]

theorem rows_length (bytes : List UInt8) : (rows bytes).length = (bytes.length + 15) / 16 := by
  fun_induction rows bytes with
  | case1 bytes empty =>
    rw [List.isEmpty_iff.mp empty]
    rfl
  | case2 bytes filled ih =>
    have some : 0 < bytes.length := List.length_pos_iff.mpr (mt List.isEmpty_iff.mpr filled)
    rw [List.length_cons, ih, List.length_drop]
    omega

theorem lines_length (bytes : List UInt8) : (lines bytes).length = (bytes.length + 15) / 16 := by
  rw [lines, List.length_mapIdx, rows_length]

theorem lines_getElem? (bytes : List UInt8) (place : Nat) : (lines bytes)[place]? =
    if 16 * place < bytes.length then
      some (line (16 * place) ((bytes.drop (16 * place)).take 16))
    else none := by
  rw [lines, List.getElem?_mapIdx, rows_getElem?]
  split <;> rfl

theorem field_length (byte : Option UInt8) : (field byte).length = 3 := by
  cases byte with
  | none => rfl
  | some byte =>
    have fits : byte.toNat < 16 ^ (1 + 1) := byte.toNat_lt
    rw [field, List.length_cons, Hex.lower_length fits]

/-- A field begins with a blank. -/
theorem field_eq (byte : Option UInt8) : field byte = ' ' :: (field byte).tail := by
  cases byte <;> rfl

/-- A field with the gap in front of it, if the second group begins there. -/
def spaced (row : List UInt8) (column : Nat) : List Char :=
  (if column = 8 then [' '] else []) ++ field row[column]?

theorem spaced_length (row : List UInt8) (column : Nat) :
    (spaced row column).length = if column = 8 then 4 else 3 := by
  rw [spaced, List.length_append, field_length]
  split <;> rfl

theorem fields_before (row : List UInt8) (column : Nat) :
    ((List.range column).flatMap (spaced row)).length =
      if 8 < column then 3 * column + 1 else 3 * column := by
  induction column with
  | zero => rfl
  | succ column ih =>
    rw [List.range_succ, List.flatMap_append, List.length_append, ih, List.flatMap_singleton,
      spaced_length]
    by_cases eighth : column = 8
    · simp [eighth]
    · rw [if_neg eighth]
      split <;> split <;> omega

/-- The field of a column follows those of the columns before it. -/
theorem fields_spaced (row : List UInt8) {column : Nat} (inside : column < 16) : ∃ after,
    fields row = (List.range column).flatMap (spaced row) ++ (spaced row column ++ after) := by
  obtain ⟨later, cut⟩ : ∃ later, List.range 16 = List.range column ++ column :: later := by
    have sum : 16 = column + (15 - column + 1) := by omega
    refine ⟨((List.range (15 - column)).map Nat.succ).map (column + ·), ?_⟩
    rw [sum, List.range_add, List.range_succ_eq_map, List.map_cons, Nat.add_zero]
  refine ⟨later.flatMap (spaced row), ?_⟩
  change (List.range 16).flatMap (spaced row) = _
  rw [cut, List.flatMap_append, List.flatMap_cons]

/-- Every field stands in a column of its own, in the second group one further to the right. -/
theorem fields_split (row : List UInt8) (column : Nat) (inside : column < 16) :
    ∃ before after, fields row = before ++ (field row[column]? ++ after) ∧
      before.length = 3 * column + column / 8 := by
  -- The gap between the groups counts as what comes before its column.
  obtain ⟨after, split⟩ := fields_spaced row inside
  refine ⟨(List.range column).flatMap (spaced row) ++ if column = 8 then [' '] else [],
    after, ?_, ?_⟩
  · rw [split]
    simp only [spaced, List.append_assoc]
  · rw [List.length_append, fields_before]
    by_cases eighth : column = 8
    · simp [eighth]
    · rw [if_neg eighth, List.length_nil]
      split <;> omega

/-- Where the digits of a byte begin in a line. -/
def column (place : Nat) : Nat := 10 + 3 * place + place / 8

theorem line_column {offset : Nat} (fits : offset < 16 ^ 8) (row : List UInt8) {place : Nat}
    (inside : place < 16) :
    ((line offset row).drop (column place)).take 2 = (field row[place]?).tail := by
  obtain ⟨before, after, split, length⟩ := fields_split row place inside
  have offsetLength : (Hex.lower 8 offset).length = 8 := Hex.lower_length fits
  have fieldLength : (field row[place]?).tail.length = 2 := by
    rw [List.length_tail, field_length]
  have laid : line offset row = (Hex.lower 8 offset ++ ' ' :: (before ++ [' '])) ++
      ((field row[place]?).tail ++ (after ++ ' ' :: ' ' :: '|' :: (row.map printable ++ ['|']))) := by
    rw [line, split, field_eq row[place]?]
    simp only [List.append_assoc, List.cons_append, List.nil_append, List.tail_cons]
  have reached : (Hex.lower 8 offset ++ ' ' :: (before ++ [' '])).length = column place := by
    simp only [column, List.length_append, List.length_cons, List.length_nil, offsetLength, length]
    omega
  rw [laid, List.drop_left' reached, List.take_left' fieldLength]

/-- The byte at a place, read off the lines of a dump. -/
def readByte (lines : List (List Char)) (place : Nat) : UInt8 :=
  let line := lines[place / 16]?.getD []
  UInt8.ofNat (Hex.read ((line.drop (column (place % 16))).take 2))

/-- Lines below the dump do not matter. -/
theorem readByte_lines {bytes : List UInt8} (fits : bytes.length ≤ 16 ^ 8)
    (below : List (List Char)) {place : Nat} {byte : UInt8} (found : bytes[place]? = some byte) :
    readByte (lines bytes ++ below) place = byte := by
  have inside : place < bytes.length := (List.getElem?_eq_some_iff.mp found).1
  have row : ((bytes.drop (16 * (place / 16))).take 16)[place % 16]? = some byte := by
    rw [List.getElem?_take_of_lt (Nat.mod_lt _ (by decide)), List.getElem?_drop, Nat.div_add_mod,
      found]
  have within : place / 16 < (lines bytes).length := by
    rw [lines_length]
    omega
  rw [readByte, List.getElem?_append_left within, lines_getElem?, if_pos (by omega),
    Option.getD_some, line_column (by omega) _ (Nat.mod_lt _ (by decide)), row]
  exact (congrArg UInt8.ofNat (Hex.read_lower 2 byte.toNat)).trans (UInt8.ofNat_toNat ..)

theorem printable_ne_newline (byte : UInt8) : printable byte ≠ '\n' := by
  unfold printable
  split
  next range =>
    intro same
    -- A printable byte is its own code, and that of a line end is not in the range.
    have code : byte.toNat = 10 := by
      have valid : byte.toNat.isValidChar := Or.inl (Nat.lt_trans byte.toNat_lt (by decide))
      have number := congrArg Char.toNat same
      rwa [Char.ofNat, dif_pos valid] at number
    have above : 0x20 ≤ byte.toNat := range.1
    omega
  · decide

theorem newline_not_mem_lines {bytes : List UInt8} {line : List Char}
    (member : line ∈ lines bytes) : '\n' ∉ line := by
  have digits (width number : Nat) : '\n' ∉ Hex.lower width number :=
    Hex.not_mem_lower (by decide) width number
  have fields (row : List UInt8) : '\n' ∉ fields row := by
    rw [Hexdump.fields, List.mem_flatMap]
    rintro ⟨column, -, inside⟩
    rcases List.mem_append.mp inside with gap | filled
    · split at gap
      · exact absurd (List.mem_singleton.mp gap) (by decide)
      · cases gap
    · cases found : row[column]? with
      | none =>
        rw [found] at filled
        exact absurd filled (by decide)
      | some byte =>
        rw [found] at filled
        rcases List.mem_cons.mp filled with blank | digit
        · exact absurd blank (by decide)
        · exact digits 2 byte.toNat digit
  rw [lines, List.mem_mapIdx] at member
  obtain ⟨place, inside, rfl⟩ := member
  simp only [Hexdump.line, List.mem_append, List.mem_cons, List.mem_map, List.not_mem_nil,
    Char.reduceEq, digits, fields, false_or, or_false, not_exists, not_and]
  intro byte _
  exact printable_ne_newline byte

end Hexdump

end Chip8
