import Chip8.Proofs.SnapshotReading

/-!
# The layout of a hex dump

All that stands left of the gutter has the same width in every line, whether or
not there is a byte in a field. So the bar that opens the gutter is in one
column everywhere, a byte can be found by its column, and the gutter behind the
bar, which may hold bars, blanks and digits of its own, is never read. The
fields that are not blank are the bytes, so a dump says how many there are, and
two dumps are equal only if the bytes are.
-/
namespace Chip8

namespace Hex

/-- A number in so many lower case digits. -/
structure Spelled (width number : Nat) (text : List Char) : Prop where
  length : text.length = width
  lower : ∀ c ∈ text, '0' ≤ c ∧ c ≤ '9' ∨ 'a' ≤ c ∧ c ≤ 'f'
  value : read text = number

theorem lower_spelled {width number : Nat} (fits : number < 16 ^ (width + 1)) :
    Spelled (width + 1) number (lower (width + 1) number) where
  length := lower_length fits
  lower := by
    have digits : ∀ digit : Nibble, '0' ≤ lowerDigits.get digit ∧ lowerDigits.get digit ≤ '9' ∨
        'a' ≤ lowerDigits.get digit ∧ lowerDigits.get digit ≤ 'f' := by decide
    rw [Hex.lower, List.forall_mem_map]
    exact fun digit _ => digits digit
  value := read_lower _ _

end Hex

namespace Hexdump

/-- The canonical layout of the line for some bytes. Columns are counted from 0, and those before the
gutter that belong to no digit are blank. -/
structure Canonical (offset : Nat) (row : List UInt8) (written : List Char) : Prop where
  numbered : Hex.Spelled 8 offset (written.take 8)
  filled (place : Nat) (byte : UInt8) : row[place]? = some byte →
    Hex.Spelled 2 byte.toNat ((written.drop (column place)).take 2)
  missing (place : Nat) : row.length ≤ place → place < 16 →
    (written.drop (column place)).take 2 = [' ', ' ']
  blank (other : Nat) : 8 ≤ other → other < 60 →
    (∀ place < 16, other ≠ column place ∧ other ≠ column place + 1) →
    written[other]? = some ' '
  opening : written[60]? = some '|'
  shown (place : Nat) (byte : UInt8) : row[place]? = some byte →
    written[61 + place]? =
      some (if 0x20 ≤ byte ∧ byte ≤ 0x7E then Char.ofNat byte.toNat else '.')
  closing : written[61 + row.length]? = some '|'
  length : written.length = 62 + row.length

/-- The byte in a field of a line. A field of blanks has none. -/
def readField (line : List Char) (place : Nat) : Option UInt8 :=
  let digits := (line.drop (column place)).take 2
  if digits = [' ', ' '] then none else some (UInt8.ofNat (Hex.read digits))

/-- The bytes in the fields of a line. -/
def readLine (line : List Char) : List UInt8 := (List.range 16).filterMap (readField line)

/-- The bytes in the fields of all lines. Nothing stands behind the end of the last one. -/
def readText (text : List Char) : List UInt8 :=
  (text.splitOn '\n').dropLast.flatMap readLine

/-- As many places as there are bytes, or more, have all of them in order. -/
theorem filterMap_getElem? {row : List UInt8} {count : Nat} (few : row.length ≤ count) :
    (List.range count).filterMap (row[·]?) = row := by
  induction row generalizing count with
  | nil => exact List.filterMap_eq_nil_iff.mpr fun _ _ => rfl
  | cons byte rest ih =>
    obtain ⟨count, rfl⟩ := Nat.exists_eq_add_one_of_ne_zero (Nat.ne_zero_of_lt few)
    rw [List.range_succ_eq_map, List.filterMap_cons, List.filterMap_map]
    exact congrArg (byte :: ·) (ih (Nat.le_of_succ_le_succ few))

theorem column_eq {place : Nat} (inside : place < 16) :
    column place = if place < 8 then 10 + 3 * place else 11 + 3 * place := by
  rw [column]
  split <;> omega

/-- What stands between the offset and the gutter. -/
def margin (row : List UInt8) : List Char := ' ' :: (fields row ++ [' ', ' '])

def gutter (row : List UInt8) : List Char := '|' :: (row.map printable ++ ['|'])

theorem line_eq (offset : Nat) (row : List UInt8) :
    line offset row = Hex.lower 8 offset ++ (margin row ++ gutter row) := by
  simp only [line, margin, gutter, List.append_assoc, List.cons_append, List.nil_append]

section

variable (row : List UInt8)

theorem fields_length : (fields row).length = 49 := fields_before row 16

theorem margin_length : (margin row).length = 52 := by
  rw [margin, List.length_cons, List.length_append, fields_length]
  rfl

/-- Every field has a blank in front, and the second group has two. -/
theorem fields_blank {place gap : Nat} (inside : place < 16)
    (front : gap < if place = 8 then 2 else 1) :
    (fields row)[(if 8 < place then 3 * place + 1 else 3 * place) + gap]? = some ' ' := by
  obtain ⟨after, split⟩ := fields_spaced row inside
  rw [split, ← fields_before row place, List.getElem?_append_right (Nat.le_add_right _ _),
    Nat.add_sub_cancel_left, spaced, field_eq]
  split at front
  next eighth =>
    rw [if_pos eighth]
    obtain rfl | rfl : gap = 0 ∨ gap = 1 := by omega
    · rfl
    · rfl
  next other =>
    rw [if_neg other]
    obtain rfl : gap = 0 := by omega
    rfl

/-- A column that belongs to no digit is blank. -/
theorem margin_blank {place : Nat} (inside : place < 52)
    (free : ∀ other < 16, 8 + place ≠ column other ∧ 8 + place ≠ column other + 1) :
    (margin row)[place]? = some ' ' := by
  simp only [column] at free
  rcases place with _ | place
  · rfl
  rw [margin, List.getElem?_cons_succ]
  by_cases within : place < 49
  · -- What is no digit in one of the fields is a blank in front of it.
    obtain ⟨field, gap, few, front, same⟩ : ∃ field gap, field < 16 ∧
        gap < (if field = 8 then 2 else 1) ∧
        place = (if 8 < field then 3 * field + 1 else 3 * field) + gap := by
      by_cases first : place < 24
      · have digits := free (place / 3) (by omega)
        refine ⟨place / 3, 0, by omega, by split <;> decide, ?_⟩
        rw [if_neg (by omega)]
        omega
      · by_cases eighth : place < 28
        · have digits := free 8 (by decide)
          exact ⟨8, place - 24, by decide, by rw [if_pos rfl]; omega,
            by rw [if_neg (Nat.lt_irrefl 8)]; omega⟩
        · have digits := free ((place - 1) / 3) (by omega)
          refine ⟨(place - 1) / 3, 0, by omega, by split <;> decide, ?_⟩
          rw [if_pos (by omega)]
          omega
    rw [List.getElem?_append_left (by rwa [fields_length]), same, fields_blank row few front]
  · have past : (fields row).length ≤ place := Nat.le_of_not_lt (by rwa [fields_length])
    rw [List.getElem?_append_right past, fields_length]
    obtain rfl | rfl : place = 49 ∨ place = 50 := by omega
    all_goals rfl

variable {offset : Nat} (fits : offset < 16 ^ 8)
include fits

theorem line_offset : (line offset row).take 8 = Hex.lower 8 offset := by
  rw [line_eq, List.take_left' (Hex.lower_length fits)]

theorem line_margin {place : Nat} (inside : place < 52) :
    (line offset row)[8 + place]? = (margin row)[place]? := by
  have length : (Hex.lower 8 offset).length = 8 := Hex.lower_length fits
  rw [line_eq, List.getElem?_append_right (by omega), length, Nat.add_sub_cancel_left,
    List.getElem?_append_left (by rwa [margin_length])]

/-- The gutter begins in the same column, however many bytes there are. -/
theorem line_gutter (place : Nat) : (line offset row)[60 + place]? = (gutter row)[place]? := by
  have length : (Hex.lower 8 offset ++ margin row).length = 60 := by
    rw [List.length_append, margin_length, Hex.lower_length fits]
  rw [line_eq, ← List.append_assoc, List.getElem?_append_right (by omega), length,
    Nat.add_sub_cancel_left]

theorem line_length : (line offset row).length = 62 + row.length := by
  rw [line_eq, List.length_append, List.length_append, margin_length, Hex.lower_length fits,
    gutter, List.length_cons, List.length_append, List.length_map, List.length_singleton]
  omega

theorem line_canonical (few : row.length ≤ 16) : Canonical offset row (line offset row) where
  numbered := by
    rw [line_offset row fits]
    exact Hex.lower_spelled fits
  filled place byte found := by
    have within : place < row.length := (List.getElem?_eq_some_iff.mp found).1
    rw [line_column fits row (Nat.lt_of_lt_of_le within few), found]
    exact Hex.lower_spelled byte.toNat_lt
  missing place beyond inside := by
    rw [line_column fits row inside, List.getElem?_eq_none beyond]
    rfl
  blank other after before free := by
    obtain ⟨place, rfl⟩ := Nat.exists_eq_add_of_le after
    rw [line_margin row fits (by omega)]
    exact margin_blank row (by omega) free
  opening := line_gutter row fits 0
  shown place byte found := by
    have within : place < row.length := (List.getElem?_eq_some_iff.mp found).1
    have further : 61 + place = 60 + (place + 1) := by omega
    rw [further, line_gutter row fits, gutter, List.getElem?_cons_succ,
      List.getElem?_append_left (by rwa [List.length_map]), List.getElem?_map, found]
    rfl
  closing := by
    have further : 61 + row.length = 60 + (row.length + 1) := by omega
    have length : row.length = (row.map printable).length := (List.length_map ..).symm
    rw [further, line_gutter row fits, gutter, List.getElem?_cons_succ, length,
      List.getElem?_concat_length]
  length := line_length row fits

end

section

variable {offset : Nat} (fits : offset < 16 ^ 8) (row : List UInt8)
include fits

theorem readField_line {place : Nat} (inside : place < 16) :
    readField (line offset row) place = row[place]? := by
  rw [readField, line_column fits row inside]
  cases row[place]? with
  | none => exact if_pos rfl
  | some byte =>
    -- The digits of a byte are not blank.
    have filled : Hex.lower 2 byte.toNat ≠ [' ', ' '] := by
      intro same
      have member : ' ' ∈ Hex.lower 2 byte.toNat := same ▸ List.mem_cons_self
      exact Hex.not_mem_lower (by decide) 2 byte.toNat member
    change (if Hex.lower 2 byte.toNat = [' ', ' '] then none
      else some (UInt8.ofNat (Hex.read (Hex.lower 2 byte.toNat)))) = some byte
    rw [if_neg filled, Hex.read_lower, UInt8.ofNat_toNat]

theorem readLine_line (few : row.length ≤ 16) : readLine (line offset row) = row := by
  have found : ∀ place ∈ List.range 16, readField (line offset row) place = row[place]? :=
    fun place member => readField_line fits row (List.mem_range.mp member)
  rw [readLine, List.filterMap_congr found]
  exact filterMap_getElem? few

end

theorem rows_flatten (bytes : List UInt8) : (rows bytes).flatten = bytes := by
  fun_induction rows bytes with
  | case1 bytes empty => exact (List.isEmpty_iff.mp empty).symm
  | case2 bytes filled ih => rw [List.flatten_cons, ih, List.take_append_drop]

section

variable {bytes : List UInt8} (fits : bytes.length ≤ 16 ^ 8)
include fits

theorem lines_canonical {place : Nat} (inside : 16 * place < bytes.length) :
    ∃ line, (lines bytes)[place]? = some line ∧
      Canonical (16 * place) ((bytes.drop (16 * place)).take 16) line := by
  refine ⟨_, by rw [lines_getElem?, if_pos inside], ?_⟩
  exact line_canonical _ (Nat.lt_of_lt_of_le inside fits) (List.length_take_le _ _)

theorem lines_map_readLine : (lines bytes).map readLine = rows bytes := by
  apply List.ext_getElem?
  intro place
  rw [List.getElem?_map, lines_getElem?, rows_getElem?]
  split
  next inside =>
    rw [Option.map_some, readLine_line (Nat.lt_of_lt_of_le inside fits) _ (List.length_take_le _ _)]
  next => rfl

theorem readText_text : readText (text bytes) = bytes := by
  have split : (text bytes).splitOn '\n' = lines bytes ++ [[]] :=
    Snapshot.splitOn_ended fun _ => newline_not_mem_lines
  rw [readText, split, List.dropLast_concat, List.flatMap_def, lines_map_readLine fits,
    rows_flatten]

end

/-- A dump has a line for every sixteen bytes or what is left of them, in the canonical layout, and
the bytes can be read back from the columns that they stand in, whatever stands in the gutter. -/
theorem layout_canonical (bytes : List UInt8) (fits : bytes.length < 4294967296) :
    (text bytes).splitOn '\n' = lines bytes ++ [[]] ∧
    (lines bytes).length = (bytes.length + 15) / 16 ∧
    (∀ place < (bytes.length + 15) / 16, ∃ line, (lines bytes)[place]? = some line ∧
      Canonical (16 * place) ((bytes.drop (16 * place)).take 16) line) ∧
    (∀ place < 16, column place = if place < 8 then 10 + 3 * place else 11 + 3 * place) ∧
    readText (text bytes) = bytes ∧
    ∀ other : List UInt8, other.length < 4294967296 →
      (text other = text bytes ↔ other = bytes) := by
  have small : bytes.length ≤ 16 ^ 8 := Nat.le_of_lt fits
  refine ⟨Snapshot.splitOn_ended fun _ => newline_not_mem_lines, lines_length bytes,
    fun place below => lines_canonical small (by omega), fun place => column_eq,
    readText_text small, fun other fits' => ⟨fun same => ?_, fun same => by rw [same]⟩⟩
  have read := congrArg readText same
  rwa [readText_text (Nat.le_of_lt fits'), readText_text small] at read

/-- Eighteen bytes, bars and blanks among them, and a dump whose gutter is the same. -/
theorem layout_canonical_bars :
    let bytes : List UInt8 := List.replicate 7 0x7C ++ (List.replicate 9 0x20 ++ [0x7C, 0x00])
    let other : List UInt8 := List.replicate 7 0x7C ++ (List.replicate 9 0x20 ++ [0x7C, 0x2E])
    (lines bytes).length = 2 ∧ readText (text bytes) = bytes ∧ text other ≠ text bytes ∧
      ∃ last, (lines bytes)[1]? = some last ∧ Canonical 16 [0x7C, 0x00] last ∧
        last[60]? = some '|' ∧ last[61]? = some '|' ∧ last[63]? = some '|' := by
  intro bytes other
  obtain ⟨-, count, canonical, -, read, same⟩ := layout_canonical bytes (by decide)
  obtain ⟨last, found, laid⟩ := canonical 1 (by decide)
  have differ : text other ≠ text bytes := fun equal =>
    absurd ((same other (by decide)).mp equal) (by decide)
  exact ⟨count.trans (by decide), read, differ, last, found, laid, laid.opening,
    laid.shown 0 0x7C rfl, laid.closing⟩

end Hexdump

end Chip8
