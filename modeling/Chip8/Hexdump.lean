import Chip8.Text.Hex

/-!
# Hex dumps

The canonical layout: sixteen bytes a line, an offset of eight digits, the
bytes in two groups of eight, and between bars the same bytes as characters.
A short last line is padded, so that the bars of all lines stand below each
other.
-/
namespace Chip8.Hexdump

/-- Bytes in groups of sixteen, the last group shorter if need be. -/
def rows (bytes : List UInt8) : List (List UInt8) :=
  if bytes.isEmpty then [] else bytes.take 16 :: rows (bytes.drop 16)
termination_by bytes.length
decreasing_by
  rename_i nonempty
  have : bytes.length ≠ 0 := by simpa using nonempty
  simp only [List.length_drop]
  omega

/-- A byte as two digits, or the blank where a byte is missing. -/
def field (byte : Option UInt8) : List Char :=
  match byte with
  | some byte => ' ' :: Hex.lower 2 byte.toNat
  | none => [' ', ' ', ' ']

/-- The sixteen fields of a line, with a gap between the two groups. -/
def fields (row : List UInt8) : List Char :=
  (List.range 16).flatMap fun column =>
    (if column = 8 then [' '] else []) ++ field row[column]?

/-- Printable bytes stand for themselves, all others are dots. -/
def printable (byte : UInt8) : Char :=
  if 0x20 ≤ byte ∧ byte ≤ 0x7E then Char.ofNat byte.toNat else '.'

def line (offset : Nat) (row : List UInt8) : List Char :=
  Hex.lower 8 offset ++ ' ' :: (fields row ++ ' ' :: ' ' :: '|' :: (row.map printable ++ ['|']))

/-- The lines of a dump, without their ends. -/
def lines (bytes : List UInt8) : List (List Char) :=
  (rows bytes).mapIdx fun place row => line (16 * place) row

def text (bytes : List UInt8) : List Char :=
  (lines bytes).flatMap fun line => line ++ ['\n']

end Chip8.Hexdump
