import Chip8.Word

/-!
# Hexadecimal numbers

A number is written with its own digits and no more, led by zeros where a
least width is asked for. Zero has one digit. Letter case is chosen last, so
that the digits themselves carry the number.
-/
namespace Chip8.Hex

/-- The digits of `number`, most significant first, with leading zeros up to `width` of them. -/
def digits (width number : Nat) : List Nibble :=
  if number < 16 ∧ width ≤ 1 then [Nibble.ofNat number]
  else digits (width - 1) (number / 16) ++ [Nibble.ofNat number]
termination_by width + number
decreasing_by omega

def lowerDigits : Bank Char :=
  #v['0', '1', '2', '3', '4', '5', '6', '7', '8', '9', 'a', 'b', 'c', 'd', 'e', 'f']

def upperDigits : Bank Char :=
  #v['0', '1', '2', '3', '4', '5', '6', '7', '8', '9', 'A', 'B', 'C', 'D', 'E', 'F']

def lower (width number : Nat) : List Char :=
  (digits width number).map lowerDigits.get

def upper (width number : Nat) : List Char :=
  (digits width number).map upperDigits.get

/-- Marked upper case form, as in `0x200`. -/
def marked (width number : Nat) : List Char :=
  '0' :: 'x' :: upper width number

end Chip8.Hex
