/-!
# Words

Besides bytes and words of sixteen bits the machine has two shorter ones.
Nibbles number the registers, the keys, the slots of the call stack and the
digits of an opcode. Addresses number the cells of memory. A longer number is
cut to its low bits.
-/
namespace Chip8

abbrev Nibble := Fin 16

abbrev Address := Fin 4096

instance Nibble.neZero : @NeZero Nat Zero.ofOfNat0 16 := ⟨Nat.succ_ne_zero 15⟩

instance Address.neZero : @NeZero Nat Zero.ofOfNat0 4096 := ⟨Nat.succ_ne_zero 4095⟩

def Nibble.ofNat (number : Nat) : Nibble := Fin.ofNat 16 number

def Address.ofNat (number : Nat) : Address := Fin.ofNat 4096 number

def Address.toWord (address : Address) : UInt16 := UInt16.ofNat address.val

/-- Sixteen cells of one kind, numbered by nibbles. -/
abbrev Bank (Cell : Type) := Vector Cell 16

def Bank.put {Cell : Type} (bank : Bank Cell) (place : Nibble) (value : Cell) : Bank Cell :=
  bank.set place value

theorem get_eq_getElem {Cell : Type} {count : Nat} (cells : Vector Cell count) (place : Fin count) :
    cells.get place = cells[place.val] := rfl

theorem Bank.get_put {Cell : Type} (bank : Bank Cell) (place other : Nibble) (value : Cell) :
    (bank.put place value).get other = if place = other then value else bank.get other := by
  simp only [Bank.put, get_eq_getElem, Vector.getElem_set, Fin.ext_iff]

end Chip8
