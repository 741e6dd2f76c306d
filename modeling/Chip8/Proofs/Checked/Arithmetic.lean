import Chip8.Word
import Mathlib.Data.Nat.Bitwise

/-!
# Checked arithmetic

The types of the machine keep its numbers in range: a stack pointer has four
bits because it is a nibble. What follows takes nothing for granted. Numbers
are plain, and every sum, product, difference, shift, access and slice that
could leave its bounds is checked there and then. One that does gives no result,
and neither does anything that it was needed for.

A size is only known to have sixteen bits, so it is held to the same limit as
a word.
-/
namespace Chip8.Checked

/-- The number of values of a byte. -/
abbrev byteLimit : Nat := 256

/-- The number of values of a word, and the least that a size may be held to. -/
abbrev wordLimit : Nat := 65536

/-- The number of values of a double word. -/
abbrev doubleLimit : Nat := 4294967296

def fit (limit number : Nat) : Option Nat := if number < limit then some number else none

def add (limit one other : Nat) : Option Nat := fit limit (one + other)

def mul (limit one other : Nat) : Option Nat := fit limit (one * other)

def sub (one other : Nat) : Option Nat := if other ≤ one then some (one - other) else none

/-- A number of `bits` bits moved by fewer places than it has. -/
def shiftRight (bits number places : Nat) : Option Nat :=
  if places < bits then some (number >>> places) else none

def shiftLeft (bits number places : Nat) : Option Nat :=
  if places < bits then some (number <<< places % 1 <<< bits) else none

/-- A quotient of whole numbers. -/
def div (one other : Nat) : Option Nat := if other = 0 then none else some (one / other)

section

variable {limit one other : Nat}

theorem add_eq (fits : one + other < limit) : add limit one other = some (one + other) :=
  if_pos fits

theorem mul_eq (fits : one * other < limit) : mul limit one other = some (one * other) :=
  if_pos fits

theorem add_word (fits : one + other < 65536) : add wordLimit one other = some (one + other) :=
  add_eq fits

theorem mul_word (fits : one * other < 65536) : mul wordLimit one other = some (one * other) :=
  mul_eq fits

theorem sub_eq (fits : other ≤ one) : sub one other = some (one - other) :=
  if_pos fits

theorem shiftRight_eq {bits number places : Nat} (fits : places < bits) :
    shiftRight bits number places = some (number >>> places) :=
  if_pos fits

theorem shiftLeft_eq {bits number places : Nat} (fits : places < bits) :
    shiftLeft bits number places = some (number <<< places % 1 <<< bits) :=
  if_pos fits

theorem div_eq (positive : 0 < other) : div one other = some (one / other) :=
  if_neg (Nat.ne_of_gt positive)

end

section

variable {Cell : Type} {size : Nat}

/-- Puts a value into a cell. -/
def put (cells : Vector Cell size) (place : Nat) (value : Cell) : Option (Vector Cell size) :=
  if inside : place < size then some (cells.set place value inside) else none

/-- One value in all cells from `first` up to `last`. -/
def filled (cells : Vector Cell size) (first last : Nat) (value : Cell) : Vector Cell size :=
  cells.mapIdx fun place old => if first ≤ place ∧ place < last then value else old

/-- Copies of the `count` cells from `first` on in the cells from `goal` on. -/
def copied (cells : Vector Cell size) (first count goal : Nat) : Vector Cell size :=
  cells.mapIdx fun place old =>
    if goal ≤ place ∧ place < goal + count then cells[place - goal + first]?.getD old else old

/-- Other cells in the place of those from `base` on. -/
def overlaid (cells : Vector Cell size) (base : Nat) (source : Array Cell) : Vector Cell size :=
  cells.mapIdx fun place old => if base ≤ place then source[place - base]?.getD old else old

/-- Gives one value to the cells from `first` up to `last` of a slice of `length` cells at
`base`. -/
def fill (cells : Vector Cell size) (base length first last : Nat) (value : Cell) :
    Option (Vector Cell size) :=
  if base + length ≤ size ∧ first ≤ last ∧ last ≤ length then
    some (filled cells (base + first) (base + last) value)
  else none

/-- Copies the cells from `first` up to `last` of a slice of `length` cells at `base`, so that
their copies start at `goal` in the same slice. -/
def copyWithin (cells : Vector Cell size) (base length first last goal : Nat) :
    Option (Vector Cell size) :=
  if base + length ≤ size ∧ first ≤ last ∧ last ≤ length ∧ goal + (last - first) ≤ length then
    some (copied cells (base + first) (last - first) (base + goal))
  else none

/-- Copies cells into a slice at `base` that has to be just as long. -/
def copyFrom (cells : Vector Cell size) (base length : Nat) (source : Array Cell) :
    Option (Vector Cell size) :=
  if base + length ≤ size ∧ source.size = length then some (overlaid cells base source) else none

theorem put_eq (cells : Vector Cell size) {place : Nat} (value : Cell) (inside : place < size) :
    put cells place value = some (cells.set place value inside) :=
  dif_pos inside

theorem fill_eq (cells : Vector Cell size) {base length first last : Nat} (value : Cell)
    (inside : base + length ≤ size) (order : first ≤ last) (within : last ≤ length) :
    fill cells base length first last value =
      some (filled cells (base + first) (base + last) value) :=
  if_pos ⟨inside, order, within⟩

theorem copyWithin_eq (cells : Vector Cell size) {base length first last goal : Nat}
    (inside : base + length ≤ size) (order : first ≤ last) (within : last ≤ length)
    (room : goal + (last - first) ≤ length) :
    copyWithin cells base length first last goal =
      some (copied cells (base + first) (last - first) (base + goal)) :=
  if_pos ⟨inside, order, within, room⟩

theorem copyFrom_eq (cells : Vector Cell size) {base length : Nat} {source : Array Cell}
    (inside : base + length ≤ size) (same : source.size = length) :
    copyFrom cells base length source = some (overlaid cells base source) :=
  if_pos ⟨inside, same⟩

end

/-- A loop whose every round succeeds does what the rounds do. The states of the loop are given
as images of the states that are carried along. -/
theorem foldlM_eq {State Image Item : Type} (image : State → Image)
    {checked : Image → Item → Option Image} (round : State → Item → State) {items : List Item}
    (succeeds : ∀ item ∈ items, ∀ state,
      checked (image state) item = some (image (round state item))) (state : State) :
    items.foldlM checked (image state) = some (image (items.foldl round state)) := by
  induction items generalizing state with
  | nil => rfl
  | cons item rest ih =>
    rw [List.foldlM_cons, succeeds item List.mem_cons_self state, List.foldl_cons]
    exact ih (fun item member => succeeds item (List.mem_cons_of_mem _ member)) _

/-- A list of results that are all there. -/
theorem mapM_eq {Item Value : Type} {checked : Item → Option Value} {value : Item → Value}
    {items : List Item} (succeeds : ∀ item ∈ items, checked item = some (value item)) :
    items.mapM checked = some (items.map value) := by
  induction items with
  | nil => rfl
  | cons item rest ih =>
    have later := ih fun item member => succeeds item (List.mem_cons_of_mem _ member)
    rw [List.mapM_cons, succeeds item List.mem_cons_self, later]
    rfl

end Chip8.Checked
