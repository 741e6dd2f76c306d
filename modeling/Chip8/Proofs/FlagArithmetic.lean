import Chip8.Proofs.Footprint
import Chip8.Proofs.OpcodeTable
import Chip8.Proofs.Transfers

/-!
# Arithmetic and the flag

Five instructions set the flag besides the register that they compute. It tells
what the result had no room for: a carry, a borrow that was not needed or the
bit that was shifted out. Both operands are read before anything is written, and
the flag is written last, so it does not matter whether the registers of an
instruction are the same or the flag is one of them. Unless the flag takes the
place of the result, the two together are worth what the operands were.
-/
namespace Chip8

inductive Arithmetic
  | add
  | subtract
  | shiftRight
  | subtractFrom
  | shiftLeft
deriving DecidableEq, Repr

namespace Arithmetic

def instruction (x y : Nibble) : Arithmetic → Instruction
  | add => .add x y
  | subtract => .subtract x y
  | shiftRight => .shiftRight x
  | subtractFrom => .subtractFrom x y
  | shiftLeft => .shiftLeft x

/-- The opcode on register 0 alone. -/
def opcode : Arithmetic → Nat
  | add => 0x8004
  | subtract => 0x8005
  | shiftRight => 0x8006
  | subtractFrom => 0x8007
  | shiftLeft => 0x800E

/-- The result, of the values before. -/
def result (a b : UInt8) : Arithmetic → UInt8
  | add => a + b
  | subtract => a - b
  | shiftRight => a >>> 1
  | subtractFrom => b - a
  | shiftLeft => a <<< 1

/-- The flag, of the values before. -/
def flag (dialect : Dialect) (a b : Nat) : Arithmetic → Nat
  | add => if 256 ≤ a + b then 1 else 0
  | subtract => if b ≤ a then 1 else 0
  | shiftRight => a % 2
  | subtractFrom => if (if dialect.standardBorrow then a ≤ b else a < b) then 1 else 0
  | shiftLeft => if 128 ≤ a then 1 else 0

/-- What a result and its flag are worth. -/
def Balances (a b result flag : Int) : Arithmetic → Prop
  | add => result + 256 * flag = a + b
  | subtract => result + b = a + 256 * (1 - flag)
  | shiftRight => 2 * result + flag = a
  | subtractFrom => result + a = b + 256 * (if b < a then 1 else 0)
  | shiftLeft => result + 256 * flag = 2 * a

theorem instruction_code (operation : Arithmetic) (x y : Nibble) :
    (operation.instruction x y).code y = operation.opcode + 0x100 * x.val + 0x10 * y.val := by
  cases operation <;> rfl

theorem instruction_plain (operation : Arithmetic) (x y : Nibble) :
    (operation.instruction x y).isHostExtension = false := by
  cases operation <;> rfl

theorem instruction_runs (operation : Arithmetic) (x y : Nibble) :
    operation.instruction x y ≠ .exit := by
  cases operation <;> simp [instruction]

theorem low_bit_iff (a : UInt8) : a &&& 1 = 1 ↔ a.toNat % 2 = 1 := by
  rw [← UInt8.toNat_inj, UInt8.toNat_and, ← Nat.and_one_is_mod]
  rfl

theorem flag_lt (dialect : Dialect) (a b : Nat) (operation : Arithmetic) :
    operation.flag dialect a b < 2 := by
  cases operation with
  | shiftRight => exact Nat.mod_lt a (by decide)
  | subtractFrom =>
    simp only [flag]
    split <;> split <;> decide
  | _ =>
    simp only [flag]
    split <;> decide

theorem result_balances (dialect : Dialect) (a b : UInt8) (operation : Arithmetic) :
    operation.Balances a.toNat b.toNat (operation.result a b).toNat
      (operation.flag dialect a.toNat b.toNat : Nat) := by
  have left := a.toNat_lt
  have right := b.toNat_lt
  cases operation with
  | add =>
    have sum : (a + b).toNat = (a.toNat + b.toNat) % 256 := UInt8.toNat_add a b
    simp only [Balances, result, flag, sum]
    split <;> omega
  | subtract =>
    have difference : (a - b).toNat = (256 - b.toNat + a.toNat) % 256 := UInt8.toNat_sub a b
    simp only [Balances, result, flag, difference]
    split <;> omega
  | shiftRight =>
    have half : (a >>> 1).toNat = a.toNat / 2 := UInt8.toNat_shiftRight a 1
    simp only [Balances, result, flag, half]
    omega
  | subtractFrom =>
    have difference : (b - a).toNat = (256 - a.toNat + b.toNat) % 256 := UInt8.toNat_sub b a
    simp only [Balances, result, difference]
    split <;> omega
  | shiftLeft =>
    have double : (a <<< 1).toNat = 2 * a.toNat % 256 := by
      rw [UInt8.toNat_shiftLeft]
      change a.toNat <<< 1 % 256 = 2 * a.toNat % 256
      rw [Nat.shiftLeft_eq, Nat.pow_one, Nat.mul_comm]
    simp only [Balances, result, flag, double]
    split <;> omega

/-- Adding and subtracting a number cancel, whatever became of the flag in between. -/
theorem add_sub_balance {a b middle last : UInt8} {flag flag' : Nat}
    (added : add.Balances a.toNat b.toNat middle.toNat flag)
    (subtracted : subtract.Balances middle.toNat b.toNat last.toNat flag') : last = a := by
  have bound := a.toNat_lt
  have bound' := last.toNat_lt
  simp only [Balances] at added subtracted
  exact UInt8.toNat_inj.mp (by omega)

theorem sub_add_balance {a b middle last : UInt8} {flag flag' : Nat}
    (subtracted : subtract.Balances a.toNat b.toNat middle.toNat flag)
    (added : add.Balances middle.toNat b.toNat last.toNat flag') : last = a := by
  have bound := a.toNat_lt
  have bound' := last.toNat_lt
  simp only [Balances] at added subtracted
  exact UInt8.toNat_inj.mp (by omega)

end Arithmetic

namespace Machine

section

variable (answers : Answers) (machine : Machine) (operation : Arithmetic) (x y : Nibble)

/-- The result is written first and the flag last. -/
theorem execute_arithmetic :
    let a := machine.registers.get x
    let b := machine.registers.get y
    (execute answers machine (operation.instruction x y)).machine =
      machine.setWithFlag x (operation.result a b)
        (operation.flag machine.dialect a.toNat b.toNat = 1) := by
  intro a b
  -- The machine decides a condition, where the flag is the number that stands for it.
  have raised (condition : Prop) [Decidable condition] :
      decide condition = decide ((if condition then 1 else 0) = 1) := by
    by_cases met : condition <;> simp [met]
  cases operation with
  | add => exact congrArg (machine.setWithFlag x (a + b)) (raised (256 ≤ a.toNat + b.toNat))
  | subtract => exact congrArg (machine.setWithFlag x (a - b)) (raised (b.toNat ≤ a.toNat))
  | shiftRight =>
    refine congrArg (machine.setWithFlag x (a >>> 1)) ?_
    exact decide_eq_decide.mpr (Arithmetic.low_bit_iff a)
  | subtractFrom =>
    refine congrArg (machine.setWithFlag x (b - a)) ?_
    simp only [Arithmetic.flag]
    exact raised
      (if machine.dialect.standardBorrow then a.toNat ≤ b.toNat else a.toNat < b.toNat)
  | shiftLeft => exact congrArg (machine.setWithFlag x (a <<< 1)) (raised (128 ≤ a.toNat))

theorem obey_arithmetic (place : Nibble) :
    let a := machine.registers.get x
    let b := machine.registers.get y
    (machine.obey answers (operation.instruction x y)).machine.registers.get place =
      if 0xF = place then
        if operation.flag machine.dialect a.toNat b.toNat = 1 then 1 else 0
      else if x = place then operation.result a b
      else machine.registers.get place := by
  intro a b
  have same := obey_same answers machine _ (operation.instruction_runs x y)
  refine (congrArg (·.get place) same.v).trans ?_
  rw [execute_arithmetic]
  refine (Registers.get_set _ 0xF place _).trans ?_
  rw [Registers.get_set]
  simp only [decide_eq_true_eq]
  rfl

theorem obey_arithmetic_index :
    (machine.obey answers (operation.instruction x y)).machine.registers.index =
      machine.registers.index := by
  have same := obey_same answers machine _ (operation.instruction_runs x y)
  rw [same.index, execute_arithmetic]
  rfl

theorem obey_flag :
    ((machine.obey answers (operation.instruction x y)).machine.registers.get 0xF).toNat =
      operation.flag machine.dialect (machine.registers.get x).toNat
        (machine.registers.get y).toNat := by
  have small := operation.flag_lt machine.dialect (machine.registers.get x).toNat
    (machine.registers.get y).toNat
  rw [obey_arithmetic, if_pos rfl]
  split
  next raised => exact raised.symm
  next lowered => exact (Nat.lt_one_iff.mp (by omega)).symm

variable {x} (shown : x ≠ 0xF)
include shown

theorem obey_result :
    (machine.obey answers (operation.instruction x y)).machine.registers.get x =
      operation.result (machine.registers.get x) (machine.registers.get y) := by
  rw [obey_arithmetic, if_neg (Ne.symm shown), if_pos rfl]

theorem obey_balances :
    let after := (machine.obey answers (operation.instruction x y)).machine.registers.get
    operation.Balances (machine.registers.get x).toNat (machine.registers.get y).toNat
      (after x).toNat (after 0xF).toNat := by
  intro after
  simp only [after]
  rw [obey_result answers machine operation y shown, obey_flag]
  exact operation.result_balances _ _ _

end

/-- The flag is set last, whatever the registers of an operation are, and all but the result and
the flag stay. Unless the result is lost under the flag, the two are worth what the operands were,
so a sum less one of its parts is the other. -/
theorem flag_arithmetic (machine : Machine) (answers answers' : Answers) (x y : Nibble) :
    (∀ operation : Arithmetic,
      let turn := machine.obey answers (operation.instruction x y)
      let before := fun place => (machine.registers.get place).toNat
      let after := fun place => (turn.machine.registers.get place).toNat
      (machine.fetch.toNat = operation.opcode + 0x100 * x.val + 0x10 * y.val →
        machine.step answers = .ok turn) ∧
      after 0xF = operation.flag machine.dialect (before x) (before y) ∧
      (x ≠ 0xF → operation.Balances (before x) (before y) (after x) (after 0xF)) ∧
      (∀ place, place ≠ x → place ≠ 0xF → after place = before place) ∧
      turn.machine.registers.index = machine.registers.index) ∧
    (x ≠ y → x ≠ 0xF → y ≠ 0xF →
      let obeyed := fun first second : Arithmetic =>
        (machine.obey answers (first.instruction x y)).machine.obey answers'
          (second.instruction x y)
      (obeyed .add .subtract).machine.registers.get x = machine.registers.get x ∧
        (obeyed .subtract .add).machine.registers.get x = machine.registers.get x) := by
  constructor
  · intro operation turn before after
    refine ⟨fun fetched => ?_, machine.obey_flag answers operation x y,
      obey_balances answers machine operation y, fun place other plain => ?_,
      machine.obey_arithmetic_index answers operation x y⟩
    · rw [← operation.instruction_code] at fetched
      exact step_decoded answers (Instruction.permitted_of_code machine.dialect y
        (operation.instruction_plain x y) fetched)
    · simp only [after, before, turn]
      rw [obey_arithmetic, if_neg (Ne.symm plain), if_neg (Ne.symm other)]
  · intro apart shown plain obeyed
    -- The second operation finds the number that the first one worked with.
    have kept (first : Arithmetic) :
        (machine.obey answers (first.instruction x y)).machine.registers.get y =
          machine.registers.get y := by
      rw [obey_arithmetic, if_neg (Ne.symm plain), if_neg apart]
    have balances (first second : Arithmetic) :=
      obey_balances answers' (machine.obey answers (first.instruction x y)).machine second y shown
    simp only [kept] at balances
    exact ⟨Arithmetic.add_sub_balance (obey_balances answers machine .add y shown)
        (balances .add .subtract),
      Arithmetic.sub_add_balance (obey_balances answers machine .subtract y shown)
        (balances .subtract .add)⟩

/-- A sum with a carry, which the subtraction after it takes back. -/
theorem flag_arithmetic_carry :
    let answers : Answers :=
      { resetClock := 0, pollClock := 0, held := fun _ => false, rom := { bytes := #[] },
        words := .cycling #[] }
    let machine : Machine :=
      { fresh {} answers with
        memory := Memory.blank.writeFrom 0x200 [0x82, 0x34]
        registers := { v := Bank.put (Bank.put (Vector.replicate 16 0) 2 200) 3 100 } }
    let sum := (machine.obey answers (.add 2 3)).machine
    let restored := (sum.obey answers (.subtract 2 3)).machine
    machine.fetch.toNat = 0x8234 ∧ machine.step answers = .ok (machine.obey answers (.add 2 3)) ∧
      (sum.registers.get 0xF).toNat = 1 ∧ (sum.registers.get 2).toNat = 44 ∧
      (sum.registers.get 3).toNat = 100 ∧ restored.registers.get 2 = 200 := by
  intro answers machine sum restored
  have fetched : machine.fetch.toNat = 0x8234 :=
    congrArg UInt16.toNat (Memory.readWord_writeFrom Memory.blank 0x200 0x82 0x34)
  obtain ⟨each, restores⟩ := flag_arithmetic machine answers answers 2 3
  obtain ⟨steps, flag, balances, others, -⟩ := each .add
  have carry : (sum.registers.get 0xF).toNat = 1 := flag
  have worth : ((sum.registers.get 2).toNat : Int) + 256 * (sum.registers.get 0xF).toNat =
      200 + 100 := balances (by decide)
  rw [carry] at worth
  exact ⟨fetched, steps fetched, carry, by omega, others 3 (by decide) (by decide),
    (restores (by decide) (by decide) (by decide)).1⟩

end Machine

end Chip8
