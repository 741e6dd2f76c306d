import Chip8.Proofs.Footprint
import Chip8.Proofs.OpcodeTable

/-!
# Timers

The two timers side by side. Each is set by an opcode of its own from a
register, counts down by one when the gate opens, and is otherwise left alone
by everything but a reset, which is also all that touches the gate between two
polls.
-/
namespace Chip8

inductive Timer
  | delay
  | sound
deriving DecidableEq, Repr

namespace Registers

def timer (registers : Registers) : Timer → UInt8
  | .delay => registers.delay
  | .sound => registers.sound

theorem counted_timer (registers : Registers) (timer : Timer) :
    (registers.counted.timer timer).toNat = (registers.timer timer).toNat - 1 := by
  have falls (value : UInt8) : (if value = 0 then 0 else value - 1).toNat = value.toNat - 1 := by
    split
    next rests =>
      rw [rests]
      rfl
    next counts =>
      have positive : value.toNat ≠ 0 := fun none => counts (UInt8.toNat_inj.mp none)
      have above : 1 ≤ value := UInt8.le_iff_toNat_le.mpr (Nat.pos_of_ne_zero positive)
      exact UInt8.toNat_sub_of_le value 1 above
  cases timer with
  | delay => exact falls registers.delay
  | sound => exact falls registers.sound

end Registers

namespace TimerGate

variable (gate : TimerGate) (now : Instant)

theorem poll_iff : (gate.poll now).2 = true ↔ framePeriod ≤ (now - gate.lastTick).toNat := by
  unfold poll
  split
  next early => exact ⟨nofun, fun late => absurd early (Nat.not_lt.mpr late)⟩
  next late => exact ⟨fun _ => Nat.not_lt.mp late, fun _ => rfl⟩

theorem poll_lastTick :
    (gate.poll now).1.lastTick = if (gate.poll now).2 then now else gate.lastTick := by
  unfold poll
  split <;> rfl

theorem poll_closed (closed : ¬(gate.poll now).2 = true) : (gate.poll now).1 = gate := by
  have last := gate.poll_lastTick now
  rw [if_neg closed] at last
  exact congrArg mk last

end TimerGate

namespace Timer

/-- The instruction that sets a timer from a register. -/
def setter (x : Nibble) : Timer → Instruction
  | delay => .setDelay x
  | sound => .setSound x

/-- The opcode that sets a timer from register 0. -/
def opcode : Timer → Nat
  | delay => 0xF015
  | sound => 0xF018

theorem setter_code (timer : Timer) (x ignored : Nibble) :
    (timer.setter x).code ignored = timer.opcode + 0x100 * x.val := by
  cases timer <;> rfl

theorem decode_setter_iff {timer : Timer} {dialect : Dialect} {opcode : UInt16} {x : Nibble} :
    dialect.decode opcode = .ok (timer.setter x) ↔
      opcode.toNat = timer.opcode + 0x100 * x.val := by
  have plain : (timer.setter x).isHostExtension = false := by cases timer <;> rfl
  constructor
  · intro permitted
    have decoded := (Dialect.decode_eq_ok_iff.mp permitted).1
    rw [← setter_code timer x, Instruction.code_of_decode decoded]
  · intro written
    rw [← setter_code timer x 0] at written
    exact Instruction.permitted_of_code dialect 0 plain written

end Timer

namespace Machine

variable (answers : Answers) (machine : Machine) {instruction : Instruction} {timer : Timer}

theorem execute_setter (timer : Timer) (x : Nibble) :
    (execute answers machine (timer.setter x)).machine.registers.timer timer =
      machine.registers.get x := by
  cases timer <;> rfl

/-- Only its own opcode and a reset change a timer. -/
theorem execute_timer (hard : instruction ≠ .softReset)
    (other : ∀ x, instruction ≠ timer.setter x) :
    (execute answers machine instruction).machine.registers.timer timer =
      machine.registers.timer timer := by
  by_cases computes : instruction.computes = true
  · rw [execute_computed answers machine computes]
    cases timer <;> rfl
  cases instruction with
  | softReset => exact absurd rfl hard
  | setDelay x =>
    cases timer with
    | delay => exact absurd rfl (other x)
    | sound => rfl
  | setSound x =>
    cases timer with
    | delay => rfl
    | sound => exact absurd rfl (other x)
  | _ => first | exact absurd rfl computes | (cases timer <;> rfl)

theorem execute_gate (hard : instruction ≠ .softReset) :
    (execute answers machine instruction).machine.gate = machine.gate := by
  by_cases computes : instruction.computes = true
  · rw [execute_computed answers machine computes]
  cases instruction with
  | softReset => exact absurd rfl hard
  | _ => first | rfl | exact absurd rfl computes

end Machine

end Chip8
