import Chip8.Proofs.Countdown
import Chip8.Proofs.TickSpacing
import Chip8.Proofs.Transfers

/-!
# Waiting for a key

An instruction that waits is fetched again and again: the counter moves past it
and, as long as no key is held, back to it. So a step of a wait is a poll of the
gate and no more, and a whole wait is a series of polls. Nothing but the timers
moves meanwhile, however long it takes and whatever the clock does. When a key
is held at last the wait has left no trace, and the least such key is stored.
-/
namespace Chip8

namespace Machine

namespace SameButTimers

variable {first second third : Machine}

theorem refl (machine : Machine) : machine.SameButTimers machine :=
  ⟨rfl, rfl, rfl, rfl, rfl, rfl, rfl, rfl⟩

theorem trans (early : first.SameButTimers second) (late : second.SameButTimers third) :
    first.SameButTimers third where
  counter := late.counter.trans early.counter
  v := late.v.trans early.v
  index := late.index.trans early.index
  memory := late.memory.trans early.memory
  stack := late.stack.trans early.stack
  plane := late.plane.trans early.plane
  words := late.words.trans early.words
  dialect := late.dialect.trans early.dialect

theorem fetch (same : first.SameButTimers second) : second.fetch = first.fetch := by
  rw [Machine.fetch, same.counter, same.memory, Machine.fetch]

/-- What a key that was waited for makes of machines. -/
theorem stored (same : first.SameButTimers second) (x : Nibble) (value : UInt8) :
    (first.advanced.set x value).SameButTimers (second.advanced.set x value) where
  counter := congrArg (· + 2) same.counter
  v := congrArg (·.put x value) same.v
  index := same.index
  memory := same.memory
  stack := same.stack
  plane := same.plane
  words := same.words
  dialect := same.dialect

end SameButTimers

/-- A tick that ends the tone, or none. -/
def silenced (machine : Machine) (now : Instant) : List Call :=
  if (machine.gate.poll now).2 = true ∧ machine.registers.sound = 1 then [.endTone] else []

section

variable {machine : Machine} {answers : Answers} {x : Nibble}

theorem perform_awaitKey (waits : machine.fetch.toNat = 0xF00A + 0x100 * x.val) :
    let executed := machine.advanced.awaitKey answers.held x
    let ticked := executed.machine.tick answers.pollClock
    machine.perform (.step answers) =
      { machine := ticked.1
        events := .note (.executing machine.counter machine.fetch (.awaitKey x))
          :: (executed.events ++ ticked.2)
        reply := .stepped .running } := by
  have decoded : machine.dialect.decode machine.fetch = .ok (.awaitKey x) :=
    Instruction.permitted_of_code machine.dialect 0 rfl waits
  simp only [perform_ok (step_decoded answers decoded),
    obey_running answers machine (.awaitKey x) (by simp)]
  rfl

/-- While no key is held, a step that waits for one asks for all of them and lets the timers have
their chance. -/
theorem perform_waits (waits : machine.fetch.toNat = 0xF00A + 0x100 * x.val)
    (released : ∀ key, answers.held key = false) :
    let response := machine.perform (.step answers)
    response.machine = (machine.tick answers.pollClock).1 ∧
      response.reply = .stepped .running ∧
      calls response.events =
        (List.finRange 16).map .askKey ++ machine.silenced answers.pollClock := by
  have none : (List.finRange 16).find? answers.held = none :=
    List.find?_eq_none.mpr fun key _ => by simp [released]
  -- The counter moved past the opcode when it was fetched.
  have back : machine.advanced.awaitKey answers.held x =
      { machine, events := (List.finRange 16).map fun key => .call (.askKey key) } := by
    simp only [awaitKey, none, advanced, UInt16.add_sub_cancel]
  simp only [perform_awaitKey waits, back, calls_note, calls_append, calls_asks, tick_calls,
    silenced, true_and]

/-- The least key that is held ends the wait. -/
theorem perform_pressed {key : Nibble} (waits : machine.fetch.toNat = 0xF00A + 0x100 * x.val)
    (held : answers.held key = true) (least : ∀ lower < key, answers.held lower = false) :
    let response := machine.perform (.step answers)
    response.machine =
        ((machine.advanced.set x (UInt8.ofNat key.val)).tick answers.pollClock).1 ∧
      response.reply = .stepped .running := by
  have found : (List.finRange 16).find? answers.held = some key := by
    refine List.find?_eq_some_iff_getElem.mpr ⟨held, key.val, by simp, by simp, ?_⟩
    intro lower below
    rw [List.getElem_finRange, Bool.not_eq_true']
    exact least ⟨lower, Nat.lt_trans below key.isLt⟩ below
  have stored : (machine.advanced.awaitKey answers.held x).machine =
      machine.advanced.set x (UInt8.ofNat key.val) := by
    rw [awaitKey_eq, found]
  simp only [perform_awaitKey waits, stored, and_self]

end

section

variable {machine : Machine} {answers : Nat → Answers} {x : Nibble} {count : Nat}
  (waits : machine.fetch.toNat = 0xF00A + 0x100 * x.val)
  (released : ∀ step < count, ∀ key, (answers step).held key = false)
include waits released

/-- A wait is so many ticks. -/
theorem after_waits : machine.SameButTimers (machine.after answers count) ∧
    let clocks := (List.range count).map fun step => (answers step).pollClock
    let waited := machine.after answers count
    waited.gate = machine.gate.polled clocks ∧
      ∀ timer, (waited.registers.timer timer).toNat =
        (machine.registers.timer timer).toNat - (machine.gate.ticks clocks).length := by
  induction count with
  | zero => exact ⟨.refl machine, rfl, fun _ => rfl⟩
  | succ count ih =>
    obtain ⟨same, gate, timers⟩ := ih fun step early => released step (Nat.lt_succ_of_lt early)
    have still : (machine.after answers count).fetch.toNat = 0xF00A + 0x100 * x.val := by
      rw [same.fetch, waits]
    have ticked : machine.after answers (count + 1) =
        ((machine.after answers count).tick (answers count).pollClock).1 :=
      (perform_waits still (released count (Nat.lt_succ_self count))).1
    -- The last step polls the gate that the steps before it left.
    rw [ticked, List.range_succ, List.map_append]
    refine ⟨same.trans (tick_same _ _), ?_, fun timer => ?_⟩
    · rw [TimerGate.polled_append, ← gate, tick_eq]
      rfl
    · rw [TimerGate.ticks_append, ← gate, List.length_append, ← Nat.sub_sub, ← timers, tick_eq]
      simp only [List.map_cons, List.map_nil, TimerGate.ticks]
      split
      · exact Registers.counted_timer _ timer
      · rfl

end

/-- A machine that waits for a key stands still until one is held, its timers apart. Each of its
steps asks for every key, and all else that it may do to the host is to end the tone. -/
theorem waits_stutter (machine : Machine) (answers : Nat → Answers) (x : Nibble) (count : Nat)
    (waits : machine.fetch.toNat = 0xF00A + 0x100 * x.val)
    (released : ∀ step < count, ∀ key, (answers step).held key = false) :
    let waited := fun step => machine.after answers step
    let response := fun step => (waited step).perform (.step (answers step))
    let clocks := (List.range count).map fun step => (answers step).pollClock
    (∀ step < count, (response step).reply = .stepped .running ∧
      calls (response step).events =
        (List.finRange 16).map .askKey ++ (waited step).silenced (answers step).pollClock) ∧
    machine.SameButTimers (waited count) ∧
    (waited count).gate = machine.gate.polled clocks ∧
    (∀ timer, ((waited count).registers.timer timer).toNat =
      (machine.registers.timer timer).toNat - (machine.gate.ticks clocks).length) ∧
    ∀ key, (answers count).held key = true → (∀ lower < key, (answers count).held lower = false) →
      let pressed := response count
      pressed.reply = .stepped .running ∧
        (pressed.machine.registers.get x).toNat = key.val ∧
        pressed.machine.counter.toNat = (machine.counter.toNat + 2) % 65536 ∧
        (machine.advanced.set x (UInt8.ofNat key.val)).SameButTimers pressed.machine := by
  intro waited response clocks
  have still (step : Nat) (within : step ≤ count) :
      machine.SameButTimers (waited step) ∧ (waited step).fetch.toNat = 0xF00A + 0x100 * x.val := by
    have same : machine.SameButTimers (waited step) :=
      (after_waits waits fun early before => released early (Nat.lt_of_lt_of_le before within)).1
    exact ⟨same, by rw [same.fetch, waits]⟩
  obtain ⟨same, gate, timers⟩ := after_waits waits released
  refine ⟨fun step within => ?_, same, gate, timers, ?_⟩
  · exact (perform_waits (still step (Nat.le_of_lt within)).2 (released step within)).2
  · intro key held least pressed
    obtain ⟨left, reply⟩ := perform_pressed (still count (Nat.le_refl count)).2 held least
    have after : (machine.advanced.set x (UInt8.ofNat key.val)).SameButTimers pressed.machine := by
      rw [left]
      exact (same.stored x _).trans (tick_same _ _)
    refine ⟨reply, ?_, ?_, after⟩
    · rw [Registers.get, after.v]
      change ((machine.registers.set x (UInt8.ofNat key.val)).get x).toNat = key.val
      rw [Registers.get_set, if_pos rfl]
      exact UInt8.toNat_ofNat_of_lt (Nat.lt_of_lt_of_le key.isLt (by decide))
    · rw [after.counter]
      exact UInt16.toNat_add machine.counter 2

/-- A wait whose opcode runs over the end of memory, from its last cell to its first. Two of its
three steps count, and then two keys are held at once. -/
theorem waits_stutter_wrapped :
    let answers : Nat → Answers := fun step =>
      { resetClock := 0, pollClock := (step : Int) * 20000000,
        held := fun key => step == 3 && (key == 9 || key == 5), rom := { bytes := #[] },
        words := .cycling #[] }
    let machine : Machine :=
      { fresh {} (answers 0) with
        counter := 0xFFFF, memory := Memory.blank.writeFrom 0xFFFF [0xF3, 0x0A],
        registers := { delay := 9, sound := 2 } }
    let waited := machine.after answers 3
    let pressed := waited.perform (.step (answers 3))
    machine.fetch.toNat = 0xF30A ∧ waited.counter = 0xFFFF ∧
      (waited.registers.timer .delay).toNat = 7 ∧ (waited.registers.timer .sound).toNat = 0 ∧
      (pressed.machine.registers.get 3).toNat = 5 ∧ pressed.machine.counter.toNat = 1 := by
  intro answers machine waited pressed
  have fetched : machine.fetch.toNat = 0xF30A :=
    congrArg UInt16.toNat (Memory.readWord_writeFrom Memory.blank 0xFFFF 0xF3 0x0A)
  have released (step : Nat) (within : step < 3) (key : Nibble) :
      (answers step).held key = false := by
    have early : (step == 3) = false := beq_false_of_ne (Nat.ne_of_lt within)
    simp only [answers, early, Bool.false_and]
  obtain ⟨-, same, -, timers, presses⟩ := waits_stutter machine answers 3 3 fetched released
  obtain ⟨-, stored, counter, -⟩ := presses 5 (by decide) (by decide)
  have wraps : (machine.counter.toNat + 2) % 65536 = 1 := by
    change (UInt16.toNat 0xFFFF + 2) % 65536 = 1
    decide
  have ticks : (machine.gate.ticks
      ((List.range 3).map fun step => (answers step).pollClock)).length = 2 := by
    decide
  rw [ticks] at timers
  exact ⟨fetched, same.counter, timers .delay, timers .sound, stored, counter.trans wraps⟩

end Machine

end Chip8
