import Chip8.Proofs.Restart
import Chip8.Proofs.Timers

/-!
# How long a timer lasts

The gate may have been waiting for most of a period when a timer is set, so the
first count may come at once, even in the step that sets it. From then on
there is a full period between any two counts. So a timer that is set to some
value and left to itself loses one, and one more for every period that the
clock has moved on, but never more. It may lose less, where the clock is not
looked at often enough.
-/
namespace Chip8

/-- What a step at `now` makes of the gate and of a timer that stands at a value: nothing, or a
count, for which a full period must have passed. -/
inductive Counts (now : Instant) (gate gate' : TimerGate) (value value' : Nat) : Prop
  | rests : gate' = gate → value' = value → Counts now gate gate' value value'
  | ticks : gate.lastTick + 16666666 ≤ now → gate'.lastTick = now → value' = value - 1 →
    Counts now gate gate' value value'

/-- A countdown from `value` at `start` that lacks no more than the counts there was time for. The
first may have come at once, and each later one a period after the one before. -/
def Outlasts (value : Nat) (start now : Instant) (gate : TimerGate) (left : Nat) : Prop :=
  value ≤ left ∨ ∃ periods : Nat, value ≤ left + periods + 1 ∧
    start + (periods * 16666666 : Nat) ≤ gate.lastTick ∧ gate.lastTick ≤ now

section

variable {value left left' : Nat} {start now later : Instant} {gate gate' : TimerGate}

theorem Counts.falls (counts : Counts now gate gate' left left') :
    left' ≤ left ∧ left ≤ left' + 1 := by
  cases counts with
  | rests _ same => omega
  | ticks _ _ less => omega

namespace Outlasts

theorem whole : Outlasts value start now gate value := Or.inl (Nat.le_refl value)

theorem step (outlasts : Outlasts value start now gate left) (begun : start ≤ now)
    (ordered : now ≤ later) (counts : Counts later gate gate' left left') :
    Outlasts value start later gate' left' := by
  cases counts with
  | rests closed same =>
    rw [closed, same]
    rcases outlasts with whole | ⟨periods, least, apart, past⟩
    · exact Or.inl whole
    · exact Or.inr ⟨periods, least, apart, Int.le_trans past ordered⟩
  | ticks waited last less =>
    have waited : (_ : Int) ≤ _ := waited
    rw [Outlasts, last]
    right
    rcases outlasts with whole | ⟨periods, least, apart, -⟩
    -- The first count takes the one that may be lost at once.
    · have least : value ≤ left' + 0 + 1 := by omega
      have apart : start + (0 : Int) ≤ later := by
        rw [Int.add_zero]
        exact Int.le_trans begun ordered
      exact ⟨0, least, apart, Int.le_refl later⟩
    · have least : value ≤ left' + (periods + 1) + 1 := by omega
      have apart : start + ((periods + 1) * 16666666 : Nat) ≤ later := by
        rw [Nat.add_one_mul, Int.natCast_add, ← Int.add_assoc]
        exact Int.le_trans (Int.add_le_add_right apart _) waited
      exact ⟨periods + 1, least, apart, Int.le_refl later⟩

/-- The first count apart, each took a period. -/
theorem late (outlasts : Outlasts value start now gate left) (less : left < value) :
    start + ((value - 1 - left) * 16666666 : Nat) ≤ now := by
  rcases outlasts with whole | ⟨periods, least, apart, past⟩
  · exact absurd less (Nat.not_lt.mpr whole)
  · have counts : (value - 1 - left) * 16666666 ≤ periods * 16666666 :=
      Nat.mul_le_mul_right _ (by omega)
    exact Int.le_trans (Int.add_le_add_left (Int.ofNat_le.mpr counts) start)
      (Int.le_trans apart past)

/-- How many periods have passed can be read off the clock. -/
theorem le_left (outlasts : Outlasts value start now gate left) :
    value - 1 - (now - start).toNat / 16666666 ≤ left := by
  rcases Nat.lt_or_ge left value with less | whole
  · have passed : (value - 1 - left) * 16666666 ≤ (now - start).toNat := by
      have passed : (_ : Int) ≤ _ := outlasts.late less
      generalize (value - 1 - left) * 16666666 = elapsed at passed ⊢
      omega
    have counts := (Nat.le_div_iff_mul_le (by decide)).mpr passed
    generalize (now - start).toNat / 16666666 = most at counts ⊢
    omega
  · exact Nat.le_trans (Nat.sub_le _ _) (Nat.le_trans (Nat.sub_le _ _) whole)

end Outlasts

end

/-- A timer that was set to a value in the first of some steps, and how much is left of it after
each: it does not run out early, and it falls by no more than one in any step. -/
structure Countdown (value : Nat) (clock : Nat → Instant) (left : Nat → Nat) (set last : Nat) :
    Prop where
  slowly (step : Nat) : set ≤ step → step ≤ last →
    value - 1 - (clock step - clock set).toNat / 16666666 ≤ left step
  first : left set ≤ value ∧ value ≤ left set + 1
  next (step : Nat) : set ≤ step → step < last →
    left (step + 1) ≤ left step ∧ left step ≤ left (step + 1) + 1

namespace Machine

/-- The machine after some steps, each with answers of its own. -/
def after (machine : Machine) (answers : Nat → Answers) : Nat → Machine
  | 0 => machine
  | step + 1 => ((machine.after answers step).perform (.step (answers step))).machine

/-- The next step neither sets the timer nor starts the machine over. -/
structure Leaves (machine : Machine) (timer : Timer) : Prop where
  unset (x : Nibble) : machine.fetch.toNat ≠ timer.opcode + 0x100 * x.val
  goesOn : ¬(machine.fetch = 0x0101 ∧ machine.dialect.hostExtensions = true)

section

variable (answers : Answers) {machine : Machine} {instruction : Instruction} {timer : Timer}

theorem tick_counts (now : Instant) (machine : Machine) (timer : Timer) :
    let ticked := (machine.tick now).1
    Counts now machine.gate ticked.gate (machine.registers.timer timer).toNat
      (ticked.registers.timer timer).toNat := by
  simp only [tick_eq]
  by_cases opens : (machine.gate.poll now).2 = true
  · have period : framePeriod = 16666666 := rfl
    have waited := (machine.gate.poll_iff now).mp opens
    have last := machine.gate.poll_lastTick now
    rw [if_pos opens] at last
    rw [period] at waited
    rw [if_pos opens]
    exact .ticks (by omega : (_ : Int) ≤ _) last (machine.registers.counted_timer timer)
  · rw [if_neg opens]
    exact .rests (machine.gate.poll_closed now opens) rfl

theorem obey_counts (machine : Machine) (timer : Timer) (hard : instruction ≠ .softReset) :
    let left := (machine.obey answers instruction).machine
    Counts answers.pollClock machine.gate left.gate
      ((execute answers machine.advanced instruction).machine.registers.timer timer).toNat
      (left.registers.timer timer).toNat := by
  by_cases leaves : instruction = .exit
  · subst leaves
    exact .rests rfl rfl
  have gate : (execute answers machine.advanced instruction).machine.gate = machine.gate :=
    execute_gate answers machine.advanced hard
  rw [obey_running answers machine instruction leaves, ← gate]
  exact tick_counts answers.pollClock _ timer

theorem perform_set {x : Nibble} (sets : machine.fetch.toNat = timer.opcode + 0x100 * x.val) :
    let left := (machine.perform (.step answers)).machine
    Counts answers.pollClock machine.gate left.gate (machine.registers.get x).toNat
      (left.registers.timer timer).toNat := by
  have decoded : machine.dialect.decode machine.fetch = .ok (timer.setter x) :=
    Timer.decode_setter_iff.mpr sets
  have hard : timer.setter x ≠ .softReset := by cases timer <;> nofun
  have counts := obey_counts answers machine timer hard
  rw [execute_setter] at counts
  simp only [perform_ok (step_decoded answers decoded)]
  exact counts

theorem hard_of_decoded
    (goesOn : ¬(machine.fetch = 0x0101 ∧ machine.dialect.hostExtensions = true))
    (decoded : machine.dialect.decode machine.fetch = .ok instruction) :
    instruction ≠ .softReset := by
  rintro rfl
  have extended := Dialect.decode_eq_ok_iff.mp decoded
  exact goesOn ⟨Instruction.decode_softReset_iff.mp extended.1, extended.2 rfl⟩

theorem Leaves.perform (leaves : machine.Leaves timer) :
    let left := (machine.perform (.step answers)).machine
    Counts answers.pollClock machine.gate left.gate (machine.registers.timer timer).toNat
      (left.registers.timer timer).toNat := by
  cases decoded : machine.dialect.decode machine.fetch with
  | error fault =>
    simp only [perform_error (step_refused answers decoded)]
    exact .rests rfl rfl
  | ok instruction =>
    have hard := hard_of_decoded leaves.goesOn decoded
    have other (x : Nibble) : instruction ≠ timer.setter x := by
      rintro rfl
      exact leaves.unset x (Timer.decode_setter_iff.mp decoded)
    have counts := obey_counts answers machine timer hard
    rw [execute_timer answers machine.advanced hard other] at counts
    simp only [perform_ok (step_decoded answers decoded)]
    exact counts

/-- Where the instruction does not end the tone itself, it ends as the timer runs out. -/
theorem obey_endTone
    (quiet : .endTone ∉ calls (execute answers machine.advanced instruction).events)
    (ended : .endTone ∈ calls (machine.obey answers instruction).events) :
    (machine.obey answers instruction).machine.registers.sound = 0 := by
  by_cases leaves : instruction = .exit
  · subst leaves
    cases ended
  rw [obey_running answers machine instruction leaves] at ended ⊢
  rw [calls_note, calls_append, List.mem_append, tick_calls] at ended
  rcases ended with early | late
  · exact absurd early quiet
  split at late
  next counts =>
    simp only [tick_eq, counts.1, if_true, Registers.counted, counts.2]
    decide
  next => cases late

/-- A step that sets the sound timer to zero may end the tone at once, and so may a reset. -/
theorem perform_endTone
    (sounds : ∀ x : Nibble, machine.fetch.toNat = Timer.sound.opcode + 0x100 * x.val →
      machine.registers.get x ≠ 0)
    (goesOn : ¬(machine.fetch = 0x0101 ∧ machine.dialect.hostExtensions = true))
    (ended : .endTone ∈ calls (machine.perform (.step answers)).events) :
    (machine.perform (.step answers)).machine.registers.sound = 0 := by
  cases decoded : machine.dialect.decode machine.fetch with
  | error fault =>
    simp only [perform_error (step_refused answers decoded)] at ended
    cases ended
  | ok instruction =>
    simp only [perform_ok (step_decoded answers decoded)] at ended ⊢
    refine obey_endTone answers ?_ ended
    intro early
    by_cases setter : ∃ x, instruction = .setSound x
    · obtain ⟨x, rfl⟩ := setter
      have set : machine.fetch.toNat = Timer.sound.opcode + 0x100 * x.val :=
        Timer.decode_setter_iff.mp decoded
      have positive : machine.advanced.registers.get x ≠ 0 := sounds x set
      rw [execute, setSound_calls, if_neg (fun ends => positive ends.2 : ¬(_ ∧ _ = (0 : UInt8)))]
        at early
      split at early
      · cases List.mem_singleton.mp early
      · cases early
    · have hard := hard_of_decoded goesOn decoded
      have asks := execute_asks answers machine.advanced hard _ early
      cases instruction with
      | setSound x => exact setter ⟨x, rfl⟩
      | _ => exact asks

end

section

variable {machine : Machine} {answers : Nat → Answers} {timer : Timer} {x : Nibble}
  {set last step : Nat}

/-- What a timer that was set has lost so far. -/
theorem after_outlasts
    (ordered : ∀ step, set ≤ step → step < last →
      (answers step).pollClock ≤ (answers (step + 1)).pollClock)
    (sets : (machine.after answers set).fetch.toNat = timer.opcode + 0x100 * x.val)
    (leaves : ∀ step, set < step → step ≤ last → (machine.after answers step).Leaves timer)
    (later : set ≤ step) (within : step ≤ last) :
    let left := machine.after answers (step + 1)
    (answers set).pollClock ≤ (answers step).pollClock ∧
      Outlasts ((machine.after answers set).registers.get x).toNat (answers set).pollClock
        (answers step).pollClock left.gate (left.registers.timer timer).toNat := by
  induction later with
  | refl =>
    -- The step that sets the timer may count it down too.
    refine ⟨Int.le_refl _, ?_⟩
    exact Outlasts.whole.step (Int.le_refl _) (Int.le_refl _) (perform_set _ sets)
  | @step step later ih =>
    obtain ⟨begun, outlasts⟩ := ih (Nat.le_of_succ_le within)
    have moves := ordered step later within
    have counts := (leaves (step + 1) (Nat.lt_succ_of_le later) within).perform (answers (step + 1))
    exact ⟨Int.le_trans begun moves, outlasts.step begun moves counts⟩

end

/-- A timer that is set and then left alone, on a clock that never goes back, has not lost more
than there was time for after any step. A tone that lasts as long as the sound timer is not ended
early. -/
theorem timers_outlast (machine : Machine) (answers : Nat → Answers) (timer : Timer) (x : Nibble)
    (set last : Nat)
    (ordered : ∀ step, set ≤ step → step < last →
      (answers step).pollClock ≤ (answers (step + 1)).pollClock)
    (sets : (machine.after answers set).fetch.toNat = timer.opcode + 0x100 * x.val)
    (leaves : ∀ step, set < step → step ≤ last → (machine.after answers step).Leaves timer) :
    let value := ((machine.after answers set).registers.get x).toNat
    let clock := fun step => (answers step).pollClock
    let left := fun step => ((machine.after answers (step + 1)).registers.timer timer).toNat
    Countdown value clock left set last ∧
      (timer = .sound → 0 < value → ∀ step, set ≤ step → step ≤ last →
        let turn := (machine.after answers step).perform (.step (answers step))
        .endTone ∈ calls turn.events →
          clock set + ((value - 1) * 16666666 : Nat) ≤ clock step) := by
  intro value clock left
  have outlasts (step : Nat) (later : set ≤ step) (within : step ≤ last) :=
    (after_outlasts ordered sets leaves later within).2
  refine ⟨⟨fun step later within => (outlasts step later within).le_left, ?_, ?_⟩, ?_⟩
  · exact (perform_set _ sets).falls
  · intro step later within
    exact ((leaves (step + 1) (Nat.lt_succ_of_le later) within).perform _).falls
  · rintro rfl positive step later within turn ended
    have silent : turn.machine.registers.sound = 0 := by
      rcases Nat.eq_or_lt_of_le later with rfl | after
      -- The step that sets the timer to more than zero begins a tone or lets one go on.
      · refine perform_endTone _ (fun y same => ?_) ?_ ended
        · have same : y = x := Fin.ext (by omega)
          rintro none
          rw [same] at none
          exact Nat.ne_of_gt positive (congrArg UInt8.toNat none)
        · rintro ⟨resets, -⟩
          rw [resets] at sets
          change 0x0101 = 0xF018 + 0x100 * x.val at sets
          omega
      · have left := leaves step after within
        exact perform_endTone _ (fun x again => absurd again (left.unset x)) left.goesOn ended
    have gone : left step = 0 := congrArg UInt8.toNat silent
    have outlasts := outlasts step later within
    rw [show ((machine.after answers (step + 1)).registers.timer .sound).toNat = 0 from gone]
      at outlasts
    exact outlasts.late positive

/-- A program that begins a tone of five in its second step and then jumps on the spot. -/
theorem after_tone {machine : Machine} (answers : Nat → Answers)
    (counter : machine.counter = 0x200) (loads : machine.memory.readWord 0x200 = 0x6005)
    (sets : machine.memory.readWord 0x202 = 0xF018)
    (jumps : machine.memory.readWord 0x204 = 0x1204) :
    (machine.after answers 1).fetch = 0xF018 ∧
      (machine.after answers 1).registers.get 0 = 5 ∧
      ∀ step, (machine.after answers (step + 2)).fetch = 0x1204 := by
  have fetched {machine' : Machine} {place word : UInt16} (there : machine'.counter = place)
      (same : machine'.memory = machine.memory) (there' : machine.memory.readWord place = word) :
      machine'.fetch = word := by
    rw [fetch, there, same, there']
  have decoded {machine' : Machine} {word : UInt16} (instruction : Instruction)
      (found : machine'.fetch = word) (plain : Instruction.decode word = .ok instruction)
      (common : instruction.isHostExtension = false) :
      machine'.dialect.decode machine'.fetch = .ok instruction :=
    Dialect.decode_of_plain _ common (found ▸ plain)
  have first := perform_same (answers 0)
    (decoded (.loadByte 0 5) (fetched counter rfl loads) rfl rfl) (by simp)
  have counter₁ : (machine.after answers 1).counter = 0x202 :=
    first.counter.trans (congrArg (· + 2) counter)
  have found := fetched counter₁ first.memory sets
  have second := perform_same (answers 1) (decoded (.setSound 0) found rfl rfl) (by simp)
  have counter₂ : (machine.after answers 2).counter = 0x204 :=
    second.counter.trans (congrArg (· + 2) counter₁)
  -- From the third step on the program jumps on the spot.
  have spins (step : Nat) : (machine.after answers (step + 2)).counter = 0x204 ∧
      (machine.after answers (step + 2)).memory = machine.memory := by
    induction step with
    | zero => exact ⟨counter₂, second.memory.trans first.memory⟩
    | succ step ih =>
      obtain ⟨there, same⟩ := ih
      have next := perform_same (answers (step + 2))
        (decoded (.jump 0x204) (fetched there same jumps) rfl rfl) (by simp)
      exact ⟨next.counter, next.memory.trans same⟩
  refine ⟨found, ?_, fun step => fetched (spins step).1 (spins step).2 jumps⟩
  exact (congrArg (·.get 0) first.v).trans (Registers.get_set _ 0 0 5)

/-- A tone of five that begins in the second of steps twenty milliseconds apart has two left after
the fourth, and goes on in the fifth. -/
theorem timers_outlast_tone :
    let answers : Nat → Answers := fun step =>
      { resetClock := 0, pollClock := (step : Int) * 20000000, held := fun _ => false,
        rom := { bytes := #[0x60, 0x05, 0xF0, 0x18, 0x12, 0x04] }, words := .cycling #[] }
    let machine := (boot {} (answers 0)).1
    (machine.after answers 1).fetch = 0xF018 ∧
      (machine.after answers 1).registers.get 0 = 5 ∧
      2 ≤ ((machine.after answers 4).registers.timer .sound).toNat ∧
      ∀ step, 1 ≤ step → step ≤ 4 → .endTone ∉
        calls ((machine.after answers step).perform (.step (answers step))).events := by
  intro answers machine
  have loaded : machine.memory.Loaded (answers 0).rom := (fresh_pristine {} (answers 0)).memory
  obtain ⟨sets, five, spins⟩ := machine.after_tone answers rfl
    ((loaded.readWord 0x200 (by decide) (by decide) rfl rfl).trans (by decide))
    ((loaded.readWord 0x202 (by decide) (by decide) rfl rfl).trans (by decide))
    ((loaded.readWord 0x204 (by decide) (by decide) rfl rfl).trans (by decide))
  have leaves (step : Nat) (later : 1 < step) (_ : step ≤ 4) :
      (machine.after answers step).Leaves .sound := by
    obtain ⟨step, rfl⟩ := Nat.exists_eq_add_of_le' later
    constructor
    · intro x
      rw [spins step]
      change 0x1204 ≠ 0xF018 + 0x100 * x.val
      omega
    · rw [spins step]
      exact fun resets => absurd resets.1 (by decide)
  obtain ⟨countdown, ends⟩ := timers_outlast machine answers .sound 0 1 4
    (fun step _ _ => (by simp only [answers]; omega : (_ : Int) ≤ _)) (by rw [sets]; rfl) leaves
  rw [five] at countdown ends
  refine ⟨sets, five, Nat.le_trans (by decide) (countdown.slowly 3 (by decide) (by decide)), ?_⟩
  intro step later within ended
  have late : (_ : Int) ≤ _ := ends rfl (by decide) step later within ended
  simp only [answers] at late
  have brief : ((step : Nat) : Int) ≤ 4 := Int.ofNat_le.mpr within
  have long : ((UInt8.toNat 5 - 1) * 16666666 : Nat) = 66666664 := by decide
  rw [long] at late
  omega

end Machine

end Chip8
