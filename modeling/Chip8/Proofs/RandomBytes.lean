import Chip8.Proofs.CellValues
import Chip8.Proofs.Transfers

/-!
# Random bytes

A random number below a bound is the whole part of the bound times a fraction
between zero and one, of which the words of the stream are the digits. One digit
settles the number unless the product is so close to the next one that a further
digit could carry it there, and then two do. As the fraction stays below one, the
number stays below the bound, whether or not there was a carry.

One instruction asks for such a number, and no other has to do with the stream.
So a run that nothing starts over takes words from the front of the stream, for
one number after the other, and how many it takes depends on how many numbers it
asks for. What the stream holds after them makes no difference to the run.
-/
namespace Chip8

namespace WordStream

/-- The low half of the product is so near its end that a further word could carry over it. -/
def Uncertain (bound : Nat) (first : UInt32) : Prop :=
  4294967296 - bound < first.toNat * bound % 4294967296

instance (bound : Nat) (first : UInt32) : Decidable (Uncertain bound first) :=
  inferInstanceAs (Decidable (_ < _))

/-- How many words a number takes, which the first of them decides. -/
def cost (bound : Nat) (first : UInt32) : Nat := if Uncertain bound first then 2 else 1

/-- A further word carries over the low half of the product of the first one. -/
def Carries (bound : Nat) (first second : UInt32) : Prop :=
  4294967296 ≤ first.toNat * bound % 4294967296 + second.toNat * bound / 4294967296

instance (bound : Nat) (first second : UInt32) : Decidable (Carries bound first second) :=
  inferInstanceAs (Decidable (_ ≤ _))

/-- The number that two words make: the high half of the product of the first one, with the carry
if there may be one. -/
def scaled (bound : Nat) (first second : UInt32) : Nat :=
  first.toNat * bound / 4294967296 +
    if Uncertain bound first ∧ Carries bound first second then 1 else 0

section

variable (stream : WordStream) (bound : Nat)

/-- The word that so many others come before. -/
def ahead (offset : Nat) : UInt32 := stream.word (stream.used + offset)

/-- The stream when so many more words are taken. -/
def skip (count : Nat) : WordStream := { stream with used := stream.used + count }

/-- How many words so many numbers take, one after the other. -/
def spent (stream : WordStream) (bound : Nat) : Nat → Nat
  | 0 => 0
  | count + 1 =>
    let first := cost bound (stream.ahead 0)
    first + (stream.skip first).spent bound count

theorem ahead_skip (count offset : Nat) :
    (stream.skip count).ahead offset = stream.ahead (count + offset) := by
  rw [ahead, skip, Nat.add_assoc, ahead]

theorem skip_skip (first second : Nat) :
    (stream.skip first).skip second = stream.skip (first + second) := by
  simp only [skip, Nat.add_assoc]

theorem spent_one : stream.spent bound 1 = cost bound (stream.ahead 0) := rfl

/-- Later numbers take their words from where the earlier ones left off. -/
theorem spent_add (early late : Nat) : stream.spent bound (early + late) =
    stream.spent bound early + (stream.skip (stream.spent bound early)).spent bound late := by
  induction early generalizing stream with
  | zero => rw [Nat.zero_add, spent, Nat.zero_add]; rfl
  | succ early ih =>
    rw [Nat.succ_add, spent, spent, ih, skip_skip, Nat.add_assoc]

theorem below_eq : stream.below bound =
    (scaled bound (stream.ahead 0) (stream.ahead 1),
      stream.skip (cost bound (stream.ahead 0))) := by
  by_cases uncertain : Uncertain bound (stream.ahead 0)
  · simp only [scaled, cost, uncertain, true_and, if_true]
    exact if_pos uncertain
  · simp only [scaled, cost, uncertain, false_and, if_false]
    exact if_neg uncertain

end

section

variable {bound : Nat} {first second : UInt32}

/-- Without a second word there would have been no carry, so it may as well be counted always. -/
theorem scaled_eq (positive : 0 < bound) (small : bound ≤ 4294967296) :
    scaled bound first second =
      bound * (first.toNat * 4294967296 + second.toNat) / 18446744073709551616 := by
  have further : second.toNat * bound / 4294967296 < bound :=
    Nat.div_lt_of_lt_mul (Nat.mul_lt_mul_of_pos_right second.toNat_lt positive)
  have whole : bound * (first.toNat * 4294967296 + second.toNat) / 18446744073709551616 =
      (first.toNat * bound + second.toNat * bound / 4294967296) / 4294967296 := by
    have split : bound * (first.toNat * 4294967296 + second.toNat) =
        4294967296 * (first.toNat * bound) + second.toNat * bound := by
      rw [Nat.mul_add, Nat.mul_comm second.toNat, ← Nat.mul_assoc, Nat.mul_comm bound,
        Nat.mul_comm 4294967296]
    rw [split, ← Nat.mul_add_div (by decide : 0 < 4294967296), Nat.div_div_eq_div_mul]
  rw [whole, scaled]
  by_cases carried : Uncertain bound first ∧ Carries bound first second
  · rw [if_pos carried]
    have carries := carried.2
    rw [Carries] at carries
    omega
  -- Where the second word is not taken, it is too short to carry.
  · rw [if_neg carried]
    rw [Uncertain, Carries] at carried
    omega

theorem scaled_lt (positive : 0 < bound) (small : bound ≤ 4294967296) :
    scaled bound first second < bound := by
  have digits : first.toNat * 4294967296 + second.toNat < 18446744073709551616 := by
    have high := first.toNat_lt
    have low := second.toNat_lt
    omega
  rw [scaled_eq positive small]
  refine Nat.div_lt_of_lt_mul ?_
  rw [Nat.mul_comm]
  exact Nat.mul_lt_mul_of_pos_right digits positive

/-- Every number below the bound has a word that settles it. -/
theorem exists_scaled {number : Nat} (below : number < bound) (small : bound ≤ 2147483648) :
    ∃ first, cost bound first = 1 ∧ ∀ second, scaled bound first second = number := by
  have positive : 0 < bound := Nat.zero_lt_of_lt below
  -- The least word whose product reaches the number reaches it by less than the bound.
  let word := (number * 4294967296 + (bound - 1)) / bound
  have reached : word * bound + (number * 4294967296 + (bound - 1)) % bound =
      number * 4294967296 + (bound - 1) := by
    rw [Nat.mul_comm]
    exact Nat.div_add_mod _ _
  have rest : (number * 4294967296 + (bound - 1)) % bound < bound := Nat.mod_lt _ positive
  have short : word < 4294967296 := by
    refine Nat.div_lt_of_lt_mul ?_
    have below : (number + 1) * 4294967296 ≤ bound * 4294967296 := Nat.mul_le_mul_right _ below
    omega
  have value : (UInt32.ofNat word).toNat = word := UInt32.toNat_ofNat_of_lt short
  have settled : ¬Uncertain bound (UInt32.ofNat word) := by
    rw [Uncertain, value]
    omega
  refine ⟨UInt32.ofNat word, if_neg settled, fun second => ?_⟩
  rw [scaled, if_neg fun carried => settled carried.1, value]
  omega

end

section

variable (stream : WordStream) (word : Nat → UInt32) {bound : Nat}

/-- The stream with other words, of which as many are taken. -/
def rewritten : WordStream := { stream with word }

/-- A number does not depend on words that it does not take. -/
theorem below_rewritten
    (alike : ∀ offset < cost bound (stream.ahead 0),
      (stream.rewritten word).ahead offset = stream.ahead offset) :
    (stream.rewritten word).below bound =
      ((stream.below bound).1, (stream.below bound).2.rewritten word) := by
  have taken : 0 < cost bound (stream.ahead 0) := by
    rw [cost]
    split <;> decide
  have number (uncertain : Uncertain bound (stream.ahead 0)) :
      (stream.rewritten word).ahead 1 = stream.ahead 1 := by
    refine alike 1 ?_
    rw [cost, if_pos uncertain]
    decide
  rw [below_eq, below_eq, alike 0 taken, scaled, scaled]
  by_cases uncertain : Uncertain bound (stream.ahead 0)
  · rw [number uncertain]
    rfl
  · simp only [uncertain, false_and, if_false]
    rfl

end

end WordStream

namespace Instruction

theorem decode_random_iff {opcode : UInt16} :
    (∃ x kk, decode opcode = .ok (.random x kk)) ↔ opcode.toNat / 0x1000 = 0xC := by
  have nibbles := toNat_eq_nibbles opcode
  constructor
  · rintro ⟨x, kk, decoded⟩
    have coded := code_of_decode decoded
    have bound := x.isLt
    have bound' := kk.toNat_lt
    simp only [code] at coded
    omega
  · intro family
    have family : nibble opcode 3 = 0xC := Fin.ext (by change _ = 12; omega)
    exact ⟨_, _, by rw [decode, family]; rfl⟩

theorem drawsWords_iff {instruction : Instruction} :
    instruction.drawsWords = true ↔ ∃ x kk, instruction = .random x kk := by
  cases instruction <;> simp [drawsWords]

end Instruction

namespace Machine

/-- How many random bytes an operation asks for. Only opcodes of the form Cxkk do. -/
def roll (machine : Machine) : Operation → Nat
  | .step _ => if machine.fetch.toNat / 0x1000 = 0xC then 1 else 0
  | .reset _ | .refresh => 0

/-- How many random bytes a run asks for. -/
def rolls (machine : Machine) : List Operation → Nat
  | [] => 0
  | operation :: rest =>
    machine.roll operation + (machine.perform operation).machine.rolls rest

/-- The machine with other words in its stream, of which as many are taken. -/
def hearing (machine : Machine) (word : Nat → UInt32) : Machine :=
  { machine with words := machine.words.rewritten word }

end Machine

def Turn.hearing (turn : Turn) (word : Nat → UInt32) : Turn :=
  { turn with machine := turn.machine.hearing word }

def Response.hearing (response : Response) (word : Nat → UInt32) : Response :=
  { response with machine := response.machine.hearing word }

def History.hearing (history : History) (word : Nat → UInt32) : History :=
  { history with machine := history.machine.hearing word }

namespace Machine

section

variable {answers : Answers} {machine : Machine} {instruction : Instruction}

theorem execute_random (x : Nibble) (kk : UInt8) :
    let first := machine.words.ahead 0
    let byte := WordStream.scaled 255 first (machine.words.ahead 1)
    (execute answers machine (.random x kk)).machine =
      { machine.set x (UInt8.ofNat byte &&& kk) with
        words := machine.words.skip (WordStream.cost 255 first) } := by
  simp only [execute, WordStream.below_eq]

/-- A step takes the words of one number or none. -/
theorem obey_words (hard : instruction ≠ .softReset) :
    (machine.obey answers instruction).machine.words =
      machine.words.skip
        (machine.words.spent 255 (if instruction.drawsWords = true then 1 else 0)) := by
  by_cases leaves : instruction = .exit
  · rw [leaves]
    rfl
  rw [(obey_same answers machine instruction leaves).words]
  by_cases rolls : instruction.drawsWords = true
  · obtain ⟨x, kk, rfl⟩ := Instruction.drawsWords_iff.mp rolls
    rw [execute_random, if_pos rolls, WordStream.spent_one]
    rfl
  · rw [execute_words answers machine.advanced hard (Bool.eq_false_iff.mpr rolls),
      if_neg rolls]
    rfl

theorem roll_decoded (decoded : machine.dialect.decode machine.fetch = .ok instruction) :
    machine.roll (.step answers) = if instruction.drawsWords = true then 1 else 0 := by
  have plain := (Dialect.decode_eq_ok_iff.mp decoded).1
  have same : machine.fetch.toNat / 0x1000 = 0xC ↔ instruction.drawsWords = true := by
    rw [← Instruction.decode_random_iff, Instruction.drawsWords_iff, plain]
    simp only [Except.ok.injEq]
  simp only [roll, same]

theorem roll_refused {fault : Fault}
    (refused : machine.dialect.decode machine.fetch = .error fault) :
    machine.roll (.step answers) = 0 := by
  refine if_neg fun family => ?_
  obtain ⟨x, kk, decoded⟩ := Instruction.decode_random_iff.mpr family
  rw [machine.dialect.decode_of_plain rfl decoded] at refused
  cases refused

/-- An operation that does not start the machine over takes the words of one number or none. -/
theorem perform_words {operation : Operation} (goesOn : ¬machine.Restarts operation) :
    (machine.perform operation).machine.words =
      machine.words.skip (machine.words.spent 255 (machine.roll operation)) := by
  cases operation with
  | reset answers => exact absurd trivial goesOn
  | refresh =>
    change machine.refresh.1.words = _
    rw [refresh_eq]
    rfl
  | step answers =>
    cases decoded : machine.dialect.decode machine.fetch with
    | error fault =>
      rw [roll_refused decoded, perform_error (step_refused answers decoded)]
      rfl
    | ok instruction =>
      have hard : instruction ≠ .softReset := by
        rintro rfl
        exact goesOn (restarts_iff.mpr decoded)
      rw [roll_decoded decoded, perform_ok (step_decoded answers decoded)]
      exact obey_words hard

theorem run_words {operations : List Operation} (unbroken : machine.Unbroken operations) :
    (machine.run operations).machine.words =
      machine.words.skip (machine.words.spent 255 (machine.rolls operations)) := by
  induction operations generalizing machine with
  | nil => rfl
  | cons operation rest ih =>
    change ((machine.perform operation).machine.run rest).machine.words = _
    rw [ih unbroken.2, perform_words unbroken.1, rolls, WordStream.spent_add,
      WordStream.skip_skip]

end

section

variable (answers : Answers) (machine : Machine) (word : Nat → UInt32)

theorem skipIf_hearing (condition : Bool) :
    (machine.hearing word).skipIf condition = (machine.skipIf condition).hearing word := by
  cases condition <;> rfl

theorem tick_hearing (now : Instant) : (machine.hearing word).tick now =
    ((machine.tick now).1.hearing word, (machine.tick now).2) := by
  simp only [tick, hearing]
  split <;> rfl

theorem refresh_hearing : (machine.hearing word).refresh =
    (machine.refresh.1.hearing word, machine.refresh.2) := by
  cases dirty : machine.plane.dirty with
  | false => simp only [refresh, hearing, dirty, Bool.false_eq_true, if_false]
  | true => simp only [refresh, hearing, dirty, if_true]

variable {instruction : Instruction} {machine word}

/-- The words that an instruction does not take make no difference to it. -/
theorem execute_hearing (hard : instruction ≠ .softReset)
    (alike : instruction.drawsWords = true →
      ∀ offset < WordStream.cost 255 (machine.words.ahead 0),
        (machine.words.rewritten word).ahead offset = machine.words.ahead offset) :
    execute answers (machine.hearing word) instruction =
      (execute answers machine instruction).hearing word := by
  have turned {one other : Machine} (events : List Event) (same : one = other.hearing word) :
      ({ machine := one, events } : Turn) = Turn.hearing { machine := other, events } word := by
    rw [same]
    rfl
  cases instruction with
  | softReset => exact absurd rfl hard
  | skipIfByte | skipUnlessByte | skipIfEqual | skipUnlessEqual | skipIfKey | skipUnlessKey =>
    exact turned _ (skipIf_hearing machine word _)
  | random x kk =>
    have number : (machine.hearing word).words.below 255 = _ :=
      machine.words.below_rewritten word (alike rfl)
    simp only [execute, number]
    rfl
  | awaitKey x =>
    simp only [execute, awaitKey]
    split <;> rfl
  | loadRegisters x =>
    apply turned
    rw [loadRegisters_eq machine]
    rfl
  | _ => rfl

theorem obey_hearing (hard : instruction ≠ .softReset)
    (alike : instruction.drawsWords = true →
      ∀ offset < WordStream.cost 255 (machine.words.ahead 0),
        (machine.words.rewritten word).ahead offset = machine.words.ahead offset) :
    (machine.hearing word).obey answers instruction =
      (machine.obey answers instruction).hearing word :=
  @obey_exchanged (·.hearing word) answers machine instruction ⟨rfl, rfl⟩ rfl
    (fun later => tick_hearing later word answers.pollClock)
    (@execute_hearing answers machine.advanced word instruction hard alike)

theorem perform_hearing {operation : Operation} (goesOn : ¬machine.Restarts operation)
    (alike : ∀ offset < machine.words.spent 255 (machine.roll operation),
      (machine.words.rewritten word).ahead offset = machine.words.ahead offset) :
    (machine.hearing word).perform operation =
      (machine.perform operation).hearing word := by
  cases operation with
  | reset answers => exact absurd trivial goesOn
  | refresh =>
    simp only [perform, refresh_hearing]
    rfl
  | step answers =>
    cases decoded : machine.dialect.decode machine.fetch with
    | error fault =>
      have decoded' : (machine.hearing word).dialect.decode (machine.hearing word).fetch =
          .error fault := decoded
      rw [perform_error (step_refused answers decoded), perform_error (step_refused answers decoded')]
      rfl
    | ok instruction =>
      have decoded' : (machine.hearing word).dialect.decode (machine.hearing word).fetch =
          .ok instruction := decoded
      have hard : instruction ≠ .softReset := by
        rintro rfl
        exact goesOn (restarts_iff.mpr decoded)
      rw [roll_decoded decoded] at alike
      have obeyed := @obey_hearing answers machine word instruction hard fun rolls => by
        rwa [if_pos rolls, WordStream.spent_one] at alike
      rw [perform_ok (step_decoded answers decoded), perform_ok (step_decoded answers decoded'), obeyed]
      rfl

/-- A run does not depend on words that it does not take. -/
theorem run_hearing {operations : List Operation} (unbroken : machine.Unbroken operations)
    (alike : ∀ offset < machine.words.spent 255 (machine.rolls operations),
      (machine.words.rewritten word).ahead offset = machine.words.ahead offset) :
    (machine.hearing word).run operations = (machine.run operations).hearing word := by
  induction operations generalizing machine with
  | nil => rfl
  | cons operation rest ih =>
    rw [rolls, WordStream.spent_add] at alike
    have now := perform_hearing unbroken.1 fun offset early =>
      alike offset (Nat.lt_add_right _ early)
    -- The rest of the run takes its words from behind those of the first operation.
    have later := @ih (machine.perform operation).machine unbroken.2 fun offset within => by
      rw [perform_words unbroken.1] at within ⊢
      rw [WordStream.ahead_skip, ← alike _ (Nat.add_lt_add_left within _)]
      exact (machine.words.rewritten word).ahead_skip _ offset
    simp only [run, now, Response.hearing, later]
    rfl

end

/-- A random byte is what the next words of the stream make of a bound of 255, cut by a mask: at
most 254, and any number up to that for some word. It takes one word or two, and nothing else takes
any. So the words of a run that nothing starts over are the first ones of the stream, as many as its
random bytes need, and the run is the same on any other stream that begins with them. -/
theorem random_bytes_in_order (machine : Machine) :
    (∀ first second : UInt32, WordStream.scaled 255 first second ≤ 254 ∧
      WordStream.scaled 255 first second =
        255 * (first.toNat * 4294967296 + second.toNat) / 18446744073709551616) ∧
    (∀ number ≤ 254, ∃ first, WordStream.cost 255 first = 1 ∧
      ∀ second, WordStream.scaled 255 first second = number) ∧
    (∀ (answers : Answers) (x : Nibble) (kk : UInt8),
      machine.fetch.toNat = 0xC000 + 0x100 * x.val + kk.toNat →
      let first := machine.words.ahead 0
      let byte := WordStream.scaled 255 first (machine.words.ahead 1)
      let response := machine.perform (.step answers)
      response.reply = .stepped .running ∧
        response.machine.registers.get x = UInt8.ofNat byte &&& kk ∧
        response.machine.words = machine.words.skip (WordStream.cost 255 first)) ∧
    (∀ operation, ¬machine.Restarts operation → machine.roll operation = 0 →
      (machine.perform operation).machine.words = machine.words) ∧
    ∀ operations, machine.Unbroken operations →
      let length := machine.words.spent 255 (machine.rolls operations)
      (machine.run operations).machine.words = machine.words.skip length ∧
      ∀ word : Nat → UInt32,
        (∀ offset < length, word (machine.words.used + offset) = machine.words.ahead offset) →
          (machine.hearing word).run operations = (machine.run operations).hearing word := by
  refine ⟨fun first second => ?_, fun number below => ?_, fun answers x kk rolls => ?_,
    fun operation goesOn other => ?_, fun operations unbroken => ?_⟩
  · exact ⟨Nat.le_of_lt_succ (WordStream.scaled_lt (by decide) (by decide)),
      WordStream.scaled_eq (by decide) (by decide)⟩
  · exact WordStream.exists_scaled (Nat.lt_succ_of_le below) (by decide)
  · have decoded : machine.dialect.decode machine.fetch = .ok (.random x kk) :=
      Instruction.permitted_of_code machine.dialect 0 rfl rolls
    have same := perform_same answers decoded (by simp)
    rw [execute_random] at same
    refine ⟨?_, ?_, same.words⟩
    · simp only [perform_ok (step_decoded answers decoded),
        obey_running answers machine (.random x kk) (by simp)]
    · refine (congrArg (·.get x) same.v).trans ?_
      exact (Registers.get_set ..).trans (if_pos rfl)
  · rw [perform_words goesOn, other]
    rfl
  · exact ⟨run_words unbroken, fun word alike => run_hearing unbroken alike⟩

/-- A program that is shown and then asks for a random byte. -/
theorem rolls_after_refresh {machine : Machine} (answers : Answers)
    (asks : machine.fetch.toNat / 0x1000 = 0xC) :
    machine.Unbroken [.refresh, .step answers] ∧ machine.rolls [.refresh, .step answers] = 1 := by
  have refreshed : (machine.perform .refresh).machine.fetch = machine.fetch := by
    change machine.refresh.1.fetch = _
    rw [refresh_eq]
    rfl
  refine ⟨⟨id, ?_, trivial⟩, ?_⟩
  · rintro ⟨restarts, -⟩
    rw [refreshed] at restarts
    rw [restarts] at asks
    exact absurd asks (by decide)
  · simp only [rolls, roll, refreshed, asks, if_true]

/-- A byte for which the second word carries, out of a stream that begins in the middle, and any
byte from a single word. -/
theorem random_bytes_in_order_carry :
    let answers : Answers :=
      { resetClock := 0, pollClock := 0, held := fun _ => false, rom := { bytes := #[] },
        words := .cycling #[] }
    let words : WordStream :=
      { word := fun place => if place = 3 then 0x01010101 else 0xFFFFFFFF, used := 3 }
    let machine : Machine :=
      { fresh {} answers with memory := Memory.blank.writeFrom 0x200 [0xC7, 0x0F], words }
    let word : Nat → UInt32 := fun place => if place < 5 then words.word place else 0
    let operations : List Operation := [.refresh, .step answers]
    machine.fetch.toNat = 0xC70F ∧
      (machine.perform (.step answers)).machine.registers.get 7 = 1 ∧
      (machine.perform (.step answers)).machine.words = words.skip 2 ∧
      (∃ first, WordStream.cost 255 first = 1 ∧ WordStream.scaled 255 first 0 = 254) ∧
      (machine.perform .refresh).machine.words = words ∧
      (machine.run operations).machine.words = words.skip 2 ∧
      (machine.hearing word).run operations = (machine.run operations).hearing word := by
  intro answers words machine word operations
  have fetched : machine.fetch.toNat = 0xC70F :=
    congrArg UInt16.toNat (Memory.readWord_writeFrom Memory.blank 0x200 0xC7 0x0F)
  obtain ⟨unbroken, rolls⟩ :=
    @rolls_after_refresh machine answers (by rw [fetched])
  have uncertain : WordStream.cost 255 (machine.words.ahead 0) = 2 := by decide
  have length : machine.words.spent 255 (machine.rolls operations) = 2 := by
    rw [rolls, WordStream.spent_one, uncertain]
  have carried : WordStream.scaled 255 (machine.words.ahead 0) (machine.words.ahead 1) = 1 := by
    decide
  obtain ⟨-, every, steps, others, runs⟩ := random_bytes_in_order machine
  obtain ⟨-, stored, taken⟩ := steps answers 7 0x0F fetched
  obtain ⟨left, alike⟩ := runs operations unbroken
  obtain ⟨first, single, settled⟩ := every 254 (by decide)
  rw [uncertain] at taken
  rw [carried] at stored
  rw [length] at left alike
  refine ⟨fetched, stored.trans (by decide), taken, ⟨first, single, settled 0⟩,
    others .refresh id rfl, left, alike word fun offset within => ?_⟩
  exact if_pos (Nat.add_lt_add_left within 3)

end Machine

end Chip8
