import Chip8.Proofs.Timers
import Mathlib.Data.List.Chain
import Mathlib.Order.Bounds.Basic

/-!
# How often the gate opens

The gate may be polled at any instants, also at ones that lie before others.
It opens at the first poll that is a period after it opened last, so its
openings are a period apart, and it never looks back.

On a clock that does not go back, opening as soon as possible is also the way
to open most often. Take any polls that are a period apart. If the gate opens
at some poll, the first of them that is left comes no earlier, so the gate can
be thought to have opened for that one, and what is left after it is still a
period away.
-/
namespace Chip8

/-- Each instant is at least a period after the one before it, and the first after `start`. -/
def Spaced (start : Instant) (instants : List Instant) : Prop :=
  (start :: instants).IsChain fun early late => early + 16666666 ≤ late

namespace Spaced

variable {start first : Instant} {instants : List Instant}

theorem cons_iff : Spaced start (first :: instants) ↔
    start + 16666666 ≤ first ∧ Spaced first instants := List.isChain_cons_cons

/-- What is a period away from an instant is so from any earlier one. -/
theorem of_le {earlier : Instant} (before : earlier ≤ start) (spaced : Spaced start instants) :
    Spaced earlier instants := by
  cases instants with
  | nil => exact List.isChain_singleton earlier
  | cons first rest =>
    rw [cons_iff] at spaced ⊢
    exact ⟨Int.le_trans (Int.add_le_add_right before _) spaced.1, spaced.2⟩

/-- So many instants take up as many periods. -/
theorem le_getLastD (spaced : Spaced start instants) :
    start + (instants.length * 16666666 : Nat) ≤ instants.getLastD start := by
  induction instants generalizing start with
  | nil => exact Int.le_of_eq (Int.add_zero start)
  | cons first rest ih =>
    rw [cons_iff] at spaced
    have later := ih spaced.2
    rw [List.getLastD_cons, List.length_cons, Nat.add_one_mul, Nat.add_comm, Int.natCast_add,
      ← Int.add_assoc]
    exact Int.le_trans (Int.add_le_add_right spaced.1 _) later

end Spaced

namespace TimerGate

/-- The gate after polls one after the other. -/
def polled (gate : TimerGate) : List Instant → TimerGate
  | [] => gate
  | now :: rest => (gate.poll now).1.polled rest

/-- Those of the polls at which the gate opens. -/
def ticks (gate : TimerGate) : List Instant → List Instant
  | [] => []
  | now :: rest =>
    if (gate.poll now).2 then now :: (gate.poll now).1.ticks rest else (gate.poll now).1.ticks rest

section

variable (gate : TimerGate)

/-- A poll, by the clock. -/
theorem poll_eq (now : Instant) : gate.poll now =
    if gate.lastTick + 16666666 ≤ now then ({ lastTick := now }, true) else (gate, false) := by
  have period : framePeriod = 16666666 := rfl
  have waits (last now : Int) : (now - last).toNat < 16666666 ↔ ¬last + 16666666 ≤ now := by omega
  unfold poll
  simp only [period, waits, ite_not]

theorem polled_cons (now : Instant) (rest : List Instant) : gate.polled (now :: rest) =
    if gate.lastTick + 16666666 ≤ now then polled { lastTick := now } rest
    else gate.polled rest := by
  rw [polled, poll_eq]
  split <;> rfl

theorem ticks_cons (now : Instant) (rest : List Instant) : gate.ticks (now :: rest) =
    if gate.lastTick + 16666666 ≤ now then now :: ticks { lastTick := now } rest
    else gate.ticks rest := by
  rw [ticks, poll_eq]
  split <;> rfl

theorem polled_append (early late : List Instant) :
    gate.polled (early ++ late) = (gate.polled early).polled late := by
  induction early generalizing gate with
  | nil => rfl
  | cons now rest ih => exact ih (gate.poll now).1

theorem ticks_append (early late : List Instant) :
    gate.ticks (early ++ late) = gate.ticks early ++ (gate.polled early).ticks late := by
  induction early generalizing gate with
  | nil => rfl
  | cons now rest ih =>
    rw [List.cons_append, ticks, ticks, polled]
    split
    · rw [ih, List.cons_append]
    · exact ih _

theorem ticks_sublist (polls : List Instant) : (gate.ticks polls).Sublist polls := by
  induction polls generalizing gate with
  | nil => exact List.Sublist.refl []
  | cons now rest ih =>
    rw [ticks_cons]
    split
    · exact (ih _).cons_cons now
    · exact (ih gate).cons now

/-- The gate remembers when it opened last. -/
theorem polled_lastTick (polls : List Instant) :
    (gate.polled polls).lastTick = (gate.ticks polls).getLastD gate.lastTick := by
  induction polls generalizing gate with
  | nil => rfl
  | cons now rest ih =>
    rw [polled_cons, ticks_cons]
    split
    · rw [ih, List.getLastD_cons]
    · exact ih gate

theorem ticks_spaced (polls : List Instant) : Spaced gate.lastTick (gate.ticks polls) := by
  induction polls generalizing gate with
  | nil => exact List.isChain_singleton gate.lastTick
  | cons now rest ih =>
    rw [ticks_cons]
    split
    next due => exact Spaced.cons_iff.mpr ⟨due, ih _⟩
    next => exact ih gate

theorem lastTick_le_polled (polls : List Instant) :
    gate.lastTick + ((gate.ticks polls).length * 16666666 : Nat) ≤
      (gate.polled polls).lastTick := by
  rw [polled_lastTick]
  exact (gate.ticks_spaced polls).le_getLastD

/-- On a clock that does not go back, polls that are a period apart are never more than the
openings. -/
theorem length_le_ticks {polls chosen : List Instant} (ordered : polls.Pairwise (· ≤ ·))
    (among : chosen.Sublist polls) (spaced : Spaced gate.lastTick chosen) :
    chosen.length ≤ (gate.ticks polls).length := by
  induction polls generalizing gate chosen with
  | nil => rw [List.sublist_nil.mp among]; rfl
  | cons now rest ih =>
    obtain ⟨least, ordered⟩ := List.pairwise_cons.mp ordered
    rw [ticks_cons]
    cases chosen with
    | nil => exact Nat.zero_le _
    | cons first others =>
      obtain ⟨due, apart⟩ := Spaced.cons_iff.mp spaced
      split
      next opens =>
        -- The gate opens no later than at the first of the chosen.
        have early : now ≤ first := by
          rcases List.mem_cons.mp (among.subset List.mem_cons_self) with same | later
          · exact Int.le_of_eq same.symm
          · exact least first later
        have fewer := ih { lastTick := now } ordered among.of_cons_cons (apart.of_le early)
        exact Nat.succ_le_succ fewer
      next waits =>
        -- What the gate waits through is none of the chosen.
        have skipped : (first :: others).Sublist rest := by
          cases among with
          | cons _ later => exact later
          | cons_cons _ _ => exact absurd due waits
        exact ih gate ordered skipped spaced

end

/-- The openings of a gate are a period apart, and where the clock does not go back no choice of
polls that are a period apart has more of them. Polls before the start make no difference, as they
are in no such choice. -/
theorem ticks_most_spaced (start : Instant) (polls : List Instant) :
    let gate : TimerGate := { lastTick := start }
    let ticks := gate.ticks polls
    let last := fun polls => (gate.polled polls).lastTick
    last polls = ticks.getLastD start ∧
    (∀ later, last polls ≤ last (polls ++ later)) ∧
    (∀ now ≤ last polls, ((gate.polled polls).poll now).2 = false) ∧
    Spaced start ticks ∧
    start + (ticks.length * 16666666 : Nat) ≤ last polls ∧
    (polls.Pairwise (· ≤ ·) →
      IsGreatest {count | ∃ chosen : List Instant,
        chosen.Sublist polls ∧ Spaced start chosen ∧ chosen.length = count} ticks.length) := by
  intro gate ticks last
  refine ⟨gate.polled_lastTick polls, ?_, ?_, gate.ticks_spaced polls,
    gate.lastTick_le_polled polls, ?_⟩
  · intro later
    have moved := (gate.polled polls).lastTick_le_polled later
    rw [← polled_append] at moved
    exact Int.le_trans (Int.le_add_of_nonneg_right (Int.natCast_nonneg _)) moved
  · intro now past
    have early : now < (gate.polled polls).lastTick + 16666666 :=
      Int.lt_of_le_of_lt past (Int.lt_add_of_pos_right _ (by decide))
    rw [poll_eq, if_neg (Int.not_le.mpr early)]
  · intro ordered
    constructor
    · exact ⟨ticks, gate.ticks_sublist polls, gate.ticks_spaced polls, rfl⟩
    · rintro count ⟨chosen, among, spaced, rfl⟩
      exact gate.length_le_ticks ordered among spaced

/-- Polls that come a nanosecond too early or too late now and then. -/
theorem ticks_most_spaced_uneven :
    let polls : List Instant := [-5, 0, 16666665, 16666667, 33333332, 33333333, 33333334, 90000000]
    ({ lastTick := 0 } : TimerGate).ticks polls = [16666667, 33333333, 90000000] ∧
      polls.Pairwise (· ≤ ·) ∧
      ∀ chosen, chosen.Sublist polls → Spaced 0 chosen → chosen.length ≤ 3 := by
  intro polls
  have opened : ({ lastTick := 0 } : TimerGate).ticks polls = [16666667, 33333333, 90000000] := by
    decide
  have ordered : polls.Pairwise (· ≤ ·) := by decide
  obtain ⟨-, -, -, -, -, most⟩ := ticks_most_spaced 0 polls
  have greatest := most ordered
  rw [opened] at greatest
  exact ⟨opened, ordered, fun chosen among spaced => greatest.2 ⟨chosen, among, spaced, rfl⟩⟩

end TimerGate

end Chip8
