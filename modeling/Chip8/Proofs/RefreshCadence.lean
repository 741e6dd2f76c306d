import Chip8.Proofs.Reports
import Chip8.Proofs.Rounds
import Mathlib.Order.Bounds.Basic
import Mathlib.Order.Interval.Set.Defs
import Mathlib.Data.Nat.Count

/-!
# The cadence of refreshes

A refresh is due one period after the refresh before it was, and not one period
after it was made. So where steps are far apart the refreshes fall behind, one
for each step, and where steps are close they catch up, again one for each step.

In whole periods since the first step, what matters at each step is how many
refreshes there were and how many periods have passed. The step is followed by
a refresh if the refreshes are no more than the periods, and they are never more
than one ahead. How many there are is then the least that any earlier step, with
one refresh for each step after it, allows.
-/
namespace Chip8.Headless

namespace Run

/-- The refreshes in the rounds before round `count`. -/
def refreshes (host : Host) (limit : Option Nat) (run : Run) (count : Nat) : Nat :=
  Nat.count (fun round => (run.before host limit round).Refreshes) count

/-- Whole frame periods from the due time of a run to that of its round `count`. -/
def periods (host : Host) (limit : Option Nat) (run : Run) (count : Nat) : Int :=
  ((run.before host limit count).due - run.due) / 16666666

section

variable {host : Host} {limit : Option Nat} {run : Run} {count : Nat}

theorem refreshes_succ : run.refreshes host limit (count + 1) =
    run.refreshes host limit count + if (run.before host limit count).Refreshes then 1 else 0 :=
  Nat.count_succ _ _

theorem periods_mono (continues : (run.before host limit count).Continues host limit) :
    run.periods host limit count ≤ run.periods host limit (count + 1) := by
  obtain ⟨turn, goes⟩ := continues.goes
  have due : (_ : Int) = _ := goes.due
  have wait := Int.natCast_nonneg ((run.before host limit count).next host limit).pace.interval
  rw [periods, periods, before]
  omega

theorem periods_zero : run.periods host limit 0 = 0 := by
  simp [periods, before]

/-- The first step is always followed by a refresh. -/
theorem refreshes_one (fresh : run.refreshDue = run.due) : run.refreshes host limit 1 = 1 := by
  have first : (run.before host limit 0).Refreshes := le_of_eq fresh
  rw [refreshes_succ, if_pos first]
  rfl

variable (lasts : run.Lasts host limit count)
include lasts

/-- Each refresh put the next one off by a period. -/
theorem refreshDue_before : (run.before host limit count).refreshDue =
    run.refreshDue + 16666666 * run.refreshes host limit count := by
  induction count with
  | zero => simp [before, refreshes]
  | succ count ih =>
    obtain ⟨turn, goes⟩ := lasts.goes (Nat.lt_succ_self count)
    have earlier := ih (lasts.mono (Nat.le_succ count))
    have period : (framePeriod : Int) = 16666666 := rfl
    rw [goes.refreshDue, refreshes_succ, earlier, period]
    change (_ : Int) = _
    split
    all_goals push_cast
    all_goals omega

theorem before_shown : (run.before host limit count).frames =
    run.frames + Nat.count (fun round => (run.before host limit round).Shows host) count := by
  induction count with
  | zero => rfl
  | succ count ih =>
    obtain ⟨turn, goes⟩ := lasts.goes (Nat.lt_succ_self count)
    rw [goes.frames, ih (lasts.mono (Nat.le_succ count)), Nat.count_succ, Nat.add_assoc]

theorem periods_of_pace {pace : Pace}
    (paced : ∀ earlier < count, (run.before host limit (earlier + 1)).pace = pace) :
    run.periods host limit count = (count * pace.interval / 16666666 : Nat) := by
  have due : (_ : Int) = _ := lasts.due paced
  rw [periods]
  generalize count * pace.interval = passed at due ⊢
  omega

variable (fresh : run.refreshDue = run.due)
include fresh

theorem refreshes_iff : (run.before host limit count).Refreshes ↔
    (run.refreshes host limit count : Int) ≤ run.periods host limit count := by
  rw [Refreshes, refreshDue_before lasts, fresh, periods]
  change (_ : Int) ≤ _ ↔ _
  omega

theorem refreshes_le_periods :
    (run.refreshes host limit count : Int) ≤ run.periods host limit count + 1 := by
  induction count with
  | zero => simp [periods, refreshes, before]
  | succ count ih =>
    have before_last := lasts.mono (Nat.le_succ count)
    -- A refresh is only added where there were no more of them than periods.
    have ahead := ih before_last
    have later := periods_mono (lasts count (Nat.lt_succ_self count))
    rw [refreshes_succ]
    split
    next refreshed =>
      have behind := (refreshes_iff before_last fresh).mp refreshed
      push_cast
      omega
    next => omega

/-- A step adds a refresh until the refreshes are one more than the periods that have passed. -/
theorem refreshes_step : (run.refreshes host limit (count + 1) : Int) =
    min (run.refreshes host limit count : Int) (run.periods host limit count) + 1 := by
  have ahead := refreshes_le_periods lasts fresh
  have due := refreshes_iff lasts fresh
  rw [refreshes_succ]
  split
  next refreshed =>
    have behind := due.mp refreshed
    push_cast
    omega
  next waits =>
    have front := mt due.mpr waits
    omega

omit lasts in
/-- The least that any step up to the last, with a refresh for each step after it, allows. -/
theorem refreshes_isLeast (lasts : run.Lasts host limit (count + 1)) :
    IsLeast ((fun step : Nat => run.periods host limit step + 1 + ((count : Int) - step)) ''
      Set.Iic count) (run.refreshes host limit (count + 1)) := by
  induction count with
  | zero =>
    rw [refreshes_one fresh]
    constructor
    · exact ⟨0, Set.mem_Iic.mpr le_rfl, by dsimp only; rw [periods_zero]; rfl⟩
    · rintro _ ⟨step, first, rfl⟩
      obtain rfl : step = 0 := Nat.le_zero.mp first
      dsimp only
      rw [periods_zero]
      rfl
  | succ count ih =>
    have before_last := lasts.mono (Nat.le_succ (count + 1))
    obtain ⟨⟨tight, within, met⟩, least⟩ := ih before_last
    have step := refreshes_step before_last fresh
    dsimp only at met
    rw [Set.mem_Iic] at within
    -- The last step is tight if it waits for its period, and else whichever was before.
    constructor
    · by_cases waits :
          run.periods host limit (count + 1) < run.refreshes host limit (count + 1)
      · exact ⟨count + 1, Set.mem_Iic.mpr le_rfl, by dsimp only; omega⟩
      · exact ⟨tight, Set.mem_Iic.mpr (Nat.le_succ_of_le within), by dsimp only; push_cast; omega⟩
    · rintro _ ⟨place, early, rfl⟩
      rw [Set.mem_Iic] at early
      dsimp only
      push_cast
      rcases Nat.lt_or_eq_of_le early with early | rfl
      · have bound := least ⟨place, Nat.le_of_lt_succ early, rfl⟩
        dsimp only at bound
        omega
      · push_cast
        omega

omit lasts in
theorem refreshes_of_pace {pace : Pace} (lasts : run.Lasts host limit (count + 1))
    (paced : ∀ earlier < count, (run.before host limit (earlier + 1)).pace = pace) :
    run.refreshes host limit (count + 1) = min count (count * pace.interval / 16666666) + 1 := by
  induction count with
  | zero =>
    rw [refreshes_one fresh, Nat.zero_min]
  | succ count ih =>
    have before_last := lasts.mono (Nat.le_succ (count + 1))
    have step := refreshes_step before_last fresh
    rw [ih before_last fun earlier within => paced earlier (Nat.lt_succ_of_lt within),
      periods_of_pace before_last paced, Nat.succ_mul] at step
    rw [Nat.succ_mul]
    -- An interval of a period or more leaves no step without a refresh.
    rcases Nat.le_total pace.interval 16666666 with short | long
    · omega
    · have full := Nat.mul_le_mul_left count long
      omega

end

end Run

namespace Arguments

/-- How often a command refreshes while it goes on, how many of these refreshes find something to
show, which is what it logs at the end, and that none follows the step that ends it. -/
theorem refresh_cadence (arguments : Arguments) (rom : Rom) (streams : Nat → WordStream)
    (now : Instant) :
    let host := arguments.host rom streams
    let limit := arguments.maxCycles
    let start := arguments.start host now now
    let run := start.before host limit
    (∀ k, (∀ j ≤ k, (run j).Continues host limit) →
      (run (k + 1)).machine =
          (if (run k).Refreshes then ((run k).stepped host).refresh.1 else (run k).stepped host) ∧
        (run (k + 1)).refreshDue =
          (if (run k).Refreshes then (run k).refreshDue + 16666666 else (run k).refreshDue) ∧
        IsLeast ((fun j : Nat => start.periods host limit j + 1 + ((k : Int) - j)) '' Set.Iic k)
          (start.refreshes host limit (k + 1)) ∧
        ∀ pace : Pace, (∀ j < k, (run (j + 1)).pace = pace) →
          start.refreshes host limit (k + 1) = min k (k * pace.interval / 16666666) + 1) ∧
    ∀ budget ending final, start.rounds host limit budget = some (ending, final) →
      ∃ count, (∀ j < count, (run j).Continues host limit) ∧
        (run count).round host limit (run count).onTime = .ended ending final ∧
        final.frames = Nat.count (fun j => (run j).Shows host) count ∧
        final.frames ≤ start.refreshes host limit count ∧
        final.refreshDue = (run count).refreshDue ∧
        (ending ≠ .limit → final.machine = (run count).stepped host) ∧
        ∀ system directory, (arguments.finish system directory ending final).1.failure = none →
          ∃ line, (arguments.finish system directory ending final).1.lines.getLast? = some line ∧
            line.level = .info ∧
            line.shown = toString final.cycles ++ " cycles, " ++ toString final.frames
              ++ " frames drawn\n" := by
  intro host limit start run
  obtain ⟨-, -, due, refreshDue, -, frames⟩ := arguments.start_keeps host now now
  have fresh : start.refreshDue = start.due := refreshDue.trans due.symm
  constructor
  · intro k continues
    obtain ⟨turn, goes⟩ := (continues k le_rfl).goes
    have lasts : start.Lasts host limit (k + 1) := fun j within =>
      continues j (Nat.le_of_lt_succ within)
    refine ⟨?_, ?_, Run.refreshes_isLeast fresh lasts,
      fun pace => Run.refreshes_of_pace fresh lasts⟩
    · rw [Run.stepped_of_ok goes.step]
      exact goes.machine
    · exact goes.refreshDue
  · intro budget ending final ended
    obtain ⟨count, lasts, last⟩ := Run.exists_last_round ended
    obtain ⟨shown, kept, machine, -⟩ := Run.ended_keeps last
    have drawn : final.frames = Nat.count (fun j => (run j).Shows host) count := by
      rw [shown, Run.before_shown lasts, frames, Nat.zero_add]
    have fewer : Nat.count (fun j => (run j).Shows host) count ≤ start.refreshes host limit count :=
      Nat.count_mono_left fun j _ shows => shows.1
    exact ⟨count, lasts, last, drawn, drawn.trans_le fewer, kept, machine,
      fun system directory well => ⟨_, finish_summary well, rfl, Line.shown_summary _ _⟩⟩

/-- Three jumps on the spot at a hundred steps a second are followed by two refreshes. -/
theorem refresh_cadence_spinning :
    let arguments : Arguments :=
      { rom := "spin", pace := ⟨100, by decide⟩, maxCycles := some 3, seed := none, dump := none,
        dialect := {} }
    let rom : Rom := { bytes := #[0x12, 0x00] }
    let host := arguments.host rom fun _ => .cycling #[]
    let start := arguments.start host 0 0
    let run := start.before host (some 3)
    (∀ j ≤ 2, (run j).Continues host (some 3)) ∧
      start.refreshes host (some 3) 3 = 2 ∧
      ∃ final, start.rounds host (some 3) 4 = some (.limit, final) ∧ final.frames ≤ 2 := by
  intro arguments rom host start run
  obtain ⟨machine, pace, -, -, none, -⟩ := arguments.start_keeps host 0 0
  have decoded (dialect : Dialect) : dialect.decode 0x1200 = .ok (.jump 0x200) := rfl
  have spins : start.Spins := by
    have fetched : start.machine.fetch = 0x1200 := by
      rw [machine]
      simp only [host, arguments, rom, Arguments.host, Host.answers, Machine.fresh, Machine.fetch,
        Memory.readWord, Memory.read, get_eq_getElem, Memory.load, Memory.blank,
        Vector.getElem_mapIdx, Vector.getElem_replicate]
      decide
    have counter : start.machine.counter = 0x200 := by
      rw [machine]
      rfl
    refine ⟨0x200, counter, ?_⟩
    rw [fetched]
    exact decoded _
  have spinning (count : Nat) (within : count ≤ 3) : (run count).pace = start.pace ∧
      (run count).cycles = count ∧ ∀ earlier < count, (run earlier).Continues host (some 3) := by
    have few : ∀ most ∈ some 3, start.cycles + count ≤ most := by
      intro most limited
      cases limited
      rw [none, Nat.zero_add]
      exact within
    obtain ⟨-, -, paced, counted, continues⟩ := Run.before_spins host count spins few
    exact ⟨paced, by rw [counted, none, Nat.zero_add], continues⟩
  obtain ⟨cadence, counts⟩ := refresh_cadence arguments rom (fun _ => .cycling #[]) 0
  have continues : ∀ j ≤ 2, (run j).Continues host (some 3) := fun j within =>
    (spinning 3 le_rfl).2.2 j (Nat.lt_succ_of_le within)
  obtain ⟨-, -, -, refreshes⟩ := cadence 2 continues
  have paced : ∀ j < 2, (run (j + 1)).pace = arguments.pace := fun j within =>
    (spinning (j + 1) (Nat.le_succ_of_le within)).1.trans pace
  have twice : start.refreshes host (some 3) 3 = 2 :=
    (refreshes arguments.pace paced).trans (by decide)
  obtain ⟨-, counted, early⟩ := spinning 3 le_rfl
  have last : (run 3).round host (some 3) (run 3).onTime =
      .ended .limit ((run 3).say (.limitReached (run 3).cycles)) :=
    Run.round_limit rfl (Nat.le_of_eq counted.symm)
  have ended : start.rounds host (some 3) 4 =
      some (.limit, (run 3).say (.limitReached (run 3).cycles)) :=
    Run.rounds_of_last early last
  refine ⟨continues, twice, _, ended, ?_⟩
  obtain ⟨count, early', last', -, fewer, -⟩ := counts 4 _ _ ended
  -- The run ends with the round after the third jump and no other.
  rcases Nat.lt_trichotomy count 3 with less | rfl | more
  · obtain ⟨later, going⟩ := early count less
    cases going.symm.trans last'
  · exact fewer.trans_eq twice
  · obtain ⟨later, going⟩ := early' 3 more
    cases going.symm.trans last

end Arguments

end Chip8.Headless
