import Chip8.Headless.Report

/-!
# What a report shows

A report has the lines of its run and at most two more: where the dump went and,
if nothing failed, how many cycles and frames there were. The last of these is
shown as it is, since nothing in it steers a terminal.

Whether anything failed after the run is a matter of the dump: that none was
wanted, that there is no place for it, that the disk does not take it, or that
it is there. Only in the first and the last case does the end of the run decide.
-/
namespace Chip8

namespace ControlSequence

theorem visibleFrom_printable {text : List Char} (isOpen : Bool)
    (printable : ∀ c ∈ text, isPrintable c = true) : visibleFrom .plain isOpen text = text := by
  induction text generalizing isOpen with
  | nil => rfl
  | cons c rest ih =>
    have shown : State.plain.shows c = true := printable c List.mem_cons_self
    rw [visibleFrom, shown, Bool.true_or, if_pos rfl, ite_self,
      ih true fun later member => printable later (List.mem_cons_of_mem c member)]

end ControlSequence

namespace Headless

open ControlSequence

namespace Line

theorem indented_flat {text : List Char} (flat : ∀ c ∈ text, c ≠ '\n') : indented text = text := by
  induction text with
  | nil => rfl
  | cons c rest ih =>
    have same := ih fun later member => flat later (List.mem_cons_of_mem c member)
    rw [indented, List.flatMap_cons, if_neg (flat c List.mem_cons_self)]
    exact congrArg (c :: ·) same

/-- A single line without anything that steers a terminal is shown as it is. -/
theorem shown_printable {line : Line}
    (printable : ∀ c ∈ line.text.toList, isPrintable c = true ∧ c ≠ '\n') :
    line.shown = line.text ++ "\n" := by
  have flat := indented_flat fun c member => (printable c member).2
  have all : ∀ c ∈ line.text.toList ++ ['\n'], isPrintable c = true := by
    intro c member
    rcases List.mem_append.mp member with inside | last
    · exact (printable c inside).1
    · rw [List.mem_singleton.mp last]
      rfl
  rw [shown, flat, visible, visibleFrom_printable false all, String.ofList_append,
    String.ofList_toList]

theorem printable_of_isDigit {c : Char} (digit : c.isDigit = true) :
    isPrintable c = true ∧ c ≠ '\n' := by
  have bounds : 48 ≤ c.val ∧ c.val ≤ 57 := by simpa [Char.isDigit] using digit
  have blank : ' ' ≤ c := UInt32.le_trans (by decide) bounds.1
  constructor
  · have other : c ≠ '\x7f' := by
      rintro rfl
      exact absurd bounds.2 (by decide)
    simp [isPrintable, blank, other]
  · rintro rfl
    exact absurd bounds.1 (by decide)

theorem shown_summary (cycles frames : Nat) : (summary cycles frames).shown =
    toString cycles ++ " cycles, " ++ toString frames ++ " frames drawn\n" := by
  have digits (number : Nat) : ∀ c ∈ (toString number).toList, isPrintable c = true ∧ c ≠ '\n' := by
    intro c member
    rw [Nat.toString_eq_repr, Nat.toList_repr] at member
    exact printable_of_isDigit (Nat.isDigit_of_mem_toDigits (by decide) (by decide) member)
  have words : (" cycles, ".toList ++ " frames drawn".toList).all
      (fun c => decide (isPrintable c = true ∧ c ≠ '\n')) = true := by decide +kernel
  have words := fun c member => of_decide_eq_true (List.all_eq_true.mp words c member)
  -- Digits and these words: nothing that a terminal acts on, and no line break.
  have said : (summary cycles frames).text =
      toString cycles ++ " cycles, " ++ toString frames ++ " frames drawn" := rfl
  have printable : ∀ c ∈ (summary cycles frames).text.toList,
      isPrintable c = true ∧ c ≠ '\n' := by
    intro c member
    simp only [said, String.toList_append, List.mem_append, or_assoc] at member
    rcases member with digit | word | digit | word
    · exact digits cycles c digit
    · exact words c (List.mem_append_left _ word)
    · exact digits frames c digit
    · exact words c (List.mem_append_right _ word)
  rw [shown_printable printable, said, String.append_assoc]
  rfl

end Line

namespace Arguments

variable {arguments : Arguments} {system : System} {directory : Directory} {ending : Ending}
  {run : Run}

theorem conclude_exitCode :
    (conclude run ending).exitCode = 0 ↔ ending = .limit ∨ ending = .exited := by
  cases ending <;> simp [conclude, Report.exitCode]

theorem finish_undemanded (unwanted : arguments.dump = none) :
    arguments.finish system directory ending run = (conclude run ending, directory) := by
  simp only [finish, unwanted]

section

variable {path : String} {names : List String} {cause : FileFault} (wanted : path ∈ arguments.dump)
include wanted

/-- Where the dump has no place, nothing is written. -/
theorem finish_uncreated (refused : directory.creatable path = .error cause) :
    arguments.finish system directory ending run =
      (undumped run (.uncreatableDump path cause), directory) := by
  simp only [finish, Option.mem_def.mp wanted, refused]

variable (created : directory.creatable path = .ok names)
include created

theorem finish_unwritten {kept : Nat}
    (failed : system.disk (arguments.dumpBytes (system.calendar run) run).data.size =
      some (kept, cause)) :
    arguments.finish system directory ending run =
      (undumped run (.unwrittenDump cause), directory.write names
        ((arguments.dumpBytes (system.calendar run) run).data.take kept)) := by
  simp only [finish, Option.mem_def.mp wanted, created, failed]

theorem finish_dumped
    (taken : system.disk (arguments.dumpBytes (system.calendar run) run).data.size = none) :
    arguments.finish system directory ending run =
      (conclude (run.say (.dumped path)) ending,
        directory.write names (arguments.dumpBytes (system.calendar run) run).data) := by
  simp only [finish, Option.mem_def.mp wanted, created, taken]

end

/-- Without a failure, the last line is how many cycles and frames there were. -/
theorem finish_summary (well : (arguments.finish system directory ending run).1.failure = none) :
    (arguments.finish system directory ending run).1.lines.getLast? =
      some (.summary run.cycles run.frames) := by
  have concluded (run : Run) (well : (conclude run ending).failure = none) :
      (conclude run ending).lines.getLast? = some (.summary run.cycles run.frames) := by
    cases ending with
    | failed counter fault => cases well
    | limit | exited => simp [conclude, Run.say]
  cases wanted : arguments.dump with
  | none =>
    rw [finish_undemanded wanted] at well ⊢
    exact concluded run well
  | some path =>
    cases created : directory.creatable path with
    | error cause =>
      rw [finish_uncreated wanted created] at well
      cases well
    | ok names =>
      cases taken : system.disk (arguments.dumpBytes (system.calendar run) run).data.size with
      | none =>
        rw [finish_dumped wanted created taken] at well ⊢
        exact concluded (run.say (.dumped path)) well
      | some failed =>
        rw [finish_unwritten wanted created taken] at well
        cases well

end Arguments

end Headless

end Chip8
