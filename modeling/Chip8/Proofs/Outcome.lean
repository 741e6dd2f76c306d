import Chip8.Proofs.CommandLine
import Chip8.Proofs.Directories
import Chip8.Proofs.Reports
import Chip8.Proofs.Restart
import Chip8.Proofs.Rounds
import Chip8.Proofs.SnapshotReading

/-!
# What a command comes to

A command can fail in four ways, and more than one of them at a time. A program
that cannot be read is reported before anything runs. After that the dump comes
first: it is written however the run ended, and where there is no place for it,
or the disk does not take it, that is what is reported and a failed run is not.
Only when there is no such failure does the end of the run decide.

A run that failed is reported with the counter from before the step, and dumped
as it was after. Both are the same machine, since a step that is refused leaves
no other: the report shows the counter of the dump and the opcode that the dump
has there.

Clocks, random words and the disk may do what they like in all this.
-/
namespace Chip8

/-- What is said about a word that is no opcode. -/
structure Fault.Tells (fault : Fault) (opcode words : String) : Prop where
  invalid (word : UInt16) : fault = .invalidOpcode word → words = "invalid opcode: " ++ opcode
  unsupported (word : UInt16) : fault = .unsupported word →
    words = "unsupported superchip instruction: " ++ opcode
      ++ " (0xF030, 0xFx75 and 0xFx85 are not supported)"

/-- Where a step is refused, the message names the word at the counter. -/
theorem Machine.message_tells {machine : Machine} {fault : Fault}
    (refused : machine.dialect.decode machine.fetch = .error fault) :
    ∃ opcode, Hex.Denotes opcode 4 machine.word ∧ fault.Tells opcode fault.message := by
  have opcode : fault.opcode = machine.fetch := Dialect.opcode_of_decode refused
  refine ⟨String.ofList (Hex.marked 4 machine.word), Hex.denotes_marked ?_, ?_, ?_⟩
  · rw [← fetch_toNat]
    exact machine.fetch.toNat_lt
  · rintro word rfl
    obtain rfl : word = machine.fetch := opcode
    rw [← fetch_toNat]
    rfl
  · rintro word rfl
    obtain rfl : word = machine.fetch := opcode
    rw [← fetch_toNat]
    rfl

theorem Note.address_denotes (counter : UInt16) : Hex.Denotes (address counter)
    (if counter.toNat < 0x1000 then 3 else 4) counter.toNat := by
  split
  next short => exact Hex.denotes_marked short
  next long =>
    -- Three digits are not enough then, so there are as many as there would be of four.
    have wide : Hex.marked 3 counter.toNat = Hex.marked 4 counter.toNat := by
      rw [Hex.marked, Hex.marked, Hex.upper, Hex.upper, Hex.digits_succ (Nat.not_lt.mp long)]
    rw [address, wide]
    exact Hex.denotes_marked counter.toNat_lt

namespace Headless

/-- What the system has to say about a file. -/
structure FileFault.Tells (fault : FileFault) (words : String) : Prop where
  missing : fault = .missing → words = "No such file or directory (os error 2)"
  notDirectory : fault = .notDirectory → words = "Not a directory (os error 20)"
  isDirectory : fault = .isDirectory → words = "Is a directory (os error 21)"
  nameTooLong : fault = .nameTooLong → words = "File name too long (os error 36)"
  other (description : String) : fault = .other description → words = description

theorem FileFault.message_tells (fault : FileFault) : fault.Tells fault.message := by
  constructor
  all_goals
    intros
    subst fault
    rfl

/-- A run that failed is left at the opcode that it failed at. -/
theorem Run.course_failed {clock : Run → Moment} {host : Host} {limit : Option Nat}
    {run final : Run} {budget : Nat} {counter : UInt16} {fault : Fault}
    (ended : run.course clock host limit budget = some (.failed counter fault, final)) :
    counter = final.machine.counter ∧
      final.machine.dialect.decode final.machine.fetch = .error fault := by
  induction budget generalizing run with
  | zero => cases ended
  | succ budget ih =>
    cases came : run.round host limit (clock run) with
    | going later => exact ih ((course_going budget came).symm.trans ended)
    | ended ending last =>
      cases (course_ended budget came).symm.trans ended
      have comes := run.round_comesTo host limit (clock run)
      rw [came] at comes
      -- A refused step is the only end of this kind, and it leaves the run as it was.
      cases comes with
      | failed _ refused => exact ⟨rfl, (Machine.step_eq_error_iff _ _ _).mp refused⟩

/-- There is a place for a dump, and the disk takes all of it. -/
def System.Takes (system : System) (directory : Directory) (dump path : String) : Prop :=
  (∃ names, directory.creatable path = .ok names) ∧ system.disk dump.toUTF8.data.size = none

/-- What is reported, and what is left of the directory, after a run that had `dump` to write. -/
structure Settles (system : System) (directory : Directory) (wanted : Option String)
    (ending : Ending) (machine : Machine) (dump : String) (report : Report) (after : Directory) :
    Prop where
  exitCode : report.exitCode = 0 ↔ (ending = .limit ∨ ending = .exited) ∧
    ∀ path ∈ wanted, system.Takes directory dump path ∧
      ∃ names, after.find path = .ok (names, dump.toUTF8.data)
  -- However the run ended.
  dumped : ∀ path ∈ wanted, system.Takes directory dump path →
    ∃ names, after.find path = .ok (names, dump.toUTF8.data)
  uncreated : ∀ path ∈ wanted, ∀ cause, directory.creatable path = .error cause →
    after = directory ∧ ∃ words, cause.Tells words ∧
      report.failure.map Failure.text = some ("Error: could not create dump file " ++ path
        ++ "\n\nCaused by:\n    " ++ words ++ "\n")
  unwritten : ∀ path ∈ wanted, ∀ names, directory.creatable path = .ok names →
    ∀ kept cause, system.disk dump.toUTF8.data.size = some (kept, cause) →
      after.find path = .ok (names, dump.toUTF8.data.take kept) ∧ ∃ words, cause.Tells words ∧
        report.failure.map Failure.text = some ("Error: " ++ words ++ "\n")
  -- The machine that is left shows both where the run stopped and on what.
  failed : ∀ counter fault, ending = .failed counter fault →
    (∀ path ∈ wanted, system.Takes directory dump path) →
    machine.dialect.decode machine.fetch = .error fault ∧ ∃ address opcode words,
      Hex.Denotes address (if machine.counter.toNat < 0x1000 then 3 else 4)
        machine.counter.toNat ∧
      Hex.Denotes opcode 4 machine.word ∧ fault.Tells opcode words ∧
      report.failure.map Failure.text = some ("Error: execution stopped at " ++ address
        ++ "\n\nCaused by:\n    " ++ words ++ "\n")

namespace Failure

theorem text_of_chain {failure : Failure} {summary cause : String}
    (chain : failure.chain = [summary, cause]) :
    failure.text = "Error: " ++ summary ++ "\n\nCaused by:\n    " ++ cause ++ "\n" := by
  have joined : "\n\nCaused by:\n    ".intercalate [summary, cause] =
      summary ++ "\n\nCaused by:\n    " ++ cause := rfl
  simp only [text, chain, joined, String.append_assoc]

theorem text_unreadableRom (path : String) (cause : FileFault) :
    (unreadableRom path cause).text = "Error: could not read rom " ++ path
      ++ "\n\nCaused by:\n    " ++ cause.message ++ "\n" := by
  rw [text_of_chain rfl, ← @String.append_assoc "Error: "]
  rfl

theorem text_uncreatableDump (path : String) (cause : FileFault) :
    (uncreatableDump path cause).text = "Error: could not create dump file " ++ path
      ++ "\n\nCaused by:\n    " ++ cause.message ++ "\n" := by
  rw [text_of_chain rfl, ← @String.append_assoc "Error: "]
  rfl

theorem text_stopped (counter : UInt16) (cause : Fault) :
    (stopped counter cause).text = "Error: execution stopped at " ++ Note.address counter
      ++ "\n\nCaused by:\n    " ++ cause.message ++ "\n" := by
  rw [text_of_chain rfl, ← @String.append_assoc "Error: "]
  rfl

theorem text_unwrittenDump (cause : FileFault) :
    (unwrittenDump cause).text = "Error: " ++ cause.message ++ "\n" := rfl

end Failure

namespace Arguments

section

variable {system : System} {directory after : Directory} {ending : Ending} {run last : Run}
  {path dump : String}

/-- Without a failed dump the end of the run decides. -/
theorem settles_concluded {wanted : Option String}
    (found : ∀ path ∈ wanted, system.Takes directory dump path ∧
      ∃ names, after.find path = .ok (names, dump.toUTF8.data))
    (ended : ∀ counter fault, ending = .failed counter fault →
      counter = run.machine.counter ∧ run.machine.dialect.decode run.machine.fetch = .error fault) :
    Settles system directory wanted ending run.machine dump (conclude last ending) after where
  exitCode := by
    rw [conclude_exitCode]
    exact ⟨fun well => ⟨well, found⟩, And.left⟩
  dumped path asked _ := (found path asked).2
  uncreated path asked cause refused := by
    obtain ⟨⟨⟨names, created⟩, -⟩, -⟩ := found path asked
    cases refused.symm.trans created
  unwritten path asked _ _ kept cause failed := by
    obtain ⟨⟨-, taken⟩, -⟩ := found path asked
    cases failed.symm.trans taken
  failed := by
    rintro counter fault rfl -
    obtain ⟨rfl, refused⟩ := ended counter fault rfl
    obtain ⟨opcode, word, tells⟩ := Machine.message_tells refused
    exact ⟨refused, _, opcode, _, Note.address_denotes _, word, tells,
      congrArg some (Failure.text_stopped _ fault)⟩

/-- With a failed dump that is all there is to say. -/
theorem settles_undumped {failure : Failure} (untaken : ¬system.Takes directory dump path)
    (uncreated : ∀ cause, directory.creatable path = .error cause →
      after = directory ∧ failure = .uncreatableDump path cause)
    (unwritten : ∀ names, directory.creatable path = .ok names →
      ∀ kept cause, system.disk dump.toUTF8.data.size = some (kept, cause) →
        after = directory.write names (dump.toUTF8.data.take kept) ∧
          failure = .unwrittenDump cause) :
    Settles system directory (some path) ending run.machine dump (undumped last failure)
      after where
  exitCode := ⟨nofun, fun ⟨_, asked⟩ => absurd (asked path rfl).1 untaken⟩
  dumped := by
    rintro _ ⟨⟩ taken
    exact absurd taken untaken
  uncreated := by
    rintro _ ⟨⟩ cause refused
    obtain ⟨same, rfl⟩ := uncreated cause refused
    exact ⟨same, _, cause.message_tells, congrArg some (Failure.text_uncreatableDump path cause)⟩
  unwritten := by
    rintro _ ⟨⟩ names created kept cause failed
    obtain ⟨rfl, rfl⟩ := unwritten names created kept cause failed
    exact ⟨Directory.find_write created _, _, cause.message_tells,
      congrArg some (Failure.text_unwrittenDump cause)⟩
  failed _ _ _ asked := absurd (asked path rfl) untaken

theorem settles_uncreated {cause : FileFault} (refused : directory.creatable path = .error cause) :
    Settles system directory (some path) ending run.machine dump
      (undumped last (.uncreatableDump path cause)) directory := by
  refine settles_undumped ?_ (fun other refused' => ⟨rfl, ?_⟩) (fun names created => ?_)
  · rintro ⟨⟨names, created⟩, -⟩
    cases refused.symm.trans created
  · rw [Except.error.inj (refused.symm.trans refused')]
  · cases refused.symm.trans created

theorem settles_unwritten {names : List String} {kept : Nat} {cause : FileFault}
    (created : directory.creatable path = .ok names)
    (failed : system.disk dump.toUTF8.data.size = some (kept, cause)) :
    Settles system directory (some path) ending run.machine dump
      (undumped last (.unwrittenDump cause))
      (directory.write names (dump.toUTF8.data.take kept)) := by
  refine settles_undumped ?_ (fun other refused => ?_) fun names' created' kept' cause' failed' => ?_
  · rintro ⟨-, taken⟩
    cases failed.symm.trans taken
  · cases created.symm.trans refused
  · obtain rfl := Except.ok.inj (created.symm.trans created')
    cases failed.symm.trans failed'
    exact ⟨rfl, rfl⟩

end

theorem finish_settles {arguments : Arguments} {system : System} {directory : Directory}
    {ending : Ending} {run : Run} {dump : String}
    (text : arguments.dumpBytes (system.calendar run) run = dump.toUTF8)
    (ended : ∀ counter fault, ending = .failed counter fault →
      counter = run.machine.counter ∧ run.machine.dialect.decode run.machine.fetch = .error fault) :
    let finished := arguments.finish system directory ending run
    Settles system directory arguments.dump ending run.machine dump finished.1 finished.2 := by
  -- A dump can be unwanted, without a place, not taken, or there.
  cases wanted : arguments.dump with
  | none =>
    rw [finish_undemanded wanted]
    exact settles_concluded nofun ended
  | some path =>
    cases created : directory.creatable path with
    | error cause =>
      rw [finish_uncreated wanted created]
      exact settles_uncreated created
    | ok names =>
      cases taken : system.disk dump.toUTF8.data.size with
      | some failed =>
        rw [finish_unwritten wanted created (text ▸ taken), text]
        exact settles_unwritten created taken
      | none =>
        rw [finish_dumped wanted created (text ▸ taken), text]
        refine settles_concluded ?_ ended
        rintro _ ⟨⟩
        exact ⟨⟨⟨names, created⟩, taken⟩, names, Directory.find_write created _⟩

/-- What a command line asks for, and what comes of that: without a program, and otherwise as its
run ended and as its dump was taken, of the machine exactly as the run left it. -/
theorem carryOut_outcome :
    (∀ argv arguments, Command.read argv = .run arguments ↔
      ∃ tokens, Spells argv tokens ∧ Means tokens arguments) ∧
    ∀ (arguments : Arguments) (system : System) (directory : Directory),
      (∀ cause, directory.read arguments.rom = .error cause → ∀ budget, ∃ report words,
        arguments.carryOut system directory budget = some (report, directory) ∧
          report.exitCode = 1 ∧ report.lines = [] ∧ cause.Tells words ∧
          report.failure.map Failure.text = some ("Error: could not read rom " ++ arguments.rom
            ++ "\n\nCaused by:\n    " ++ words ++ "\n")) ∧
      ∀ bytes, directory.read arguments.rom = .ok bytes →
        let host := arguments.host { bytes } system.streams
        ∀ budget ending final,
          (arguments.start host system.built system.begun).course system.clock host
            arguments.maxCycles budget = some (ending, final) →
          ∃ name dump report after, (pathNames arguments.rom).getLast? = some name ∧
            dump.toList = (final.machine.snapshot (system.calendar final) name).text ∧
            final.machine.Depicted (system.calendar final) name (Snapshot.read dump.toList) ∧
            arguments.carryOut system directory budget = some (report, after) ∧
            Settles system directory arguments.dump ending final.machine dump report after := by
  refine ⟨fun argv arguments => Command.read_eq_run_iff, fun arguments system directory => ⟨?_, ?_⟩⟩
  · intro cause unreadable budget
    exact ⟨{ lines := [], failure := some (.unreadableRom arguments.rom cause) }, _,
      by rw [carryOut, unreadable], rfl, rfl, cause.message_tells,
      congrArg some (Failure.text_unreadableRom arguments.rom cause)⟩
  · intro bytes readable host budget ending final ended
    let name := fileName arguments.rom
    let snapshot := final.machine.snapshot (system.calendar final) name
    have spelled : (String.ofList snapshot.text).toList = snapshot.text := String.toList_ofList
    have depicted := (final.machine.snapshot_read_back (system.calendar final) name).1
    have settles : Settles system directory arguments.dump ending final.machine
        (String.ofList snapshot.text) _ _ :=
      finish_settles rfl fun counter fault failed => Run.course_failed (failed ▸ ended)
    refine ⟨name, String.ofList snapshot.text, _, _, Directory.fileName_of_read readable, spelled,
      ?_, ?_, settles⟩
    · rw [spelled]
      exact depicted
    · simp only [carryOut, readable]
      rw [ended]
      rfl

/-- A program that is not there, and one that fails: dumped at the root, dumped where there is no
folder, and dumped on a full disk. -/
theorem carryOut_outcome_failed :
    let directory : Directory := { files := [(["bad"], #[0xF0, 0x30])] }
    let arguments : Arguments :=
      { rom := "bad", pace := .standard, maxCycles := none, seed := none, dump := some "/dump",
        dialect := {} }
    let system := System.virtual 0
    let full : FileFault := .other "No space left on device (os error 28)"
    let filled := { system with disk := fun _ => some (0, full) }
    Command.read ["bad", "--dump=/dump"] = .run arguments ∧
    (∃ report, ({ arguments with rom := "good" } : Arguments).carryOut system directory 0 =
        some (report, directory) ∧ report.exitCode = 1 ∧
      report.failure.map Failure.text = some ("Error: could not read rom good\n\nCaused by:\n    "
        ++ "No such file or directory (os error 2)\n")) ∧
    (∃ report after names, ∃ dump : String,
      arguments.carryOut system directory 1 = some (report, after) ∧
      after.find "/dump" = .ok (names, dump.toUTF8.data) ∧
      (Snapshot.read dump.toList).name = "bad" ∧ (Snapshot.read dump.toList).counter = 0x200 ∧
      report.exitCode ≠ 0 ∧ report.failure.map Failure.text = some
        ("Error: execution stopped at 0x200\n\nCaused by:\n    unsupported superchip instruction: "
          ++ "0xF030 (0xF030, 0xFx75 and 0xFx85 are not supported)\n")) ∧
    (∃ report, ({ arguments with dump := some "../away/dump" } : Arguments).carryOut system
        directory 1 = some (report, directory) ∧
      report.failure.map Failure.text = some
        ("Error: could not create dump file ../away/dump\n\nCaused by:\n    "
          ++ "No such file or directory (os error 2)\n")) ∧
    ∃ report after, arguments.carryOut filled directory 1 = some (report, after) ∧
      report.failure.map Failure.text = some
        "Error: No space left on device (os error 28)\n" := by
  intro directory arguments system full filled
  obtain ⟨accepts, comes⟩ := carryOut_outcome
  have readable : directory.read "bad" = .ok #[0xF0, 0x30] := by decide +kernel
  have unreadable : directory.read "good" = .error .missing := by decide +kernel
  have created : directory.creatable "/dump" = .ok ["dump"] := by decide +kernel
  have uncreatable : directory.creatable "../away/dump" = .error .missing := by decide +kernel
  let host := arguments.host { bytes := #[0xF0, 0x30] } system.streams
  let start := arguments.start host 0 0
  obtain ⟨machine, -⟩ := arguments.start_keeps host 0 0
  have fetched : start.machine.fetch = 0xF030 := by
    rw [machine]
    have loaded := (Machine.fresh_pristine {} (host.answers 0 (.still 0))).memory
    exact (loaded.readWord 0x200 (by decide) (by decide) rfl rfl).trans (by decide)
  have counter : start.machine.counter = 0x200 := by
    rw [machine]
    rfl
  have refused : start.machine.step (host.answers (start.cycles + 1) (system.clock start)) =
      .error (.unsupported 0xF030) := by
    refine Machine.step_refused _ ?_
    rw [fetched]
    rfl
  -- The first step is refused, and so the run ends as it began.
  have ended : start.course system.clock host none 1 =
      some (.failed 0x200 (.unsupported 0xF030), start) := by
    rw [← counter]
    exact Run.course_ended 0 (Run.round_of_refused (by simp) refused)
  refine ⟨?_, ?_, ?_, ?_, ?_⟩
  · have spelled : Spells ["bad", "--dump=/dump"] [.path "bad", .setting .dump "/dump"] :=
      .path (by intro name dashed; exact absurd dashed (by simp)) (.joined .dump "/dump" .nothing)
    refine (accepts _ _).mpr ⟨_, spelled, ⟨"bad", rfl, rfl, by decide⟩, ⟨none, rfl, rfl⟩, rfl, rfl,
      ⟨"/dump", rfl, rfl, by decide⟩, rfl, rfl⟩
  · obtain ⟨report, words, performed, exitCode, -, tells, text⟩ :=
      (comes { arguments with rom := "good" } system directory).1 _ unreadable 0
    obtain rfl := tells.missing rfl
    exact ⟨report, performed, exitCode, text⟩
  · obtain ⟨name, dump, report, after, named, -, depicted, performed, settles⟩ :=
      (comes arguments system directory).2 _ readable 1 _ _ ended
    have takes : ∀ path ∈ arguments.dump, system.Takes directory dump path := by
      rintro _ ⟨⟩
      exact ⟨⟨_, created⟩, rfl⟩
    obtain ⟨names, found⟩ := settles.dumped _ rfl (takes _ rfl)
    obtain ⟨-, address, opcode, words, addressed, word, tells, text⟩ :=
      settles.failed _ _ rfl takes
    obtain rfl : address = "0x200" := by
      have spelled : String.ofList (Hex.marked 3 0x200) = "0x200" := by decide +kernel
      rw [counter] at addressed
      exact addressed.unique (spelled ▸ Hex.denotes_marked (by decide))
    obtain rfl : opcode = "0xF030" := by
      have spelled : String.ofList (Hex.marked 4 0xF030) = "0xF030" := by decide +kernel
      rw [← Machine.fetch_toNat, fetched] at word
      exact word.unique (spelled ▸ Hex.denotes_marked (by decide))
    obtain rfl := tells.unsupported _ rfl
    have left : (Snapshot.read dump.toList).counter = 0x200 := by
      rw [depicted.counter]
      exact counter
    have failed : report.exitCode ≠ 0 := by
      rw [ne_eq, settles.exitCode]
      simp
    have title : name = "bad" := by
      have last : (pathNames "bad").getLast? = some "bad" := by decide +kernel
      exact Option.some.inj (named.symm.trans last)
    exact ⟨report, after, names, dump, performed, found, depicted.name.trans title, left, failed,
      text⟩
  · obtain ⟨name, dump, report, after, -, -, -, performed, settles⟩ :=
      (comes { arguments with dump := some "../away/dump" } system directory).2 _ readable 1 _ _
        ended
    obtain ⟨rfl, words, tells, text⟩ := settles.uncreated _ rfl _ uncreatable
    obtain rfl := tells.missing rfl
    exact ⟨report, performed, text⟩
  · obtain ⟨name, dump, report, after, -, -, -, performed, settles⟩ :=
      (comes arguments filled directory).2 _ readable 1 _ _ ended
    obtain ⟨-, words, tells, text⟩ := settles.unwritten _ rfl _ created _ _ rfl
    obtain rfl := tells.other _ rfl
    exact ⟨report, after, performed, text⟩

end Arguments

end Headless

end Chip8
