import Chip8.Headless.Arguments
import Chip8.Headless.Directory
import Chip8.Headless.ErrorStream
import Chip8.Headless.Run
import Chip8.Random.ChaCha
import Chip8.Snapshot

/-!
# Reports

What a command comes to: an exit code, log lines, the report of a failure, and
the directory as it is left. Clocks, random words and the disk are not its own;
what they do is given beforehand, as the answers of a host are. A dump is
written however the run ended; where it cannot be, that is what is reported.
-/
namespace Chip8.Headless

/-- What lies outside of a command and its directory. -/
structure System where
  /-- When the machine is built. -/
  built : Instant
  /-- When its run begins. -/
  begun : Instant
  clock : Run → Moment
  /-- The time of day at which a dump of the run is stamped. -/
  calendar : Run → Instant
  /-- Random words for each machine that starts. -/
  streams : Nat → WordStream
  /-- How so many bytes get to the disk once there is a file for them: all of them, or not all,
  for which there is a cause. Then it is also known how many stay. -/
  disk : Nat → Option (Nat × FileFault)

/-- A clock that moves by waiting only, one time for everything, no chance and a disk that never
fails. -/
def System.virtual (now : Instant) : System where
  built := now
  begun := now
  clock := Run.onTime
  calendar := Run.due
  streams := fun _ => .cycling #[]
  disk := fun _ => none

inductive Failure
  | unreadableRom (path : String) (cause : FileFault)
  | uncreatableDump (path : String) (cause : FileFault)
  | unwrittenDump (cause : FileFault)
  | stopped (counter : UInt16) (cause : Fault)
deriving DecidableEq, Repr

namespace Failure

/-- What failed, and why. A dump that has been created is not named again. -/
def chain : Failure → List String
  | unreadableRom path cause => ["could not read rom " ++ path, cause.message]
  | uncreatableDump path cause => ["could not create dump file " ++ path, cause.message]
  | unwrittenDump cause => [cause.message]
  | stopped counter cause => ["execution stopped at " ++ Note.address counter, cause.message]

def text (failure : Failure) : String :=
  "Error: " ++ "\n\nCaused by:\n    ".intercalate failure.chain ++ "\n"

end Failure

structure Report where
  lines : List Line
  failure : Option Failure

namespace Report

def exitCode (report : Report) : Nat := if report.failure.isSome then 1 else 0

/-- The lines that are wanted, and after them the failure. -/
def errorStream (report : Report) (filter : LogFilter) : ErrorStream :=
  let failure : ErrorStream :=
    match report.failure with
    | none => []
    | some failure => ErrorStream.report failure.text []
  (report.lines.filter fun line => filter.admits line.level).foldr
    (fun line stream => stream.record line.level line.shown) failure

end Report

namespace Arguments

/-- The host of a run. With a seed every machine starts with the words of that seed. -/
def host (arguments : Arguments) (rom : Rom) (streams : Nat → WordStream) : Host where
  rom := rom
  words :=
    match arguments.seed with
    | some seed => fun _ => .seeded seed
    | none => streams

def start (arguments : Arguments) (host : Host) (built begun : Instant) : Run :=
  let run := Run.start host arguments.dialect arguments.pace built begun
  run.say (.running (fileName arguments.rom) arguments.pace.hertz)

/-- The dump of the machine that a run left. -/
def dumpBytes (arguments : Arguments) (now : Instant) (run : Run) : ByteArray :=
  (String.ofList (run.machine.snapshot now (fileName arguments.rom)).text).toUTF8

/-- How a run without a failed dump is reported. -/
def conclude (run : Run) : Ending → Report
  | .failed counter fault =>
    { lines := run.lines.toList, failure := some (.stopped counter fault) }
  | .limit | .exited =>
    { lines := (run.say (.summary run.cycles run.frames)).lines.toList, failure := none }

/-- How a run with a failed dump is reported, however it ended. -/
def undumped (run : Run) (failure : Failure) : Report :=
  { lines := run.lines.toList, failure := some failure }

/-- Everything after the run: the dump, if one is wanted, and the report. -/
def finish (arguments : Arguments) (system : System) (directory : Directory) (ending : Ending)
    (run : Run) : Report × Directory :=
  match arguments.dump with
  | none => (conclude run ending, directory)
  | some path =>
    match directory.creatable path with
    | .error cause => (undumped run (.uncreatableDump path cause), directory)
    | .ok names =>
      let bytes := (arguments.dumpBytes (system.calendar run) run).data
      match system.disk bytes.size with
      | some (kept, cause) =>
        (undumped run (.unwrittenDump cause), directory.write names (bytes.take kept))
      | none => (conclude (run.say (.dumped path)) ending, directory.write names bytes)

/-- The whole command, if its run ends within `budget` rounds. -/
def carryOut (arguments : Arguments) (system : System) (directory : Directory) (budget : Nat) :
    Option (Report × Directory) :=
  match directory.read arguments.rom with
  | .error cause =>
    some ({ lines := [], failure := some (.unreadableRom arguments.rom cause) }, directory)
  | .ok bytes =>
    let host := arguments.host { bytes } system.streams
    let start := arguments.start host system.built system.begun
    (start.course system.clock host arguments.maxCycles budget).map
      fun (ending, run) => arguments.finish system directory ending run

/-- The whole command on a clock that starts at `now`. -/
def perform (arguments : Arguments) (directory : Directory) (now : Instant) (budget : Nat) :
    Option (Report × Directory) :=
  arguments.carryOut (.virtual now) directory budget

end Arguments

end Chip8.Headless
