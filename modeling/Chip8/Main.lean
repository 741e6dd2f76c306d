import Chip8.Headless.Report
import Std.Time.DateTime.Timestamp

/-!
# The command line

Runs a program without a window at its own pace, with log lines on the
standard error stream. The environment variable `RUST_LOG` names the least
grave level to show. What to do is decided by `Headless`; here clocks are read
and waited for, random bytes are drawn, files are read and written, and text is
printed.
-/
namespace Chip8.Headless

/-- The cause of a failed file operation. A number that has no place of its own is shown. -/
def FileFault.ofError (error : IO.Error) : FileFault :=
  let numbered (number : UInt32) (detail : String) : FileFault :=
    match number.toNat with
    | 2 => .missing
    | 20 => .notDirectory
    | 21 => .isDirectory
    | 36 => .nameTooLong
    | number => .other (detail ++ " (os error " ++ toString number ++ ")")
  match error with
  | .noFileOrDirectory _ number detail | .interrupted _ number detail
  | .alreadyExists _ number detail | .invalidArgument _ number detail
  | .permissionDenied _ number detail | .resourceExhausted _ number detail
  | .inappropriateType _ number detail | .noSuchThing _ number detail
  | .otherError number detail | .resourceBusy number detail | .resourceVanished number detail
  | .unsupportedOperation number detail | .hardwareFault number detail
  | .unsatisfiedConstraints number detail | .illegalOperation number detail
  | .protocolError number detail | .timeExpired number detail => numbered number detail
  | .unexpectedEof | .userError _ => .other (toString error)

/-- Prints the lines of a run that are wanted, and forgets them all. -/
def Run.flush (filter : LogFilter) (run : Run) : IO Run := do
  for line in run.lines do
    if filter.admits line.level then
      IO.eprint (line.level.mark ++ line.shown)
  return { run with lines := #[] }

def monotonicNow : IO Instant := do
  return Int.ofNat (← IO.monoNanosNow)

def wallNow : IO Instant := do
  return (← Std.Time.Timestamp.now).toNanosecondsSinceUnixEpoch.val

/-- Rounds on the real clock. -/
def Run.live (filter : LogFilter) (host : Host) (limit : Option Nat) (start : Run) :
    IO (Ending × Run) := do
  let mut current := start
  repeat
    match current.advance host limit (.still (← monotonicNow)) with
    | .ended ending last => return (ending, last)
    | .going moved =>
      let now ← monotonicNow
      current ← (moved.refreshAt now).schedule.flush filter
      IO.sleep (UInt32.ofNat ((current.due - now).toNat / 1000000))
  return (.limit, current)

/-- Prints what is left of a report, and gives the exit code. -/
def Report.live (filter : LogFilter) (run : Run) (report : Report) : IO UInt32 := do
  let _ ← Run.flush filter { run with lines := report.lines.toArray }
  if let some failure := report.failure then
    IO.eprint failure.text
  return UInt32.ofNat report.exitCode

/-- Creates a file and fills it. -/
def writeDump (path : String) (bytes : ByteArray) : IO (Except Failure Unit) := do
  match ← (IO.FS.Handle.mk path .write).toBaseIO with
  | .error error => return .error (.uncreatableDump path (.ofError error))
  | .ok file =>
    let fill : IO Unit := do
      file.write bytes
      file.flush
    match ← fill.toBaseIO with
    | .error error => return .error (.unwrittenDump (.ofError error))
    | .ok () => return .ok ()

/-- Everything after a run. -/
def Arguments.finishLive (arguments : Arguments) (ending : Ending) (run : Run) : IO Report := do
  match arguments.dump with
  | none => return conclude run ending
  | some path =>
    match ← writeDump path (arguments.dumpBytes (← wallNow) run) with
    | .error failure => return undumped run failure
    | .ok () => return conclude (run.say (.dumped path)) ending

/-- Random words that nobody knows beforehand, other ones for each machine that starts. -/
def drawStreams : IO (Nat → WordStream) := do
  let bytes ← IO.getRandomBytes 32
  let wordAt (place : Nat) : UInt32 :=
    (bytes.data.extract (4 * place) (4 * place + 4)).foldl
      (fun word byte => word <<< 8 ||| byte.toUInt32) 0
  return WordStream.family (.keyed (Vector.ofFn fun place => wordAt place.val))

def Arguments.live (arguments : Arguments) (filter : LogFilter) : IO UInt32 := do
  match ← (IO.FS.readBinFile arguments.rom).toBaseIO with
  | .error error =>
    IO.eprint (Failure.unreadableRom arguments.rom (.ofError error)).text
    return 1
  | .ok bytes =>
    let host := arguments.host { bytes := bytes.data } (← drawStreams)
    let built ← monotonicNow
    let start ← (arguments.start host built (← monotonicNow)).flush filter
    let (ending, run) ← start.live filter host arguments.maxCycles
    (← arguments.finishLive ending run).live filter run

def Command.live : Command → IO UInt32
  | reject error => do
    IO.eprintln ("error: " ++ error.message)
    return 2
  | showVersion => do
    IO.println version
    return 0
  | showHelp => do
    IO.println help
    return 0
  | run arguments => do
    let named := (← IO.getEnv "RUST_LOG").bind LogFilter.ofName?
    arguments.live (named.getD { most := some .error })

end Chip8.Headless

def main (arguments : List String) : IO UInt32 :=
  (Chip8.Headless.Command.read arguments).live
