import Chip8.Headless.Pace
import Chip8.Machine.Basic

/-!
# Arguments

The command line is read from left to right: the path of a program image,
options with a value, and flags. A value follows its option as the next
argument, unless that looks like an option itself, or after an equals sign.
Nothing may be given twice. After `--` everything is a path. The first thing
that is wrong decides, and so does a request for help or for the version.
-/
namespace Chip8.Headless

structure Arguments where
  rom : String
  pace : Pace
  maxCycles : Option Nat
  seed : Option UInt64
  dump : Option String
  dialect : Dialect
deriving DecidableEq

inductive UsageError
  | unknown (argument : String)
  | unexpected (argument : String)
  | missingValue (option : String)
  | needlessValue (flag : String)
  | invalidValue (option value : String)
  | repeated (option : String)
  | missingRom
deriving DecidableEq, Repr

namespace UsageError

def message : UsageError → String
  | unknown argument => "unknown option " ++ argument
  | unexpected argument => "unexpected argument " ++ argument
  | missingValue option => "a value is required for " ++ option
  | needlessValue flag => flag ++ " takes no value"
  | invalidValue option value => "invalid value " ++ value ++ " for " ++ option
  | repeated option => option ++ " cannot be used more than once"
  | missingRom => "the path to a rom is required"

end UsageError

/-- What the command line asks for. -/
inductive Command
  | run (arguments : Arguments)
  | showVersion
  | showHelp
  | reject (error : UsageError)
deriving DecidableEq

/-- The number that decimal digits stand for, of which there has to be one. -/
def decimal? (digits : List Char) : Option Nat :=
  if digits ≠ [] ∧ digits.all Char.isDigit then some (Nat.ofDigitChars 10 digits 0) else none

def withoutPlus : List Char → List Char
  | '+' :: digits => digits
  | digits => digits

/-- A whole number up to `most`, in decimal digits after an optional plus sign. -/
def wholeNumber? (most : Nat) (text : String) : Option Nat :=
  (decimal? (withoutPlus text.toList)).filter (· ≤ most)

/-- The options that take a value. -/
inductive Setting
  | hz
  | maxCycles
  | seed
  | dump
deriving DecidableEq, Repr

namespace Setting

def name : Setting → String
  | hz => "--hz"
  | maxCycles => "--max-cycles"
  | seed => "--seed"
  | dump => "--dump"

def ofName? (name : String) : Option Setting :=
  [hz, maxCycles, seed, dump].find? fun setting => setting.name = name

end Setting

/-- The options that take none and choose a dialect. -/
inductive Flag
  | hostExtensions
  | standardBorrow
deriving DecidableEq, Repr

namespace Flag

def name : Flag → String
  | hostExtensions => "--host-extensions"
  | standardBorrow => "--standard-borrow-flag"

def ofName? (name : String) : Option Flag :=
  [hostExtensions, standardBorrow].find? fun flag => flag.name = name

end Flag

/-- A part of the command line. What ends the reading at once carries its command. -/
inductive Token
  | path (path : String)
  | setting (setting : Setting) (value : String)
  | flag (flag : Flag)
  | stop (command : Command)
deriving DecidableEq

namespace Token

/-- The name of a long option and the value after its equals sign. -/
def splitEquals (argument : String) : String × Option String :=
  let name := String.ofList (argument.toList.takeWhile (· ≠ '='))
  match argument.toList.dropWhile (· ≠ '=') with
  | [] => (name, none)
  | _ :: value => (name, some (String.ofList value))

/-- Whether an argument stands for an option. A dash by itself is a path. -/
def looksLikeOption (argument : String) : Bool :=
  match argument.toList with
  | '-' :: _ :: _ => true
  | _ => false

/-- Whether an argument stands for an option with a long name. -/
def isLong (argument : String) : Bool :=
  match argument.toList with
  | '-' :: '-' :: _ => true
  | _ => false

/-- A long option that takes no value. -/
def ofFlag (name : String) (value : Option String) : Token :=
  match Flag.ofName? name, value with
  | some named, none => .flag named
  | some _, some _ => .stop (.reject (.needlessValue name))
  | none, value =>
    if name = "--help" ∨ name = "--version" then
      if value.isSome then .stop (.reject (.needlessValue name))
      else .stop (if name = "--help" then .showHelp else .showVersion)
    else .stop (.reject (.unknown name))

/-- Short options. Each ends the reading, so only the first of a group matters. -/
def ofShort (argument : String) : Token :=
  match argument.toList with
  | _ :: 'h' :: _ => .stop .showHelp
  | _ :: 'V' :: _ => .stop .showVersion
  | _ => .stop (.reject (.unknown argument))

/-- Cuts a command line into its parts. After `--` there are only paths. -/
def ofArguments : List String → List Token
  | [] => []
  | argument :: rest =>
    if argument = "--" then rest.map .path
    else if isLong argument then
      let (name, value) := splitEquals argument
      match Setting.ofName? name, value with
      | none, value => ofFlag name value :: ofArguments rest
      | some named, some value => .setting named value :: ofArguments rest
      | some named, none =>
        match rest with
        | [] => [.stop (.reject (.missingValue name))]
        | value :: rest =>
          if looksLikeOption value then [.stop (.reject (.missingValue name))]
          else .setting named value :: ofArguments rest
    else if looksLikeOption argument then ofShort argument :: ofArguments rest
    else .path argument :: ofArguments rest

end Token

/-- Arguments that are still being read. -/
structure Draft where
  rom : Option String := none
  pace : Option Pace := none
  maxCycles : Option Nat := none
  seed : Option UInt64 := none
  dump : Option String := none
  hostExtensions : Bool := false
  standardBorrow : Bool := false

namespace Draft

/-- Fills a field once, with a value that could be read. -/
def fill {Value : Type} (setting : Setting) (text : String) (old value : Option Value) :
    Except Command (Option Value) :=
  match old, value with
  | some _, _ => .error (.reject (.repeated setting.name))
  | none, none => .error (.reject (.invalidValue setting.name text))
  | none, some value => .ok (some value)

def pace? (text : String) : Option Pace :=
  (wholeNumber? 4294967295 text).bind fun hertz =>
    if positive : 0 < hertz then some { hertz, positive } else none

def cycles? (text : String) : Option Nat := wholeNumber? 18446744073709551615 text

def seed? (text : String) : Option UInt64 :=
  (wholeNumber? 18446744073709551615 text).map UInt64.ofNat

def path? (text : String) : Option String := if text = "" then none else some text

def set (draft : Draft) (setting : Setting) (text : String) : Except Command Draft :=
  match setting with
  | .hz => (fill setting text draft.pace (pace? text)).map fun pace => { draft with pace }
  | .maxCycles =>
    (fill setting text draft.maxCycles (cycles? text)).map fun maxCycles => { draft with maxCycles }
  | .seed => (fill setting text draft.seed (seed? text)).map fun seed => { draft with seed }
  | .dump => (fill setting text draft.dump (path? text)).map fun dump => { draft with dump }

def raise (draft : Draft) : Flag → Except Command Draft
  | .hostExtensions =>
    if draft.hostExtensions then .error (.reject (.repeated Flag.hostExtensions.name))
    else .ok { draft with hostExtensions := true }
  | .standardBorrow =>
    if draft.standardBorrow then .error (.reject (.repeated Flag.standardBorrow.name))
    else .ok { draft with standardBorrow := true }

def take (draft : Draft) : Token → Except Command Draft
  | .path path =>
    if draft.rom.isSome then .error (.reject (.unexpected path))
    else if path = "" then .error (.reject .missingRom)
    else .ok { draft with rom := some path }
  | .setting setting value => draft.set setting value
  | .flag flag => draft.raise flag
  | .stop command => .error command

def finish (draft : Draft) : Command :=
  match draft.rom with
  | none => .reject .missingRom
  | some rom => .run {
      rom
      pace := draft.pace.getD .standard
      maxCycles := draft.maxCycles
      seed := draft.seed
      dump := draft.dump
      dialect := {
        standardBorrow := draft.standardBorrow
        hostExtensions := draft.hostExtensions } }

end Draft

namespace Command

def read (arguments : List String) : Command :=
  match (Token.ofArguments arguments).foldlM Draft.take {} with
  | .error command => command
  | .ok draft => draft.finish

def version : String := "chippy 0.1.0"

def help : String := "\n".intercalate [
  "Runs a chip8 program without a window",
  "",
  "Usage: chippy [OPTIONS] <ROM>",
  "",
  "  --hz <HZ>                   instructions per second, 500 unless given",
  "  --max-cycles <MAX_CYCLES>   stop after this many instructions",
  "  --seed <SEED>               seed for the random numbers",
  "  --dump <DUMP>               write a dump of the machine to this file when it stops",
  "  --host-extensions           let the program use the instructions 0x0100 to 0x0102",
  "  --standard-borrow-flag      let 8xy7 set vf when vy equals vx",
  "  -h, --help                  print help",
  "  -V, --version               print version"]

end Command

end Chip8.Headless
