import Chip8.Machine.Note
import Chip8.Text.ControlSequence

/-!
# Log lines

Everything that a run without a screen has to show: the machine's own notes,
and what the host was asked for.
-/
namespace Chip8.Headless

inductive Line
  | note (record : Note)
  | loaded (bytes : Nat)
  | toneOn
  | toneOff
  | asked (hertz : Nat)
  | resized (resolution : Resolution)
  | running (name : String) (hertz : Nat)
  | limitReached (cycles : Nat)
  | exited (cycles : Nat)
  | dumped (path : String)
  | summary (cycles frames : Nat)
deriving DecidableEq, Repr

namespace Line

def level : Line → Level
  | .note record => record.level
  | _ => .info

def text : Line → String
  | .note record => record.text
  | loaded bytes => "loaded " ++ toString bytes ++ " bytes of program"
  | toneOn => "tone on"
  | toneOff => "tone off"
  | asked hertz => "program asked for " ++ toString hertz ++ " instructions per second"
  | resized resolution => "display is now " ++ toString resolution.width ++ " pixels wide"
  | running name hertz =>
    "running " ++ name ++ " at " ++ toString hertz ++ " instructions per second"
  | limitReached cycles => "stopping after " ++ toString cycles ++ " cycles"
  | exited cycles => "program exited after " ++ toString cycles ++ " cycles"
  | dumped path => "wrote dump to " ++ path
  | summary cycles frames =>
    toString cycles ++ " cycles, " ++ toString frames ++ " frames drawn"

/-- Text of several lines, with every line but the first four columns in. -/
def indented (text : List Char) : List Char :=
  text.flatMap fun c => if c = '\n' then '\n' :: List.replicate 4 ' ' else [c]

/-- The text as a log shows it, with its line end. Names in it cannot steer the terminal, but a
sequence that they leave unfinished takes the line end along. -/
def shown (line : Line) : String :=
  String.ofList (ControlSequence.visible (indented line.text.toList ++ ['\n']))

end Line

end Chip8.Headless
