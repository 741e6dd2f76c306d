import Chip8.CallStack
import Chip8.Instruction.Decode
import Chip8.Machine.Host
import Chip8.Memory
import Chip8.Registers
import Chip8.Sprite

/-!
# The machine

The whole state of the machine, how it starts and how it starts over. A new
machine is built at once, a used one is emptied part by part: what a reset left
out would outlive it.
-/
namespace Chip8

/-- Where interpreters differ and programs may rely on it. -/
structure Dialect where
  /-- Subtraction from another register flags "no borrow" also when both are equal. -/
  standardBorrow : Bool := false
  /-- Programs may address the host. -/
  hostExtensions : Bool := false
deriving DecidableEq, Repr

structure Machine where
  counter : UInt16
  memory : Memory
  registers : Registers
  stack : CallStack
  plane : Plane
  words : WordStream
  gate : TimerGate
  dialect : Dialect

namespace Machine

/-- The opcode that the program counter points at. -/
def fetch (machine : Machine) : UInt16 := machine.memory.readWord machine.counter

def fresh (dialect : Dialect) (answers : Answers) : Machine where
  counter := UInt16.ofNat programStart
  memory := Memory.blank.load answers.rom
  registers := {}
  stack := {}
  plane := {}
  words := answers.words
  gate := { lastTick := answers.resetClock }
  dialect := dialect

/-- What loading a program image reports. -/
def loading (rom : Rom) : List Event :=
  (rom.notes programRoom).map .note
    ++ [.call (.loadProgram programRoom (rom.copied programRoom)),
      .note (.programLoaded (UInt16.ofNat programStart))]

/-- A new machine. -/
def boot (dialect : Dialect) (answers : Answers) : Machine × List Event :=
  (fresh dialect answers, .call .takeWords :: loading answers.rom)

/-- Fills the program region. -/
def load (machine : Machine) (rom : Rom) : Machine × List Event :=
  ({ machine with memory := machine.memory.load rom }, loading rom)

/-- Starts over. A tone is ended and a change of resolution announced before the program loads. -/
def reset (answers : Answers) (machine : Machine) : Machine × List Event :=
  let silence := if machine.registers.sound = 0 then [] else [Event.call .endTone]
  let shrink := if machine.plane.resolution = .low then [] else [Event.call (.resized .low)]
  let emptied := { machine with
    words := answers.words
    memory := Memory.blank
    registers := {}
    stack := {}
    counter := UInt16.ofNat programStart
    plane := {}
    gate := { lastTick := answers.resetClock } }
  let (restarted, loaded) := emptied.load answers.rom
  (restarted, .call .takeWords :: (silence ++ shrink ++ loaded))

/-- Shows the plane to the host if it has changed since it was last shown. -/
def refresh (machine : Machine) : Machine × List Event :=
  if machine.plane.dirty then
    ({ machine with plane := machine.plane.shown }, [.call (.draw machine.plane.visible)])
  else (machine, [])

end Machine

end Chip8
