import Chip8.Proofs.Checked.Screen
import Chip8.Proofs.Session

/-!
# The checked machine

The machine with a byte for its stack pointer, a plain number for the width of
its screen, and with every sum, product, shift, index and slice checked. What
it asks of the host it asks in plain numbers too, so that a key may be none of
the sixteen and a plane may have any size.
-/
namespace Chip8.Checked

/-- What is asked of the host, in plain numbers. -/
inductive Call
  | takeWords
  /-- For a program image in a region of `room` bytes. -/
  | loadProgram (room : Nat)
  | draw (cells : Array UInt8)
  | askKey (key : UInt8)
  | beginTone
  | endTone
  | setFrequency (hertz : Nat)
  | resized (width : Nat)
deriving DecidableEq, Repr

/-- What a host relies on. -/
def Call.Respectful : Call → Prop
  | .loadProgram room => room = 3584
  | .draw cells => cells.size = 2048 ∨ cells.size = 8192
  | .askKey key => key < 16
  | .setFrequency hertz => hertz % 10 = 0 ∧ hertz ≤ 2550
  | .resized width => width = 64 ∨ width = 128
  | .takeWords | .beginTone | .endTone => True

structure Stack where
  slots : Bank UInt16 := Vector.replicate 16 0
  pointer : UInt8 := 0

namespace Stack

def push (stack : Stack) (address : UInt16) : Option Stack := do
  let slots ← put stack.slots stack.pointer.toNat address
  let next ← add byteLimit stack.pointer.toNat 1
  return { slots, pointer := UInt8.ofNat next &&& 0xF }

def pop (stack : Stack) : Option (UInt16 × Stack) := do
  let pointer := (stack.pointer - 1) &&& 0xF
  let address ← stack.slots[pointer.toNat]?
  return (address, { stack with pointer })

end Stack

/-- The digit of an opcode that has `number` digits to its left. -/
def digit (opcode : UInt16) (number : Nat) : Option Nibble := do
  guard (number < 4)
  let fours ← mul byteLimit 4 number
  let places ← sub 12 fours
  let shifted ← shiftRight 16 opcode.toNat places
  return Nibble.ofNat (shifted &&& 0xF)

def decode (opcode : UInt16) : Option (Except Fault Instruction) := do
  let x ← digit opcode 1
  let y ← digit opcode 2
  let n ← digit opcode 3
  let family ← digit opcode 0
  return match Instruction.ofNibbles family x y n with
    | some instruction => .ok instruction
    | none =>
      .error (if Instruction.isUnsupported opcode then .unsupported opcode
        else .invalidOpcode opcode)

section

variable (memory : Memory)

def readByte (address : UInt16) : Option UInt8 := memory.cells[(address &&& 0x0FFF).toNat]?

def writeByte (address : UInt16) (value : UInt8) : Option Memory := do
  let cells ← put memory.cells (address &&& 0x0FFF).toNat value
  return { cells }

def readWord (address : UInt16) : Option UInt16 := do
  let high ← readByte memory address
  let low ← readByte memory (address + 1)
  let high ← shiftLeft 16 high.toNat 8
  return UInt16.ofNat high ||| low.toUInt16

/-- Nothing but the font. -/
def blank : Option Memory := do
  let cells ← copyFrom (Vector.replicate memorySize 0) 0 80 font.toArray
  return { cells }

/-- The program region as far as an image fills it. -/
def load (rom : Rom) : Option Memory := do
  let room ← sub memorySize programStart
  let length := min rom.bytes.size room
  guard (length ≤ rom.bytes.size ∧ length ≤ room)
  let cells ← copyFrom memory.cells programStart length (rom.bytes.extract 0 length)
  return { cells }

end

section

variable (registers : Registers)

def getRegister (number : Nat) : Option UInt8 := registers.v[number &&& 0xF]?

def setRegister (number : Nat) (value : UInt8) : Option Registers := do
  let v ← put registers.v (number &&& 0xF) value
  return { registers with v }

def setFlag (value : Bool) : Option Registers :=
  setRegister registers 0xF (if value then 1 else 0)

/-- Also says whether the sound timer has just run out. -/
def countSound : Option (Registers × Bool) :=
  if 0 < registers.sound then do
    let sound ← sub registers.sound.toNat 1
    return ({ registers with sound := UInt8.ofNat sound }, sound = 0)
  else
    return (registers, false)

end

structure Machine where
  counter : UInt16
  memory : Memory
  registers : Registers
  stack : Stack
  display : Display
  words : WordStream
  gate : TimerGate
  dialect : Dialect

structure Turn where
  machine : Machine
  calls : List Call := []
  outcome : Outcome := .running

namespace Machine

def fresh (dialect : Dialect) (answers : Answers) : Option Machine := do
  let display ← Display.new
  let memory ← blank
  let memory ← load memory answers.rom
  return {
    counter := UInt16.ofNat programStart, memory, registers := {}, stack := {}, display,
    words := answers.words, gate := { lastTick := answers.resetClock }, dialect }

/-- A new machine, and what its construction asks of the host. -/
def boot (dialect : Dialect) (answers : Answers) : Option (Machine × List Call) := do
  let machine ← fresh dialect answers
  let room ← sub memorySize programStart
  return (machine, [.takeWords, .loadProgram room])

def reset (answers : Answers) (machine : Machine) : Option (Machine × List Call) := do
  let silence := if machine.registers.sound = 0 then [] else [Call.endTone]
  let shrink := if machine.display.width = 64 then [] else [Call.resized 64]
  let display ← Display.new
  let memory ← blank
  let memory ← load memory answers.rom
  let room ← sub memorySize programStart
  let restarted := { machine with
    words := answers.words
    memory
    registers := {}
    stack := {}
    counter := UInt16.ofNat programStart
    display
    gate := { lastTick := answers.resetClock } }
  return (restarted, .takeWords :: (silence ++ shrink ++ [.loadProgram room]))

def refresh (machine : Machine) : Option (Machine × List Call) :=
  if machine.display.dirty then do
    let cells ← machine.display.pixels
    return ({ machine with display := { machine.display with dirty := false } }, [.draw cells])
  else
    return (machine, [])

def skipIf (machine : Machine) (condition : Bool) : Machine :=
  if condition then { machine with counter := machine.counter + 2 } else machine

def setTo (machine : Machine) (number : Nat) (value : UInt8) : Option Turn := do
  let registers ← setRegister machine.registers number value
  return { machine := { machine with registers } }

def setWithFlag (machine : Machine) (number : Nat) (value : UInt8) (flag : Bool) :
    Option Turn := do
  let registers ← setRegister machine.registers number value
  let registers ← setFlag registers flag
  return { machine := { machine with registers } }

def displaying (machine : Machine) (display : Option Display) : Option Turn := do
  let display ← display
  return { machine := { machine with display } }

def switchTo (machine : Machine) (width : Nat) : Option Turn := do
  let display ← machine.display.resize width
  return { machine := { machine with display }, calls := [.resized width] }

/-- Plots the lit bits of a byte of a sprite, whose highest bit belongs at a column of a row. -/
def drawByte (byte : UInt8) (left row : Nat) (drawn : Display × Bool) : Option (Display × Bool) :=
  (List.range 8).foldlM (fun drawn column => do
    let places ← sub 7 column
    let bit ← shiftRight 8 byte.toNat places
    if bit &&& 1 = 1 then
      let x ← add wordLimit left column
      let (display, hit) ← drawn.1.plot x row
      return (display, drawn.2 || hit)
    else
      return drawn) drawn

def drawSprite (machine : Machine) (x y height : Nat) : Option Turn := do
  let left ← getRegister machine.registers x
  let top ← getRegister machine.registers y
  let wide := height = 0 ∧ machine.display.width = 128
  let rows := if wide then 16 else height
  let stride := if wide then 2 else 1
  let registers ← setFlag machine.registers false
  let drawn ← (List.range rows).foldlM (fun drawn row =>
    (List.range stride).foldlM (fun drawn number => do
      let above ← mul wordLimit row stride
      let offset ← add wordLimit above number
      let byte ← readByte machine.memory (machine.registers.index + UInt16.ofNat offset)
      let across ← mul wordLimit number 8
      let left ← add wordLimit left.toNat across
      let row ← add wordLimit top.toNat row
      drawByte byte left row drawn) drawn) (machine.display, false)
  let registers ← setFlag registers drawn.2
  return { machine := { machine with display := drawn.1, registers } }

/-- Asks for one key after the other until one is held. -/
def findKey (held : Nibble → Bool) : List UInt8 → List Call × Option UInt8
  | [] => ([], none)
  | key :: rest =>
    if held (Nibble.ofNat key.toNat) then ([.askKey key], some key)
    else
      let (calls, found) := findKey held rest
      (.askKey key :: calls, found)

def awaitKey (held : Nibble → Bool) (machine : Machine) (x : Nat) : Option Turn :=
  let (calls, found) := findKey held ((List.range 16).map UInt8.ofNat)
  match found with
  | some key => do
    let registers ← setRegister machine.registers x key
    return { machine := { machine with registers }, calls }
  | none => return { machine := { machine with counter := machine.counter - 2 }, calls }

def setSound (machine : Machine) (value : UInt8) : Turn where
  machine := { machine with registers := { machine.registers with sound := value } }
  calls :=
    if machine.registers.sound = 0 ∧ value ≠ 0 then [.beginTone]
    else if machine.registers.sound ≠ 0 ∧ value = 0 then [.endTone]
    else []

def pointAt (machine : Machine) (index : UInt16) : Turn where
  machine := { machine with registers := { machine.registers with index } }

/-- A byte for each of the decimal digits of a number. -/
def storeDecimal (machine : Machine) (value : UInt8) : Option Turn := do
  let index := machine.registers.index
  let memory ← writeByte machine.memory index (value / 100)
  let memory ← writeByte memory (index + 1) (value / 10 % 10)
  let memory ← writeByte memory (index + 2) (value % 10)
  return { machine := { machine with memory } }

def saveRegisters (machine : Machine) (x : Nat) : Option Turn := do
  let memory ← (List.range (x + 1)).foldlM (fun memory number => do
    let value ← getRegister machine.registers number
    writeByte memory (machine.registers.index + UInt16.ofNat number) value) machine.memory
  return { machine := { machine with memory } }

def loadRegisters (machine : Machine) (x : Nat) : Option Turn := do
  let index := machine.registers.index
  let registers ← (List.range (x + 1)).foldlM (fun registers number => do
    let value ← readByte machine.memory (index + UInt16.ofNat number)
    setRegister registers number value) machine.registers
  return { machine := { machine with registers } }

def execute (answers : Answers) (machine : Machine) (instruction : Instruction) : Option Turn :=
  let v (x : Nibble) := getRegister machine.registers x.val
  match instruction with
  | .scrollDown n => machine.displaying (machine.display.scrollDown n.val)
  | .clearScreen => machine.displaying machine.display.clear
  | .returnFromCall => do
    let popped ← machine.stack.pop
    return { machine := { machine with counter := popped.1, stack := popped.2 } }
  | .scrollRight => machine.displaying machine.display.scrollRight
  | .scrollLeft => machine.displaying machine.display.scrollLeft
  | .exit => return { machine, outcome := .exited }
  | .lowResolution => machine.switchTo 64
  | .highResolution => machine.switchTo 128
  | .setFrequency => do
    let hertz ← mul doubleLimit (← v 0).toNat 10
    return { machine, calls := [.setFrequency hertz] }
  | .softReset => do
    let fresh ← machine.reset answers
    return { machine := fresh.1, calls := fresh.2 }
  | .setColours => do
    machine.displaying (machine.display.setColours (← v 0) (← v 1))
  | .jump nnn => return { machine := { machine with counter := nnn.toWord } }
  | .call nnn => do
    let stack ← machine.stack.push machine.counter
    return { machine := { machine with counter := nnn.toWord, stack } }
  | .skipIfByte x kk => do return { machine := machine.skipIf ((← v x) = kk) }
  | .skipUnlessByte x kk => do return { machine := machine.skipIf ((← v x) ≠ kk) }
  | .skipIfEqual x y => do return { machine := machine.skipIf ((← v x) = (← v y)) }
  | .loadByte x kk => machine.setTo x.val kk
  | .addByte x kk => do machine.setTo x.val ((← v x) + kk)
  | .copy x y => do machine.setTo x.val (← v y)
  | .or x y => do machine.setTo x.val ((← v x) ||| (← v y))
  | .and x y => do machine.setTo x.val ((← v x) &&& (← v y))
  | .xor x y => do machine.setTo x.val ((← v x) ^^^ (← v y))
  | .add x y => do
    let vx ← v x
    let vy ← v y
    machine.setWithFlag x.val (vx + vy) (256 ≤ vx.toNat + vy.toNat)
  | .subtract x y => do
    let vx ← v x
    let vy ← v y
    machine.setWithFlag x.val (vx - vy) (vy ≤ vx)
  | .shiftRight x => do
    let vx ← v x
    let shifted ← shiftRight 8 vx.toNat 1
    machine.setWithFlag x.val (UInt8.ofNat shifted) (vx &&& 1 = 1)
  | .subtractFrom x y => do
    let vx ← v x
    let vy ← v y
    let flag := if machine.dialect.standardBorrow then vx ≤ vy else vx < vy
    machine.setWithFlag x.val (vy - vx) flag
  | .shiftLeft x => do
    let vx ← v x
    let shifted ← shiftLeft 8 vx.toNat 1
    let high ← shiftRight 8 vx.toNat 7
    machine.setWithFlag x.val (UInt8.ofNat shifted) (high = 1)
  | .skipUnlessEqual x y => do return { machine := machine.skipIf ((← v x) ≠ (← v y)) }
  | .setIndex nnn => return machine.pointAt nnn.toWord
  | .jumpOffset nnn => do
    let counter ← add wordLimit nnn.val (← v 0).toNat
    return { machine := { machine with counter := UInt16.ofNat counter } }
  | .random x kk => do
    guard (0 < 255)
    let drawn := machine.words.below 255
    let registers ← setRegister machine.registers x.val (UInt8.ofNat drawn.1 &&& kk)
    return { machine := { machine with registers, words := drawn.2 } }
  | .draw x y n => machine.drawSprite x.val y.val n.val
  | .skipIfKey x => do
    let key := (← v x) &&& 0xF
    let held := answers.held (Nibble.ofNat key.toNat)
    return { machine := machine.skipIf held, calls := [.askKey key] }
  | .skipUnlessKey x => do
    let key := (← v x) &&& 0xF
    let held := answers.held (Nibble.ofNat key.toNat)
    return { machine := machine.skipIf (!held), calls := [.askKey key] }
  | .readDelay x => machine.setTo x.val machine.registers.delay
  | .awaitKey x => machine.awaitKey answers.held x.val
  | .setDelay x => do
    let delay ← v x
    return { machine := { machine with registers := { machine.registers with delay } } }
  | .setSound x => do return machine.setSound (← v x)
  | .addToIndex x => do return machine.pointAt (machine.registers.index + (← v x).toUInt16)
  | .pointAtGlyph x => do
    let index ← mul wordLimit (← v x).toNat glyphSize
    return machine.pointAt (UInt16.ofNat index)
  | .storeDecimal x => do machine.storeDecimal (← v x)
  | .saveRegisters x => machine.saveRegisters x.val
  | .loadRegisters x => machine.loadRegisters x.val

/-- Lets both timers count once if the gate opens. -/
def tick (now : Instant) (machine : Machine) : Option (Machine × List Call) :=
  let polled := machine.gate.poll now
  if polled.2 then do
    let counted ← countSound machine.registers.countDelay
    return ({ machine with gate := polled.1, registers := counted.1 },
      if counted.2 then [.endTone] else [])
  else
    return ({ machine with gate := polled.1 }, [])

def step (answers : Answers) (machine : Machine) : Option (Except Fault Turn) := do
  let opcode ← readWord machine.memory machine.counter
  match ← decode opcode with
  | .error fault => return .error fault
  | .ok instruction =>
    if instruction.isHostExtension ∧ ¬machine.dialect.hostExtensions then
      return .error (.invalidOpcode opcode)
    else
      let turn ← execute answers { machine with counter := machine.counter + 2 } instruction
      match turn.outcome with
      | .exited => return .ok turn
      | .running =>
        let ticked ← turn.machine.tick answers.pollClock
        return .ok { machine := ticked.1, calls := turn.calls ++ ticked.2 }

end Machine

end Chip8.Checked
