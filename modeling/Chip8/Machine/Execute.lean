import Chip8.Machine.Basic

/-!
# Execution

What each instruction does to a machine whose counter already points past it.
Operands are read before anything is written, and the flag is written last, so
that it wins where the result goes to register F too.
-/
namespace Chip8

inductive Outcome
  | running
  | exited
deriving DecidableEq, Repr

/-- What executing or stepping came to. -/
structure Turn where
  machine : Machine
  events : List Event := []
  outcome : Outcome := .running

namespace Machine

def skipIf (machine : Machine) (condition : Bool) : Machine :=
  if condition then { machine with counter := machine.counter + 2 } else machine

/-- Sets a register and then the flag. -/
def setWithFlag (machine : Machine) (x : Nibble) (value : UInt8) (flag : Bool) : Machine :=
  { machine with registers := (machine.registers.set x value).setFlag flag }

def set (machine : Machine) (x : Nibble) (value : UInt8) : Machine :=
  { machine with registers := machine.registers.set x value }

/-- The sprite at the index. Without a height, the high resolution has one of 16 by 16. -/
def sprite (machine : Machine) (height : Nibble) : Sprite :=
  let byte := fun place => machine.memory.read (machine.registers.index + UInt16.ofNat place)
  if height = 0 ∧ machine.plane.resolution = .high then { rows := 16, stride := 2, byte }
  else { rows := height.val, stride := 1, byte }

def drawSprite (machine : Machine) (x y height : Nibble) : Machine :=
  let v := machine.registers.get
  let (plane, collision) := machine.plane.stamp (machine.sprite height) (v x).toNat (v y).toNat
  { machine with plane, registers := machine.registers.setFlag collision }

def switchTo (machine : Machine) (resolution : Resolution) : Turn where
  machine := { machine with plane := machine.plane.resize resolution }
  events := [.call (.resized resolution), .note (.switched resolution)]

/-- Stores the least key that is held, or goes back to wait for one. All keys
up to the first held one are asked for. -/
def awaitKey (held : Nibble → Bool) (machine : Machine) (x : Nibble) : Turn :=
  let keys := List.finRange 16
  match keys.find? held with
  | some key => {
      machine := machine.set x (UInt8.ofNat key.val)
      events := (keys.take (key.val + 1)).map fun key => .call (.askKey key) }
  | none => {
      machine := { machine with counter := machine.counter - 2 }
      events := keys.map fun key => .call (.askKey key) }

/-- The tone sounds just while the sound timer is not zero. -/
def setSound (machine : Machine) (value : UInt8) : Turn where
  machine := { machine with registers := { machine.registers with sound := value } }
  events :=
    if machine.registers.sound = 0 ∧ value ≠ 0 then [.call .beginTone]
    else if machine.registers.sound ≠ 0 ∧ value = 0 then [.call .endTone]
    else []

/-- Registers 0 to `x` from memory at the index. -/
def loadRegisters (machine : Machine) (x : Nibble) : Machine :=
  let registers := machine.registers
  let v := Vector.ofFn fun place : Nibble =>
    if place ≤ x then machine.memory.read (registers.index + UInt16.ofNat place.val)
    else registers.get place
  { machine with registers := { registers with v } }

/-- Writes bytes to memory at the index. -/
def store (machine : Machine) (bytes : List UInt8) : Machine :=
  { machine with memory := machine.memory.writeFrom machine.registers.index bytes }

def pointAt (machine : Machine) (index : UInt16) : Machine :=
  { machine with registers := { machine.registers with index } }

def goTo (machine : Machine) (address : UInt16) : Machine :=
  { machine with counter := address }

def execute (answers : Answers) (machine : Machine) (instruction : Instruction) : Turn :=
  let v := machine.registers.get
  match instruction with
  | .scrollDown n => { machine := { machine with plane := machine.plane.scrollDown n.val } }
  | .clearScreen => { machine := { machine with plane := machine.plane.clear } }
  | .returnFromCall =>
    let (counter, stack) := machine.stack.pop
    { machine := { machine with counter, stack } }
  | .scrollRight => { machine := { machine with plane := machine.plane.scrollRight } }
  | .scrollLeft => { machine := { machine with plane := machine.plane.scrollLeft } }
  | .exit => { machine, events := [.note (.exited machine.counter)], outcome := .exited }
  | .lowResolution => machine.switchTo .low
  | .highResolution => machine.switchTo .high
  | .setFrequency => { machine, events := [.call (.setFrequency ((v 0).toNat * 10))] }
  | .softReset =>
    let (machine, events) := machine.reset answers
    { machine, events }
  | .setColours => { machine := { machine with plane := machine.plane.setColours (v 0) (v 1) } }
  | .jump nnn => { machine := machine.goTo nnn.toWord }
  | .call nnn =>
    let stack := machine.stack.push machine.counter
    { machine := { machine with counter := nnn.toWord, stack } }
  | .skipIfByte x kk => { machine := machine.skipIf (v x = kk) }
  | .skipUnlessByte x kk => { machine := machine.skipIf (v x ≠ kk) }
  | .skipIfEqual x y => { machine := machine.skipIf (v x = v y) }
  | .loadByte x kk => { machine := machine.set x kk }
  | .addByte x kk => { machine := machine.set x (v x + kk) }
  | .copy x y => { machine := machine.set x (v y) }
  | .or x y => { machine := machine.set x (v x ||| v y) }
  | .and x y => { machine := machine.set x (v x &&& v y) }
  | .xor x y => { machine := machine.set x (v x ^^^ v y) }
  | .add x y => { machine := machine.setWithFlag x (v x + v y) (256 ≤ (v x).toNat + (v y).toNat) }
  | .subtract x y => { machine := machine.setWithFlag x (v x - v y) (v y ≤ v x) }
  | .shiftRight x => { machine := machine.setWithFlag x (v x >>> 1) (v x &&& 1 = 1) }
  | .subtractFrom x y =>
    let flag := if machine.dialect.standardBorrow then v x ≤ v y else v x < v y
    { machine := machine.setWithFlag x (v y - v x) flag }
  | .shiftLeft x => { machine := machine.setWithFlag x (v x <<< 1) (128 ≤ v x) }
  | .skipUnlessEqual x y => { machine := machine.skipIf (v x ≠ v y) }
  | .setIndex nnn => { machine := machine.pointAt nnn.toWord }
  | .jumpOffset nnn => { machine := machine.goTo (nnn.toWord + (v 0).toUInt16) }
  | .random x kk =>
    let (byte, words) := machine.words.below 255
    { machine := { machine.set x (UInt8.ofNat byte &&& kk) with words } }
  | .draw x y n => { machine := machine.drawSprite x y n }
  | .skipIfKey x =>
    let key := Nibble.ofNat (v x).toNat
    { machine := machine.skipIf (answers.held key), events := [.call (.askKey key)] }
  | .skipUnlessKey x =>
    let key := Nibble.ofNat (v x).toNat
    { machine := machine.skipIf (!answers.held key), events := [.call (.askKey key)] }
  | .readDelay x => { machine := machine.set x machine.registers.delay }
  | .awaitKey x => machine.awaitKey answers.held x
  | .setDelay x =>
    { machine := { machine with registers := { machine.registers with delay := v x } } }
  | .setSound x => machine.setSound (v x)
  | .addToIndex x => { machine := machine.pointAt (machine.registers.index + (v x).toUInt16) }
  | .pointAtGlyph x => { machine := machine.pointAt (UInt16.ofNat ((v x).toNat * glyphSize)) }
  | .storeDecimal x => { machine := machine.store [v x / 100, v x / 10 % 10, v x % 10] }
  | .saveRegisters x => { machine := machine.store (machine.registers.v.toList.take (x.val + 1)) }
  | .loadRegisters x => { machine := machine.loadRegisters x }

end Machine

end Chip8
