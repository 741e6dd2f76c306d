import Chip8.Word

/-!
# Registers

Sixteen byte registers, the 16 bit index and the two timers. Register F is
also the flag. The timers count down and rest at zero.
-/
namespace Chip8

structure Registers where
  v : Bank UInt8 := Vector.replicate 16 0
  index : UInt16 := 0
  delay : UInt8 := 0
  sound : UInt8 := 0
deriving DecidableEq

namespace Registers

def get (registers : Registers) (x : Nibble) : UInt8 := registers.v.get x

def set (registers : Registers) (x : Nibble) (value : UInt8) : Registers :=
  { registers with v := registers.v.put x value }

theorem get_set (registers : Registers) (x y : Nibble) (value : UInt8) :
    (registers.set x value).get y = if x = y then value else registers.get y :=
  Bank.get_put registers.v x y value

def setFlag (registers : Registers) (value : Bool) : Registers :=
  registers.set 0xF (if value then 1 else 0)

def countDelay (registers : Registers) : Registers :=
  { registers with delay := if registers.delay = 0 then 0 else registers.delay - 1 }

/-- Also says whether the sound timer has just run out. -/
def countSound (registers : Registers) : Registers × Bool :=
  if registers.sound = 0 then (registers, false)
  else ({ registers with sound := registers.sound - 1 }, registers.sound = 1)

end Registers

end Chip8
