import Chip8.Word

/-!
# The call stack

Sixteen slots and a four bit pointer to the next free one. A seventeenth
nested call takes the first slot again, and a return from an empty stack reads
the last.
-/
namespace Chip8

structure CallStack where
  slots : Bank UInt16 := Vector.replicate 16 0
  pointer : Nibble := 0
deriving DecidableEq

namespace CallStack

def push (stack : CallStack) (address : UInt16) : CallStack :=
  { slots := stack.slots.put stack.pointer address, pointer := stack.pointer + 1 }

def pop (stack : CallStack) : UInt16 × CallStack :=
  (stack.slots.get (stack.pointer - 1), { stack with pointer := stack.pointer - 1 })

end CallStack

end Chip8
