/-!
# Program images

An image has no header. It is copied byte for byte into the room it is given,
and what does not fit is dropped.
-/
namespace Chip8

structure Rom where
  bytes : Array UInt8
deriving DecidableEq

namespace Rom

/-- Byte `place` of a region that held `old` there, after the image is copied to its start. -/
def overlay (rom : Rom) (place : Nat) (old : UInt8) : UInt8 := rom.bytes[place]?.getD old

/-- How many bytes of the image fit into `room`. -/
def copied (rom : Rom) (room : Nat) : Nat := min rom.bytes.size room

def copyInto (rom : Rom) (region : Array UInt8) : Array UInt8 := region.mapIdx rom.overlay

end Rom

end Chip8
