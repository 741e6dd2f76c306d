import Chip8.Machine.Note
import Chip8.Random.WordStream
import Chip8.TimerGate

/-!
# The host

A host presents the machine: it shows the plane, sounds the tone, holds the
keys, keeps the clock and hands out programs and random words. The machine
does not reach into it. What the host would answer during one operation is
given beforehand, and what the machine asked of it is reported afterwards, in
order.
-/
namespace Chip8

/-- What the host answers while one operation runs. -/
structure Answers where
  /-- The clock when the machine starts over. -/
  resetClock : Instant
  /-- The clock when the timers get their chance. -/
  pollClock : Instant
  held : Nibble → Bool
  rom : Rom
  words : WordStream

inductive Call
  /-- For a stream of random words, from its start. -/
  | takeWords
  /-- For a program image in `room` bytes of memory, of which it filled the first `copied`. -/
  | loadProgram (room copied : Nat)
  /-- To show the visible cells, row after row. -/
  | draw (cells : Array UInt8)
  /-- Whether a key is held. -/
  | askKey (key : Nibble)
  | beginTone
  | endTone
  | setFrequency (hertz : Nat)
  | resized (resolution : Resolution)
deriving DecidableEq, Repr

inductive Event
  | call (call : Call)
  | note (note : Note)
deriving DecidableEq, Repr

end Chip8
