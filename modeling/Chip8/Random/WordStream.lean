/-!
# Streams of random words

A stream is all the words that it will ever give, with the number already
taken. So a stream can be compared, continued and started over without a
hidden state.

A number below a bound comes from the high half of a word times the bound.
When the low half is so near its end that a longer product could have carried,
a second word decides about the carry.
-/
namespace Chip8

structure WordStream where
  word : Nat → UInt32
  used : Nat := 0

namespace WordStream

def next (stream : WordStream) : UInt32 × WordStream :=
  (stream.word stream.used, { stream with used := stream.used + 1 })

/-- A list of words, started over after the last. -/
def cycling (words : Array UInt32) : WordStream where
  word place := words[place % words.size]?.getD 0

/-- A number below a positive `bound`. A high half of `bound - 1` comes with a low half that
asks for no carry, so the carry never reaches the bound. -/
def below (bound : Nat) (stream : WordStream) : Nat × WordStream :=
  let (first, stream) := stream.next
  let product := first.toNat * bound
  let high := product / 4294967296
  let low := product % 4294967296
  if 4294967296 - bound < low then
    let (second, stream) := stream.next
    let carry := if 4294967296 ≤ low + second.toNat * bound / 4294967296 then 1 else 0
    (high + carry, stream)
  else (high, stream)

end WordStream

end Chip8
