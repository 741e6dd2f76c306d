import Chip8.Random.WordStream
import Chip8.Word

/-!
# Keyed streams

The ChaCha key stream with eight rounds, a 64 bit block counter from zero and
no nonce. A 64 bit seed is spread over the eight key words by a permuted
congruential generator. The word at any place of the stream depends on the key
and on that place alone.
-/
namespace Chip8

namespace ChaCha

abbrev Block := Bank UInt32

abbrev Key := Vector UInt32 8

def rotateLeft (word count : UInt32) : UInt32 := word <<< count ||| word >>> (32 - count)

def rotateRight (word count : UInt32) : UInt32 := word >>> count ||| word <<< (32 - count)

def quarterRound (block : Block) (a b c d : Nibble) : Block :=
  let block := block.put a (block.get a + block.get b)
  let block := block.put d (rotateLeft (block.get d ^^^ block.get a) 16)
  let block := block.put c (block.get c + block.get d)
  let block := block.put b (rotateLeft (block.get b ^^^ block.get c) 12)
  let block := block.put a (block.get a + block.get b)
  let block := block.put d (rotateLeft (block.get d ^^^ block.get a) 8)
  let block := block.put c (block.get c + block.get d)
  block.put b (rotateLeft (block.get b ^^^ block.get c) 7)

/-- The four columns, then the four diagonals. -/
def doubleRound (block : Block) : Block :=
  let block := quarterRound block 0 4 8 12
  let block := quarterRound block 1 5 9 13
  let block := quarterRound block 2 6 10 14
  let block := quarterRound block 3 7 11 15
  let block := quarterRound block 0 5 10 15
  let block := quarterRound block 1 6 11 12
  let block := quarterRound block 2 7 8 13
  quarterRound block 3 4 9 14

def initial (key : Key) (counter : UInt64) : Block :=
  #v[0x61707865, 0x3320646e, 0x79622d32, 0x6b206574,
    key[0], key[1], key[2], key[3], key[4], key[5], key[6], key[7],
    counter.toUInt32, (counter >>> 32).toUInt32, 0, 0]

def block (key : Key) (counter : UInt64) : Block :=
  let start := initial key counter
  let mixed := Nat.repeat doubleRound 4 start
  Vector.zipWith (· + ·) mixed start

/-- One step of the generator that spreads a seed. -/
def advance (state : UInt64) : UInt64 := state * 6364136223846793005 + 11634580027462260723

/-- The word that the generator shows in a state. -/
def shown (state : UInt64) : UInt32 :=
  rotateRight (((state >>> 18) ^^^ state) >>> 27).toUInt32 (state >>> 59).toUInt32

def keyOf (seed : UInt64) : Key :=
  Vector.ofFn fun place => shown (Nat.repeat advance (place.val + 1) seed)

end ChaCha

namespace WordStream

def keyed (key : ChaCha.Key) : WordStream where
  word place := (ChaCha.block key (UInt64.ofNat (place / 16))).get (Nibble.ofNat place)

def seeded (seed : UInt64) : WordStream := keyed (ChaCha.keyOf seed)

/-- Streams with a key of their own each, which are the words of one more stream. -/
def family (keys : WordStream) (number : Nat) : WordStream :=
  keyed (Vector.ofFn fun place => keys.word (8 * number + place.val))

end WordStream

end Chip8
