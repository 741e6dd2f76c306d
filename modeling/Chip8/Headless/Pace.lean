/-!
# Pace

How many instructions are meant to run in a second. It is at least one, so the
time between two steps is always defined; it is a whole number of nanoseconds,
rounded down.
-/
namespace Chip8.Headless

@[ext]
structure Pace where
  hertz : Nat
  positive : 0 < hertz
deriving DecidableEq

namespace Pace

def standard : Pace := ⟨500, by decide⟩

/-- The pace nearest to a wish of a program, which may be zero. -/
def nearest (hertz : Nat) : Pace := ⟨max hertz 1, by omega⟩

/-- Nanoseconds from one step to the next. -/
def interval (pace : Pace) : Nat := 1000000000 / pace.hertz

end Pace

end Chip8.Headless
