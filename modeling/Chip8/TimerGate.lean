/-!
# The timer gate

Timers count down at most sixty times a second of clock time, however often
the machine steps. The gate remembers when it last let a count through. A
clock that went back counts as no time passed.
-/
namespace Chip8

/-- A point in time, in nanoseconds. -/
abbrev Instant := Int

/-- A sixtieth of a second in whole nanoseconds. -/
def framePeriod : Nat := 1000000000 / 60

structure TimerGate where
  lastTick : Instant
deriving DecidableEq

namespace TimerGate

/-- Opens when a full period has passed, and starts the next period now. -/
def poll (gate : TimerGate) (now : Instant) : TimerGate × Bool :=
  if (now - gate.lastTick).toNat < framePeriod then (gate, false) else ({ lastTick := now }, true)

end TimerGate

end Chip8
