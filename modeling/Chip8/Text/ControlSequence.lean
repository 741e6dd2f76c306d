/-!
# Control sequences of a terminal

Characters can steer a terminal instead of being shown. The escape character
opens a sequence, and what follows belongs to it until it is complete. A
control character outside of a sequence steers too. The visible part of a text
is what is left without either.

White space is never lost where a terminal would act on it at once, which it
does within the shorter sequences. It is shown there, and so is what follows up
to the next control character, at which the sequence goes on.
-/
namespace Chip8.ControlSequence

/-- What the next character belongs to. -/
inductive State
  /-- Plain text. -/
  | plain
  /-- A sequence of which only the escape character is known. -/
  | escape
  /-- A short escape sequence, up to its final character. -/
  | short
  /-- Parameters of a command, up to its letter. -/
  | control
  /-- A command with data, up to where the data starts. -/
  | device
  | deviceParameter
  | deviceIntermediate
  /-- Data, up to the terminator byte. -/
  | data
  /-- A command for the system around the terminal, up to a bell. -/
  | system
deriving DecidableEq, Repr

/-- White space other than a blank. -/
def isLayout (c : Char) : Bool := c = '\t' || c = '\n' || c = '\x0c' || c = '\r'

def isPrintable (c : Char) : Bool := isLayout c || (' ' ≤ c && c ≠ '\x7f')

/-- The character completes a command. -/
def isLetter (c : Char) : Bool := '@' ≤ c && c ≤ '~'

/-- The character stands between the parameters and the end of a sequence. -/
def isIntermediate (c : Char) : Bool := ' ' ≤ c && c ≤ '/'

/-- The terminator is a byte, so a character that is written with it ends data as well. -/
def terminatesData (c : Char) : Bool := (String.utf8EncodeChar c).contains 0x9c

namespace State

/-- The character is shown where it stands. -/
def shows : State → Char → Bool
  | plain, c => isPrintable c
  | escape, c | short, c | control, c => isLayout c
  | device, _ | deviceParameter, _ | deviceIntermediate, _ | data, _ | system, _ => false

/-- The state after a character that is not shown. Data starts after a letter, and also where
parameters are out of order, so that a malformed command does not show what it carries. -/
def next (state : State) (c : Char) : State :=
  if c = '\x1b' then escape
  else if c = '\x18' || c = '\x1a' then plain
  else match state with
    | plain => plain
    | escape =>
      if c = '[' then control
      else if c = ']' then system
      else if c = 'P' then device
      else if c = 'X' || c = '^' || c = '_' then data
      else if '0' ≤ c && c ≤ '~' then plain
      else if isIntermediate c then short
      else escape
    | short => if '0' ≤ c && c ≤ '~' then plain else short
    | control => if isLetter c then plain else control
    | device =>
      if isLetter c then data
      else if isIntermediate c then deviceIntermediate
      else if '0' ≤ c && c ≤ '?' then deviceParameter
      else device
    | deviceParameter =>
      if '<' ≤ c && c ≤ '~' then data
      else if isIntermediate c then deviceIntermediate
      else deviceParameter
    | deviceIntermediate => if '0' ≤ c && c ≤ '~' then data else deviceIntermediate
    | data => if terminatesData c then plain else data
    | system => if c = '\x07' then plain else system

end State

/-- What is shown from `state` on. The text is open after something was shown. -/
def visibleFrom (state : State) (isOpen : Bool) : List Char → List Char
  | [] => []
  | c :: rest =>
    if state.shows c || (isOpen && isPrintable c) then
      c :: visibleFrom (if c.toNat < 128 then state else .plain) true rest
    else visibleFrom (state.next c) false rest

def visible (text : List Char) : List Char := visibleFrom .plain false text

end Chip8.ControlSequence
