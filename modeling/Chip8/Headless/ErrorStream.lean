import Chip8.Log

/-!
# The error stream

Log records and the report of a failure follow each other on one stream, which
is read line by line. A record begins a line, and its level belongs to that
line. More lines of its text have no level. A record without a line end of its
own shares its line with what follows, mark and all.

Streams are built from their end, so that text in front of a stream only ever
meets the first line of it.
-/
namespace Chip8.Headless

structure StreamLine where
  /-- The level of the record that begins the line. -/
  level : Option Level
  text : String
deriving DecidableEq, Repr

namespace StreamLine

def printed (line : StreamLine) : String :=
  match line.level with
  | none => line.text
  | some level => level.mark ++ line.text

end StreamLine

abbrev ErrorStream := List StreamLine

namespace ErrorStream

/-- Text without a line end in front of a stream. -/
def joined (text : String) : ErrorStream → ErrorStream
  | [] => if text = "" then [] else [{ level := none, text }]
  | line :: rest =>
    if text = "" then line :: rest
    else { level := none, text := text ++ line.printed } :: rest

/-- Lines in front of a stream, the last of them without its end. -/
def laid : List String → ErrorStream → ErrorStream
  | [], stream => stream
  | [last], stream => stream.joined last
  | line :: lines, stream => { level := none, text := line } :: laid lines stream

/-- Gives the first line to a record. -/
def begun (level : Level) : ErrorStream → ErrorStream
  | [] => []
  | line :: rest => { level := some level, text := line.printed } :: rest

def report (text : String) (stream : ErrorStream) : ErrorStream :=
  laid (text.splitOn "\n") stream

def record (level : Level) (text : String) (stream : ErrorStream) : ErrorStream :=
  (stream.report text).begun level

end ErrorStream

end Chip8.Headless
