/-!
# Log levels

A record has a level. A filter lets through what is at least as grave as its
own level; no level at all lets nothing through.
-/
namespace Chip8

inductive Level
  | error
  | warn
  | info
  | debug
  | trace
deriving DecidableEq, Repr

namespace Level

def label : Level → String
  | error => "ERROR"
  | warn => "WARN"
  | info => "INFO"
  | debug => "DEBUG"
  | trace => "TRACE"

/-- What a record of this level begins with where it is printed. -/
def mark (level : Level) : String := "[" ++ level.label ++ "] "

/-- From the gravest to the most talkative. -/
def verbosity : Level → Nat
  | error => 1
  | warn => 2
  | info => 3
  | debug => 4
  | trace => 5

end Level

structure LogFilter where
  most : Option Level
deriving DecidableEq, Repr

namespace LogFilter

def ofName? : String → Option LogFilter
  | "off" => some ⟨none⟩
  | "error" => some ⟨some .error⟩
  | "warn" => some ⟨some .warn⟩
  | "info" => some ⟨some .info⟩
  | "debug" => some ⟨some .debug⟩
  | "trace" => some ⟨some .trace⟩
  | _ => none

def admits (filter : LogFilter) (level : Level) : Bool :=
  filter.most.any fun most => level.verbosity ≤ most.verbosity

end LogFilter

end Chip8
