import ServiceDiscovery.Text.Decimal

/-!
# Log levels

The levels of log events in ascending order of importance, and above them the level that lets no
event through. Names are read in any case.
-/

namespace ServiceDiscovery.Log

/-- A minimum level of events. -/
inductive Level
  | trace
  | debug
  | info
  | warn
  | error
  /-- No events at all. -/
  | off
  deriving DecidableEq, Repr

/-- A text with its ASCII letters in lower case. -/
def lowerCase (s : String) : String := String.ofList (s.toList.map Char.toLower)

/-- A text with its ASCII letters in upper case. -/
def upperCase (s : String) : String := String.ofList (s.toList.map Char.toUpper)

namespace Level

/-- The levels in ascending order. -/
def all : List Level := [.trace, .debug, .info, .warn, .error, .off]

/-- The place of a level in ascending order. -/
def rank : Level → Nat
  | .trace => 0
  | .debug => 1
  | .info => 2
  | .warn => 3
  | .error => 4
  | .off => 5

/-- Whether a level comes before another one or is equal to it. -/
def le (a b : Level) : Bool := a.rank ≤ b.rank

/-- The levels in ascending order, repeats kept. -/
def sort (levels : List Level) : List Level := levels.mergeSort le

/-- The name of a level. -/
def name : Level → String
  | .trace => "trace"
  | .debug => "debug"
  | .info => "info"
  | .warn => "warn"
  | .error => "error"
  | .off => "off"

/-- A level as it is shown. -/
def toText (l : Level) : String := upperCase l.name

/-- The level that a name in any case stands for. -/
def ofName? (s : String) : Option Level :=
  match lowerCase s with
  | "trace" => some .trace
  | "debug" => some .debug
  | "info" => some .info
  | "warn" | "warning" => some .warn
  | "error" => some .error
  | "off" | "none" => some .off
  | _ => none

/-- The level that a number stands for; greater numbers let more through. -/
def ofNumber? (n : Nat) : Option Level :=
  [.off, .error, .warn, .info, .debug, .trace][n]?

/-- The level of a filter's directive: a number or a name, of which there is one for each level. -/
def ofDirective? (s : String) : Option Level :=
  ((Decimal.read? UInt64.size s.toList).bind ofNumber?).or
    (all.find? fun l => lowerCase s == l.name)

end Level

end ServiceDiscovery.Log
