/-!
# JSON values

A value as a JSON text denotes it, with members in the order written and repeats kept. Unsigned
integer literals are numbers of their own; any other number keeps its spelling, so that no digit is
lost where nobody asks for the value.
-/

namespace ServiceDiscovery.Json

/-- The text of a string or member name; none when it holds an unpaired surrogate or bytes that are
no character, which only matters to a reader of that text. -/
abbrev Text := Option String

/-- A number: an integer written with digits alone, or another spelling. -/
inductive Number
  | natural (n : Nat)
  | other (spelling : String)
  deriving DecidableEq, Repr

/-- A JSON value. -/
inductive Value
  | null
  | bool (b : Bool)
  | number (n : Number)
  | string (s : Text)
  | array (items : List Value)
  | object (members : List (Text × Value))
  deriving Repr

/-- The string value of a text. -/
def Value.text (s : String) : Value := .string (some s)

/-- The number value of a natural number. -/
def Value.natural (n : Nat) : Value := .number (.natural n)

/-- The object with the given named members. -/
def Value.record (members : List (String × Value)) : Value :=
  .object (members.map fun m => (some m.1, m.2))

end ServiceDiscovery.Json
