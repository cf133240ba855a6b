import ServiceDiscovery.Json.Value
import ServiceDiscovery.Text.Decimal
import ServiceDiscovery.Text.Hex

/-!
# Writing JSON

The compact form: no blanks, and in strings an escape for quotes, backslashes and control characters
alone, by letter where there is one and else by four lower-case hexadecimal digits.
-/

namespace ServiceDiscovery.Json

/-- A character as it stands in a string. -/
def writeChar (c : Char) : List Char :=
  if c = '"' then ['\\', '"']
  else if c = '\\' then ['\\', '\\']
  else if c = '\x08' then ['\\', 'b']
  else if c = '\x0c' then ['\\', 'f']
  else if c = '\n' then ['\\', 'n']
  else if c = '\r' then ['\\', 'r']
  else if c = '\t' then ['\\', 't']
  else if c.toNat < 0x20 then
    ['\\', 'u', '0', '0', Hex.lower (c.toNat / 16), Hex.lower (c.toNat % 16)]
  else [c]

/-- A text in quotes; an unreadable one is written as a surrogate without its partner. -/
def writeText : Text → List Char
  | some s => '"' :: s.toList.flatMap writeChar ++ ['"']
  | none => ['"', '\\', 'u', 'd', '8', '0', '0', '"']

/-- A number in its spelling. -/
def writeNumber : Number → List Char
  | .natural n => (Decimal.text n).toList
  | .other spelling => spelling.toList

mutual

/-- The compact text of a value. -/
def write : Value → List Char
  | .null => ['n', 'u', 'l', 'l']
  | .bool true => ['t', 'r', 'u', 'e']
  | .bool false => ['f', 'a', 'l', 's', 'e']
  | .number n => writeNumber n
  | .string s => writeText s
  | .array items => '[' :: writeItems items ++ [']']
  | .object members => '\x7b' :: writeMembers members ++ ['\x7d']

/-- The items of an array with commas between them. -/
def writeItems : List Value → List Char
  | [] => []
  | [v] => write v
  | v :: rest => write v ++ ',' :: writeItems rest

/-- The members of an object with commas between them. -/
def writeMembers : List (Text × Value) → List Char
  | [] => []
  | [(name, v)] => writeText name ++ ':' :: write v
  | (name, v) :: rest => writeText name ++ ':' :: write v ++ ',' :: writeMembers rest

end

/-- The compact text of a value. -/
def Value.toText (v : Value) : String := String.ofList (write v)

end ServiceDiscovery.Json
