import ServiceDiscovery.Json.Value
import ServiceDiscovery.Text.Decimal
import ServiceDiscovery.Text.Hex
import ServiceDiscovery.Text.Utf8

/-!
# Reading JSON

A strict reader of the whole text. It works on characters and gaps, as bytes may spell no character:
a gap is allowed inside a string only, and makes the text of that string unreadable, as an unpaired
surrogate does. Nothing but blanks may follow the value.
-/

namespace ServiceDiscovery.Json

/-- One character of a JSON text, or a piece of its bytes that is none. -/
abbrev Symbol := Option Char

/-- The text after leading spaces, tabs and line ends. -/
def skipBlank (s : List Symbol) : List Symbol :=
  s.dropWhile fun c => c == some ' ' || c == some '\n' || c == some '\t' || c == some '\r'

/-- A part of a string: a character, a surrogate written as an escape, or a gap. -/
inductive Piece
  | char (c : Char)
  | surrogate (unit : Nat)
  | gap
  deriving DecidableEq

/-- The part that an escaped code unit is. -/
def Piece.ofUnit (n : Nat) : Piece :=
  if 0xD800 ≤ n ∧ n ≤ 0xDFFF then .surrogate n else .char (Char.ofNat n)

/-- The code unit that four hexadecimal digits spell. -/
def unit? (a b c d : Char) : Option Nat := do
  let a ← Hex.digit? a
  let b ← Hex.digit? b
  let c ← Hex.digit? c
  let d ← Hex.digit? d
  return ((a * 16 + b) * 16 + c) * 16 + d

/-- The character that an escape of one letter stands for. -/
def escaped? : Char → Option Char
  | '"' => some '"'
  | '\\' => some '\\'
  | '/' => some '/'
  | 'b' => some '\x08'
  | 'f' => some '\x0c'
  | 'n' => some '\n'
  | 'r' => some '\r'
  | 't' => some '\t'
  | _ => none

/-- The parts of a string up to its closing quote, and the text after it. -/
def readPieces : List Symbol → Option (List Piece × List Symbol)
  | [] => none
  | some '"' :: s => some ([], s)
  | some '\\' :: some 'u' :: some a :: some b :: some c :: some d :: s =>
    match unit? a b c d with
    | none => none
    | some n => (readPieces s).map fun p => (.ofUnit n :: p.1, p.2)
  | some '\\' :: some e :: s =>
    match escaped? e with
    | none => none
    | some c => (readPieces s).map fun p => (.char c :: p.1, p.2)
  | some '\\' :: _ => none
  | some c :: s =>
    if c.toNat < 0x20 then none else (readPieces s).map fun p => (.char c :: p.1, p.2)
  | none :: s => (readPieces s).map fun p => (.gap :: p.1, p.2)

/-- The characters of the parts: a high surrogate and the low one right after it are one character,
any other surrogate or gap makes the text unreadable. -/
def joinPieces? : List Piece → Option (List Char)
  | [] => some []
  | .char c :: s => (joinPieces? s).map (c :: ·)
  | .surrogate high :: .surrogate low :: s =>
    if high < 0xDC00 ∧ 0xDC00 ≤ low then
      (joinPieces? s).map (Char.ofNat (0x10000 + 0x400 * (high - 0xD800) + (low - 0xDC00)) :: ·)
    else none
  | _ => none

/-- The string after an opening quote. -/
def readString (s : List Symbol) : Option (Text × List Symbol) :=
  (readPieces s).map fun p => ((joinPieces? p.1).map String.ofList, p.2)

/-- The digits at the front of a text, and the text after them. -/
def takeDigits : List Symbol → List Char × List Symbol
  | some c :: s =>
    if (Decimal.digit? c).isSome then
      let p := takeDigits s
      (c :: p.1, p.2)
    else ([], some c :: s)
  | s => ([], s)

/-- The fraction at the front of a text, with its point; empty if there is none. -/
def readFraction (s : List Symbol) : Option (List Char × List Symbol) :=
  match s with
  | some '.' :: s =>
    let p := takeDigits s
    if p.1.isEmpty then none else some ('.' :: p.1, p.2)
  | s => some ([], s)

/-- The exponent at the front of a text, with its letter and sign; empty if there is none. -/
def readExponent (s : List Symbol) : Option (List Char × List Symbol) :=
  match s with
  | some c :: s =>
    if c = 'e' ∨ c = 'E' then
      let (sign, s) := match s with
        | some '+' :: s => (['+'], s)
        | some '-' :: s => (['-'], s)
        | s => ([], s)
      let p := takeDigits s
      if p.1.isEmpty then none else some (c :: sign ++ p.1, p.2)
    else some ([], some c :: s)
  | [] => some ([], [])
  | s => some ([], s)

/-- The number at the front of a text; no integer part has a leading zero but zero itself. -/
def readNumber (s : List Symbol) : Option (Number × List Symbol) := do
  let (sign, s) := match s with
    | some '-' :: s => (['-'], s)
    | s => ([], s)
  let (whole, s) := takeDigits s
  if whole.isEmpty || (whole.head? == some '0' && whole.length > 1) then none
  let (fraction, s) ← readFraction s
  let (exponent, s) ← readExponent s
  let number :=
    match sign ++ fraction ++ exponent, Decimal.digits? whole with
    | [], some n => Number.natural n
    | _, _ => .other (String.ofList (sign ++ whole ++ fraction ++ exponent))
  return (number, s)

/-- The text after `word` at its front. -/
def readWord (word : List Char) (s : List Symbol) : Option (List Symbol) :=
  match word, s with
  | [], s => some s
  | c :: word, some d :: s => if c = d then readWord word s else none
  | _, _ => none

mutual

/-- The value at the front of a text, in at most `fuel` nested steps. -/
def readValue : (fuel : Nat) → List Symbol → Option (Value × List Symbol)
  | 0, _ => none
  | fuel + 1, s =>
    match skipBlank s with
    | [] => none
    | none :: _ => none
    | some c :: s =>
      if c = '"' then (readString s).map fun p => (.string p.1, p.2)
      else if c = '[' then
        match skipBlank s with
        | some ']' :: s => some (.array [], s)
        | s => (readItems fuel s).map fun p => (.array p.1, p.2)
      else if c = '\x7b' then
        match skipBlank s with
        | some '\x7d' :: s => some (.object [], s)
        | s => (readMembers fuel s).map fun p => (.object p.1, p.2)
      else if c = 'n' then (readWord ['u', 'l', 'l'] s).map fun s => (.null, s)
      else if c = 't' then (readWord ['r', 'u', 'e'] s).map fun s => (.bool true, s)
      else if c = 'f' then (readWord ['a', 'l', 's', 'e'] s).map fun s => (.bool false, s)
      else (readNumber (some c :: s)).map fun p => (.number p.1, p.2)

/-- One or more items up to the closing bracket. -/
def readItems : (fuel : Nat) → List Symbol → Option (List Value × List Symbol)
  | 0, _ => none
  | fuel + 1, s =>
    match readValue fuel s with
    | none => none
    | some (item, s) =>
      match skipBlank s with
      | some ',' :: s => (readItems fuel s).map fun p => (item :: p.1, p.2)
      | some ']' :: s => some ([item], s)
      | _ => none

/-- One or more members up to the closing brace. -/
def readMembers : (fuel : Nat) → List Symbol → Option (List (Text × Value) × List Symbol)
  | 0, _ => none
  | fuel + 1, s =>
    match skipBlank s with
    | some '"' :: s =>
      match readString s with
      | none => none
      | some (name, s) =>
        match skipBlank s with
        | some ':' :: s =>
          match readValue fuel s with
          | none => none
          | some (value, s) =>
            match skipBlank s with
            | some ',' :: s => (readMembers fuel s).map fun p => ((name, value) :: p.1, p.2)
            | some '\x7d' :: s => some ([(name, value)], s)
            | _ => none
        | _ => none
    | _ => none

end

/-- The value that a whole text denotes. Every step reads at least one symbol, so twice their number
bounds the steps. -/
def readSymbols? (s : List Symbol) : Option Value :=
  match readValue (2 * s.length + 2) s with
  | some (v, rest) => if (skipBlank rest).isEmpty then some v else none
  | none => none

/-- The value that a text denotes. -/
def read? (s : String) : Option Value := readSymbols? (s.toList.map some)

/-- The value that the bytes of a text denote. -/
def readBytes? (bytes : List UInt8) : Option Value := readSymbols? (Utf8.scan bytes)

end ServiceDiscovery.Json
