import ServiceDiscovery.Text.Blank
import ServiceDiscovery.Text.Utf8

/-!
# Character sets

Text from bytes in UTF-8, in UTF-16 of either byte order, or in the western single-byte set. A byte
order mark decides over the name of a set; a name that is not known stands for UTF-8. What spells no
character is shown as U+FFFD.
-/

namespace ServiceDiscovery

/-- A character set. -/
inductive Charset
  | utf8
  | utf16 (bigEndian : Bool)
  | western
  deriving DecidableEq, Repr

namespace Charset

/-- The names of the western set. -/
def westernNames : List String :=
  ["ansi_x3.4-1968", "ascii", "cp1252", "cp819", "csisolatin1", "ibm819", "iso-8859-1",
    "iso-ir-100", "iso8859-1", "iso88591", "iso_8859-1", "iso_8859-1:1987", "l1", "latin1",
    "us-ascii", "windows-1252", "x-cp1252"]

/-- The set that a name in any case stands for. -/
def ofName (name : String) : Charset :=
  let name := String.ofList ((Text.trimBlank name).toList.map Char.toLower)
  if name ∈ westernNames then .western
  else if name ∈ ["csunicode", "iso-10646-ucs-2", "ucs-2", "unicode", "unicodefeff", "utf-16",
      "utf-16le"] then
    .utf16 false
  else if name ∈ ["utf-16be", "unicodefffe"] then .utf16 true
  else .utf8

/-- The characters of the western set from 0x80 to 0x9F. -/
def westernHigh : List Nat :=
  [0x20AC, 0x81, 0x201A, 0x192, 0x201E, 0x2026, 0x2020, 0x2021, 0x2C6, 0x2030, 0x160, 0x2039, 0x152,
    0x8D, 0x17D, 0x8F, 0x90, 0x2018, 0x2019, 0x201C, 0x201D, 0x2022, 0x2013, 0x2014, 0x2DC, 0x2122,
    0x161, 0x203A, 0x153, 0x9D, 0x17E, 0x178]

/-- A character of the western set. -/
def westernChar (b : UInt8) : Char :=
  Char.ofNat (if 0x80 ≤ b ∧ b < 0xA0 then westernHigh.getD (b.toNat - 0x80) 0xFFFD else b.toNat)

/-- The code units that pairs of bytes are; an odd byte at the end is no unit. -/
def units (bigEndian : Bool) : List UInt8 → List (Option Nat)
  | [] => []
  | [_] => [none]
  | a :: b :: s =>
    some (if bigEndian then 256 * a.toNat + b.toNat else 256 * b.toNat + a.toNat) ::
      units bigEndian s

/-- What is shown in place of what spells no character. -/
def replacement : Char := Char.ofNat 0xFFFD

/-- The characters that code units spell, where `high` is a high surrogate that still wants its low
one. -/
def joinUnits : (high : Option Nat) → List (Option Nat) → List Char
  | none, [] => []
  | some _, [] => [replacement]
  | none, none :: s => replacement :: joinUnits none s
  | some _, none :: s => replacement :: joinUnits none s
  | none, some n :: s =>
    if n < 0xD800 ∨ 0xE000 ≤ n then Char.ofNat n :: joinUnits none s
    else if n < 0xDC00 then joinUnits (some n) s
    else replacement :: joinUnits none s
  | some h, some n :: s =>
    if n < 0xD800 ∨ 0xE000 ≤ n then replacement :: Char.ofNat n :: joinUnits none s
    else if n < 0xDC00 then replacement :: joinUnits (some n) s
    else Char.ofNat (0x10000 + 0x400 * (h - 0xD800) + (n - 0xDC00)) :: joinUnits none s

/-- The text of bytes that start with no byte order mark. -/
def decodePlain (bytes : List UInt8) : Charset → List Char
  | .utf8 => Utf8.decodeLenient bytes
  | .utf16 bigEndian => joinUnits none (units bigEndian bytes)
  | .western => bytes.map westernChar

/-- The text of some bytes. -/
def decode (c : Charset) : List UInt8 → String
  | 0xEF :: 0xBB :: 0xBF :: s => String.ofList (decodePlain s .utf8)
  | 0xFF :: 0xFE :: s => String.ofList (decodePlain s (.utf16 false))
  | 0xFE :: 0xFF :: s => String.ofList (decodePlain s (.utf16 true))
  | s => String.ofList (decodePlain s c)

end Charset

end ServiceDiscovery
