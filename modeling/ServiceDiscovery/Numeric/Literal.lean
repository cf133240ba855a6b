import ServiceDiscovery.Numeric.Binary64
import ServiceDiscovery.Text.Decimal
import ServiceDiscovery.Text.Split

/-!
# Decimal literals

Floating-point values from their decimal spelling: digits with an optional sign, fraction and
exponent, or the name of a value that no digits spell.
-/

namespace ServiceDiscovery.Literal

/-- A decimal `digits · 10 ^ exponent`, below zero if `negative`. -/
structure Spelled where
  negative : Bool
  digits : Nat
  exponent : Int
  deriving DecidableEq, Repr

/-- A whole number after an optional sign. -/
def integer? : List Char → Option Int
  | '-' :: s => (Decimal.digits? s).map fun n => -(n : Int)
  | '+' :: s => (Decimal.digits? s).map Int.ofNat
  | s => (Decimal.digits? s).map Int.ofNat

/-- The digits before and after a point, with the number of those after it. -/
def significand? (s : List Char) : Option (Nat × Nat) :=
  match Text.splitFirst? ['.'] s with
  | some (whole, fraction) =>
    (Decimal.digits? (whole ++ fraction)).map fun n => (n, fraction.length)
  | none => (Decimal.digits? s).map fun n => (n, 0)

/-- A spelling with its sign read. -/
def ofUnsigned? (negative : Bool) (s : List Char) : Option Spelled := do
  let isMark (c : Char) : Bool := c == 'e' || c == 'E'
  let front := s.takeWhile fun c => !isMark c
  let (digits, places) ← significand? front
  let exponent ← match s.drop front.length with
    | _ :: power => integer? power
    | [] => some 0
  return ⟨negative, digits, exponent - places⟩

/-- The decimal that a text spells. -/
def read? : List Char → Option Spelled
  | '-' :: s => ofUnsigned? true s
  | s => ofUnsigned? false s

/-- The exponent beyond which every value is infinite or zero. -/
def farExponent : Int := 2000

/-- The value nearest to a spelled decimal. -/
def Spelled.toFloat (d : Spelled) : Float :=
  let size : Int := (Nat.toDigits 10 d.digits).length
  if d.digits = 0 ∨ d.exponent + size < -farExponent then Binary64.ofDecimal d.negative 0 0
  else if farExponent < d.exponent + size then Binary64.ofDecimal d.negative 1 farExponent
  else Binary64.ofDecimal d.negative d.digits d.exponent

/-- The value that a text spells or names. -/
def toFloat? (text : String) : Option Float :=
  match text with
  | "NaN" => some (0.0 / 0.0)
  | "inf" => some (1.0 / 0.0)
  | "-inf" => some (-1.0 / 0.0)
  | s => (read? s.toList).map Spelled.toFloat

end ServiceDiscovery.Literal
