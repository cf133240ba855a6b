/-!
# Binary floating point

The values of `Float` as exact numbers. `Parts.ofBits` takes a finite value apart into a sign and
`mantissa · 2 ^ exponent`; `nearest` gives the value nearest to an exact fraction, a tie going to
the even mantissa.
-/

namespace ServiceDiscovery.Binary64

/-- A finite value: `mantissa · 2 ^ exponent`, below zero if `negative`. -/
structure Parts where
  negative : Bool
  mantissa : Nat
  exponent : Int
  deriving DecidableEq, Repr

/-- The least exponent of a value. -/
def minExponent : Int := -1074

/-- The parts of the value with the given bits; none for infinities and values that are no number.
-/
def Parts.ofBits? (bits : UInt64) : Option Parts :=
  let n := bits.toNat
  let negative := n / Nat.pow 2 63 == 1
  let biased : Nat := n / Nat.pow 2 52 % Nat.pow 2 11
  let fraction := n % Nat.pow 2 52
  if biased = 2047 then none
  else if biased = 0 then some ⟨negative, fraction, minExponent⟩
  else some ⟨negative, Nat.pow 2 52 + fraction, (biased : Int) - 1075⟩

/-- A natural number times a power of two, as a fraction. -/
def scaled (n : Nat) (exponent : Int) : Nat × Nat :=
  if 0 ≤ exponent then (n * Nat.pow 2 exponent.toNat, 1) else (n, Nat.pow 2 (-exponent).toNat)

/-- The quotient rounded to the nearest integer, a tie going to the even one. -/
def divideNearest (num den : Nat) : Nat :=
  let quotient := num / den
  let twice := 2 * (num % den)
  if twice < den then quotient
  else if den < twice then quotient + 1
  else if quotient % 2 = 0 then quotient
  else quotient + 1

/-- The exponent at which the fraction has a mantissa of 53 bits, or the least exponent. -/
def exponentOf (num den : Nat) : Int :=
  let guess : Int := (num.log2 : Int) - (den.log2 : Int) - 52
  let (low, unit) := scaled (den * Nat.pow 2 52) guess
  let exponent := if num * unit < low then guess - 1 else guess
  max exponent minExponent

/-- The bits of the value nearest to a fraction with a positive denominator. -/
def nearestBits (num den : Nat) : UInt64 :=
  if num = 0 then 0
  else
    let exponent := exponentOf num den
    let (unit, denominator) := scaled den exponent
    let mantissa := divideNearest (num * denominator) unit
    let (mantissa, exponent) :=
      if mantissa = Nat.pow 2 53 then (Nat.pow 2 52, exponent + 1) else (mantissa, exponent)
    if mantissa < Nat.pow 2 52 then UInt64.ofNat mantissa
    else
      let biased := (exponent + 1075).toNat
      if 2047 ≤ biased then UInt64.ofNat (2047 * Nat.pow 2 52)
      else UInt64.ofNat (biased * Nat.pow 2 52 + (mantissa - Nat.pow 2 52))

/-- The value nearest to a fraction with a positive denominator. -/
def nearest (num den : Nat) : Float := Float.ofBits (nearestBits num den)

/-- The value nearest to a decimal `digits · 10 ^ exponent`, below zero if `negative`. -/
def ofDecimal (negative : Bool) (digits : Nat) (exponent : Int) : Float :=
  let magnitude :=
    if 0 ≤ exponent then nearest (digits * Nat.pow 10 exponent.toNat) 1
    else nearest digits (Nat.pow 10 (-exponent).toNat)
  if negative then -magnitude else magnitude

end ServiceDiscovery.Binary64
