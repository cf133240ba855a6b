import ServiceDiscovery.Numeric.Binary64

/-!
# Shortest decimal text

The decimal of a floating-point value with the fewest digits that still reads back as that value,
and of those the nearest one. A value is known by the interval of the numbers that round to it; for
one digit, two, and so on, the two decimals around the value are tried. The layout of the digits is
chosen by a `Layout`.
-/

namespace ServiceDiscovery.Shortest

/-- A positive decimal `digits · 10 ^ exponent`. -/
structure Decimal where
  digits : Nat
  exponent : Int
  deriving DecidableEq, Repr

/-- The numbers that round to a value, all over one denominator; the ends are included when the
mantissa of the value is even. -/
structure Interval where
  low : Nat
  value : Nat
  high : Nat
  denominator : Nat
  closed : Bool

/-- The interval of a positive value. Below a power of two the values lie twice as close. -/
def Interval.ofParts (p : Binary64.Parts) : Interval :=
  let gap := if p.mantissa = Nat.pow 2 52 ∧ Binary64.minExponent < p.exponent then 1 else 2
  let (unit, denominator) := Binary64.scaled 1 (p.exponent - 2)
  ⟨(4 * p.mantissa - gap) * unit, 4 * p.mantissa * unit, (4 * p.mantissa + 2) * unit, denominator,
    p.mantissa % 2 = 0⟩

/-- Whether `num / den` lies in the interval. -/
def Interval.contains (i : Interval) (num den : Nat) : Bool :=
  let x := num * i.denominator
  let low := i.low * den
  let high := i.high * den
  if i.closed then low ≤ x && x ≤ high else low < x && x < high

/-- The number of digits before the point of `num / den`, at most zero for a value below one. -/
def magnitude : (fuel : Nat) → (num den : Nat) → Int
  | 0, _, _ => 0
  | fuel + 1, num, den =>
    if den ≤ num then ((Nat.toDigits 10 (num / den)).length : Int)
    else if den ≤ 10 * num then 0
    else magnitude fuel (10 * num) den - 1

/-- The better one of the two decimals with a last place of `10 ^ exponent` around the value, if it
lies in the interval. -/
def Interval.candidate? (i : Interval) (exponent : Int) : Option Decimal :=
  let (up, down) : Nat × Nat :=
    if 0 ≤ exponent then (Nat.pow 10 exponent.toNat, 1) else (1, Nat.pow 10 (-exponent).toNat)
  let below := i.value * down / (i.denominator * up)
  let inside (d : Nat) : Bool := i.contains (d * up) down
  let distance (d : Nat) : Nat :=
    let a := d * up * i.denominator
    let b := i.value * down
    (a - b) + (b - a)
  if inside below && below ≠ 0 then
    if inside (below + 1) && distance (below + 1) < distance below then
      some ⟨below + 1, exponent⟩
    else some ⟨below, exponent⟩
  else if inside (below + 1) then some ⟨below + 1, exponent⟩
  else none

/-- The first candidate with `digits` digits or more. -/
def Interval.search (i : Interval) (magnitude : Int) : (fuel digits : Nat) → Option Decimal
  | 0, _ => none
  | fuel + 1, digits =>
    match i.candidate? (magnitude - digits) with
    | some d => some d
    | none => i.search magnitude fuel (digits + 1)

/-- Seventeen digits tell any two values apart. -/
def maxDigits : Nat := 17

/-- The decimal without zeros at its end. -/
def Decimal.normalize : (fuel : Nat) → Decimal → Decimal
  | 0, d => d
  | fuel + 1, d =>
    if d.digits ≠ 0 ∧ d.digits % 10 = 0 then normalize fuel ⟨d.digits / 10, d.exponent + 1⟩ else d

/-- The shortest decimal of a positive value. -/
def ofParts (p : Binary64.Parts) : Decimal :=
  let i := Interval.ofParts p
  let m := magnitude 400 i.value i.denominator
  Decimal.normalize 20 ((i.search m maxDigits 1).getD ⟨0, 0⟩)

/-- How digits are laid out. Values from `10 ^ positionalFrom` up to, but not including,
`10 ^ positionalBelow` are written positionally, with at least one digit after the point; all others
with an exponent. -/
structure Layout where
  positionalFrom : Int
  positionalBelow : Int

/-- The digits with a point among or before them, and zeros where they do not reach it. -/
def positional (d : Decimal) : List Char :=
  let digits := Nat.toDigits 10 d.digits
  let point : Int := digits.length + d.exponent
  if point ≤ 0 then '0' :: '.' :: List.replicate (-point).toNat '0' ++ digits
  else
    let n := point.toNat
    let padded := digits ++ List.replicate (n - digits.length) '0'
    let fraction := padded.drop n
    padded.take n ++ '.' :: (if fraction.isEmpty then ['0'] else fraction)

/-- The first digit, the others after a point, and the exponent of the first digit. -/
def scientific (d : Decimal) : List Char :=
  let digits := Nat.toDigits 10 d.digits
  let e : Int := d.exponent + digits.length - 1
  let sign := if e < 0 then ['-'] else []
  let mantissa := match digits with
    | first :: second :: rest => first :: '.' :: second :: rest
    | digits => digits
  mantissa ++ 'e' :: sign ++ Nat.toDigits 10 e.natAbs

/-- The text of a positive decimal. -/
def Layout.write (l : Layout) (d : Decimal) : List Char :=
  let point : Int := (Nat.toDigits 10 d.digits).length + d.exponent
  if l.positionalFrom < point ∧ point ≤ l.positionalBelow then positional d else scientific d

/-- The text of any floating-point value. -/
def Layout.text (l : Layout) (x : Float) : String :=
  match Binary64.Parts.ofBits? x.toBits with
  | some p =>
    let sign := if p.negative then ['-'] else []
    String.ofList (sign ++ if p.mantissa = 0 then ['0', '.', '0'] else l.write (ofParts p))
  | none => if x.isNaN then "NaN" else if x < 0 then "-inf" else "inf"

end ServiceDiscovery.Shortest
