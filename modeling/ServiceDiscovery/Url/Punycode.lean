/-!
# Punycode

The encoding of a label's characters in ASCII, decoded: the basic characters stand before the last
hyphen, the digits after it say which other characters are inserted where.
-/

namespace ServiceDiscovery.Punycode

/-- The value of a digit: letters in either case from zero, then the decimal digits. -/
def digit? (c : Char) : Option Nat :=
  if 'a' ≤ c ∧ c ≤ 'z' then some (c.toNat - 'a'.toNat)
  else if 'A' ≤ c ∧ c ≤ 'Z' then some (c.toNat - 'A'.toNat)
  else if '0' ≤ c ∧ c ≤ '9' then some (c.toNat - '0'.toNat + 26)
  else none

/-- The threshold of the digit at a place, under a bias. -/
def threshold (place bias : Nat) : Nat := max 1 (min 26 (36 * place - bias))

/-- Halves `delta` until few digits are needed; `36` is gained for each time. -/
def adaptFrom : (fuel : Nat) → (delta gained : Nat) → Nat
  | 0, _, gained => gained
  | fuel + 1, delta, gained =>
    if 455 < delta then adaptFrom fuel (delta / 35) (gained + 36)
    else gained + 36 * delta / (delta + 38)

/-- The bias after `count` characters, the last of them reached by `delta`. -/
def adapt (delta count : Nat) (first : Bool) : Nat :=
  let delta := if first then delta / 700 else delta / 2
  adaptFrom 64 (delta + delta / count) 0

/-- The number written by digits of growing weight from a place on, and the digits after it. -/
def readDelta (bias : Nat) : (place weight acc : Nat) → List Char → Option (Nat × List Char)
  | _, _, _, [] => none
  | place, weight, acc, c :: s =>
    match digit? c with
    | none => none
    | some d =>
      let t := threshold place bias
      let acc := acc + d * weight
      if UInt32.size ≤ acc then none
      else if d < t then some (acc, s)
      else readDelta bias (place + 1) (weight * (36 - t)) acc s

/-- Inserts the characters that the digits describe into `out`; `n` is the next character's code and
`i` the place reached. -/
def insertFrom : (fuel : Nat) → (n i bias : Nat) → (out s : List Char) → Option (List Char)
  | _, _, _, _, out, [] => some out
  | 0, _, _, _, _, _ => none
  | fuel + 1, n, i, bias, out, c :: s =>
    match readDelta bias 1 1 0 (c :: s) with
    | none => none
    | some (delta, rest) =>
      let count := out.length + 1
      let next := i + delta
      let code := n + next / count
      let place := next % count
      if code < 0x110000 ∧ ¬ (0xD800 ≤ code ∧ code < 0xE000) then
        insertFrom fuel code (place + 1) (adapt delta count (out.all fun c => c.toNat < 0x80))
          (out.take place ++ Char.ofNat code :: out.drop place) rest
      else none

/-- The place after the last hyphen, if there is one. -/
def lastHyphen? (s : List Char) : Option (List Char × List Char) :=
  let tail := (s.reverse.takeWhile (· ≠ '-')).reverse
  if tail.length = s.length then none else some (s.take (s.length - tail.length - 1), tail)

/-- The characters that a text encodes. -/
def decode? (s : List Char) : Option (List Char) :=
  let (basic, digits) := (lastHyphen? s).getD ([], s)
  insertFrom s.length 0x80 0 72 basic digits

end ServiceDiscovery.Punycode
