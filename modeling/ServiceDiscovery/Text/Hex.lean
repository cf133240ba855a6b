/-!
# Hexadecimal digits

Single digits, and bytes written as two digits each.
-/

namespace ServiceDiscovery.Hex

/-- The value of a hexadecimal digit in either case. -/
def digit? (c : Char) : Option Nat :=
  if '0' ≤ c ∧ c ≤ '9' then some (c.toNat - '0'.toNat)
  else if 'a' ≤ c ∧ c ≤ 'f' then some (c.toNat - 'a'.toNat + 10)
  else if 'A' ≤ c ∧ c ≤ 'F' then some (c.toNat - 'A'.toNat + 10)
  else none

/-- The lower-case digit of a number below sixteen. -/
def lower (n : Nat) : Char :=
  if n < 10 then Char.ofNat ('0'.toNat + n) else Char.ofNat ('a'.toNat + (n - 10))

/-- The upper-case digit of a number below sixteen. -/
def upper (n : Nat) : Char :=
  if n < 10 then Char.ofNat ('0'.toNat + n) else Char.ofNat ('A'.toNat + (n - 10))

/-- Bytes as lower-case digits, two to a byte. -/
def encode (bytes : List UInt8) : String :=
  String.ofList (bytes.flatMap fun b => [lower (b.toNat / 16), lower (b.toNat % 16)])

/-- The bytes that pairs of digits spell. -/
def decode? : List Char → Option (List UInt8)
  | [] => some []
  | [_] => none
  | a :: b :: s => do
    let high ← digit? a
    let low ← digit? b
    let rest ← decode? s
    return UInt8.ofNat (16 * high + low) :: rest

/-- An upper-case digit is read as its value. -/
theorem digit?_upper {n : Nat} (h : n < 16) : digit? (upper n) = some n := by
  have hall : ∀ n < 16, digit? (upper n) = some n := by decide
  exact hall n h

end ServiceDiscovery.Hex
