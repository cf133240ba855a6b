/-!
# Base64

The standard alphabet with padding. Only the text that `encode` writes is decoded: every other text
is refused with the first cause that a reader of whole groups of four symbols, and then of the last
group, meets.
-/

namespace ServiceDiscovery.Base64

/-- Why a text is not the encoding of any bytes. -/
inductive Fault
  /-- A byte that is no symbol stands at an offset, or a padding byte stands too early. -/
  | symbol (byte : UInt8) (offset : Nat)
  /-- The last symbol carries bits that belong to no byte. -/
  | lastSymbol (byte : UInt8) (offset : Nat)
  /-- The last group has a single symbol; the number of symbols up to its end is given. -/
  | length (symbols : Nat)
  /-- The last group is not filled up to four. -/
  | padding
  deriving DecidableEq, Repr

/-- The padding byte. -/
def pad : UInt8 := 0x3D

/-- The symbol of a number below sixty-four. -/
def symbol (n : Nat) : UInt8 :=
  if n < 26 then UInt8.ofNat (0x41 + n)
  else if n < 52 then UInt8.ofNat (0x61 + (n - 26))
  else if n < 62 then UInt8.ofNat (0x30 + (n - 52))
  else if n = 62 then 0x2B
  else 0x2F

/-- The number that a symbol stands for. -/
def value? (b : UInt8) : Option Nat :=
  if 0x41 ≤ b ∧ b ≤ 0x5A then some (b.toNat - 0x41)
  else if 0x61 ≤ b ∧ b ≤ 0x7A then some (b.toNat - 0x61 + 26)
  else if 0x30 ≤ b ∧ b ≤ 0x39 then some (b.toNat - 0x30 + 52)
  else if b = 0x2B then some 62
  else if b = 0x2F then some 63
  else none

/-- The text of some bytes: four symbols for three bytes, the last group padded. -/
def encode : List UInt8 → List UInt8
  | [] => []
  | [a] =>
    let n := a.toNat * 16
    [symbol (n / 64), symbol (n % 64), pad, pad]
  | [a, b] =>
    let n := (a.toNat * 256 + b.toNat) * 4
    [symbol (n / 4096), symbol (n / 64 % 64), symbol (n % 64), pad]
  | a :: b :: c :: s =>
    let n := (a.toNat * 256 + b.toNat) * 256 + c.toNat
    symbol (n / 262144) :: symbol (n / 4096 % 64) :: symbol (n / 64 % 64) :: symbol (n % 64) ::
      encode s

/-- The number of a symbol at an offset. -/
def valueAt (b : UInt8) (offset : Nat) : Except Fault Nat :=
  match value? b with
  | some n => .ok n
  | none => .error (.symbol b offset)

/-- The three bytes of a whole group that stands at an offset. -/
def decodeGroup (a b c d : UInt8) (offset : Nat) : Except Fault (List UInt8) := do
  let w ← valueAt a offset
  let x ← valueAt b (offset + 1)
  let y ← valueAt c (offset + 2)
  let z ← valueAt d (offset + 3)
  let n := ((w * 64 + x) * 64 + y) * 64 + z
  return [UInt8.ofNat (n / 65536), UInt8.ofNat (n / 256 % 256), UInt8.ofNat (n % 256)]

/-- The last group as read so far: the values of its symbols, the last symbol and the number of
padding bytes. -/
structure Tail where
  values : List Nat
  last : UInt8
  pads : Nat

/-- Reads the last group, whose first byte stands at `start`; `i` bytes of it have been read. -/
def readTail (start i : Nat) (t : Tail) : List UInt8 → Except Fault Tail
  | [] => .ok t
  | b :: s =>
    if b = pad then
      if i < 2 then .error (.symbol b (start + i))
      else readTail start (i + 1) { t with pads := t.pads + 1 } s
    else if t.pads > 0 then .error (.symbol pad (start + (i - t.pads)))
    else
      match valueAt b (start + i) with
      | .ok n => readTail start (i + 1) { t with values := t.values ++ [n], last := b } s
      | .error f => .error f

/-- The bytes of the last group, which stands at `start`. -/
def decodeTail (start : Nat) (s : List UInt8) : Except Fault (List UInt8) := do
  let t ← readTail start 0 ⟨[], 0, 0⟩ s
  match t.values with
  | [] => .error (.length start)
  | [_] => .error (.length (start + 1))
  | [w, x] =>
    if t.pads ≠ 2 then .error .padding
    else if x % 16 ≠ 0 then .error (.lastSymbol t.last (start + 1))
    else .ok [UInt8.ofNat (w * 4 + x / 16)]
  | [w, x, y] =>
    let n := (w * 64 + x) * 64 + y
    if t.pads ≠ 1 then .error .padding
    else if y % 4 ≠ 0 then .error (.lastSymbol t.last (start + 2))
    else .ok [UInt8.ofNat (n / 1024), UInt8.ofNat (n / 4 % 256)]
  | w :: x :: y :: z :: _ =>
    let n := ((w * 64 + x) * 64 + y) * 64 + z
    .ok [UInt8.ofNat (n / 65536), UInt8.ofNat (n / 256 % 256), UInt8.ofNat (n % 256)]

/-- The bytes of the groups from `offset` on; the last one or two to four bytes are the last group.
-/
def decodeFrom (offset : Nat) : List UInt8 → Except Fault (List UInt8)
  | a :: b :: c :: d :: e :: s => do
    let front ← decodeGroup a b c d offset
    let rest ← decodeFrom (offset + 4) (e :: s)
    return front ++ rest
  | s => decodeTail offset s

/-- A single byte after the last whole group that is no symbol is reported before all else. -/
def strayByte? (s : List UInt8) : Option Fault :=
  match s.getLast? with
  | some b =>
    if s.length % 4 = 1 ∧ b ≠ pad ∧ (value? b).isNone then some (.symbol b (s.length - 1)) else none
  | none => none

/-- The bytes that a text encodes. -/
def decode (s : List UInt8) : Except Fault (List UInt8) :=
  match s with
  | [] => .ok []
  | s =>
    match strayByte? s with
    | some f => .error f
    | none => decodeFrom 0 s

end ServiceDiscovery.Base64
