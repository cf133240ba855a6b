import ServiceDiscovery.Url.Basic
import ServiceDiscovery.Url.Domain

/-!
# Hosts

Reading the host of a URL. Under a special scheme a host is an IPv6 address in brackets, an IPv4
address if its last label is a number, or a domain name in its normal form. Under any other scheme
it is an IPv6 address or a name that keeps its spelling.
-/

namespace ServiceDiscovery.Url

/-- A part of an IPv4 address as a number: decimal, octal after a zero, hexadecimal after `0x`. -/
def ipv4Number? (s : List Char) : Option Nat :=
  let hex (s : List Char) : Option Nat :=
    s.foldlM (fun n c => (Hex.digit? c).map (16 * n + ·)) 0
  let octal (s : List Char) : Option Nat :=
    s.foldlM (fun n c => ((Decimal.digit? c).filter (· < 8)).map (8 * n + ·)) 0
  match s with
  | [] => none
  | '0' :: 'x' :: s => hex s
  | '0' :: 'X' :: s => hex s
  | '0' :: c :: s => octal (c :: s)
  | s => Decimal.digits? s

/-- The parts of a host between its points, without an empty part at the end. -/
def ipv4Parts (s : List Char) : List (List Char) :=
  let parts := Text.fields '.' s
  if 1 < parts.length ∧ parts.getLast? = some [] then parts.dropLast else parts

/-- Whether the last label is a number, so that the host has to be an IPv4 address. -/
def endsInNumber (s : List Char) : Bool :=
  match (ipv4Parts s).getLast? with
  | some last =>
    (!last.isEmpty && last.all fun c => (Decimal.digit? c).isSome) || (ipv4Number? last).isSome
  | none => false

/-- The four bytes of an address below `2 ^ 32`. -/
def ipv4Bytes (address : Nat) : List Nat :=
  [address / Nat.pow 256 3, address / Nat.pow 256 2 % 256, address / 256 % 256, address % 256]

/-- An IPv4 address of one to four parts: each but the last is a byte, the last fills the rest. -/
def ipv4? (s : List Char) : Option (List Nat) := do
  let numbers ← (ipv4Parts s).mapM ipv4Number?
  let last ← numbers.getLast?
  let front := numbers.dropLast
  if 3 < front.length ∨ front.any (255 < ·) ∨ Nat.pow 256 (4 - front.length) ≤ last then none
  let high := front.zipIdx.foldl (fun n p => n + p.1 * Nat.pow 256 (3 - p.2)) 0
  return ipv4Bytes (high + last)

/-- One piece of an IPv6 address: one to four hexadecimal digits. -/
def ipv6Piece? (s : List Char) : Option Nat :=
  if s.isEmpty ∨ 4 < s.length then none
  else s.foldlM (fun n c => (Hex.digit? c).map (16 * n + ·)) 0

/-- One byte of an IPv4 address inside an IPv6 address, without leading zeros. -/
def embeddedByte? (s : List Char) : Option Nat :=
  if 1 < s.length ∧ s.head? = some '0' then none else (Decimal.digits? s).filter (· < 256)

/-- The two pieces that an embedded IPv4 address fills. -/
def embeddedPieces? (s : List Char) : Option (List Nat) := do
  match ← (Text.fields '.' s).mapM embeddedByte? with
  | [a, b, c, d] => return [256 * a + b, 256 * c + d]
  | _ => none

/-- Pieces with colons between them; the last group may be an embedded IPv4 address where that is
allowed. No text at all is no pieces. -/
def ipv6Pieces? (allowEmbedded : Bool) (s : List Char) : Option (List Nat) :=
  if s.isEmpty then some []
  else
    let groups := Text.fields ':' s
    match groups.getLast? with
    | none => none
    | some last => do
      let front ← groups.dropLast.mapM ipv6Piece?
      let back ←
        if allowEmbedded && last.contains '.' then embeddedPieces? last
        else (ipv6Piece? last).map fun n => [n]
      return front ++ back

/-- The eight pieces of an IPv6 address; two colons stand for one or more pieces of zero. -/
def ipv6? (s : List Char) : Option (List Nat) :=
  match Text.splitFirst? [':', ':'] s with
  | some (left, right) => do
    let front ← ipv6Pieces? false left
    let back ← ipv6Pieces? true right
    let explicit := front.length + back.length
    if 7 < explicit then none
    return front ++ List.replicate (8 - explicit) 0 ++ back
  | none => (ipv6Pieces? true s).filter (·.length = 8)

/-- The address in brackets. -/
def bracketed? (s : List Char) : Except Fault Host :=
  match (Text.dropBack? [']'] s).bind ipv6? with
  | some pieces => .ok (.ipv6 pieces)
  | none => .error .ipv6

/-- The host that a domain name in its normal form stands for. -/
def Host.ofDomain (domain : List Char) : Except Fault Host :=
  if domain.isEmpty then .error .emptyHost
  else if endsInNumber domain then
    match ipv4? domain with
    | some bytes => .ok (.ipv4 bytes)
    | none => .error .ipv4
  else .ok (.name (String.ofList domain))

/-- The host of a special URL. -/
def Host.parse [Idna] (s : List Char) : Except Fault Host :=
  match s with
  | '[' :: rest => bracketed? rest
  | s =>
    match domain? s with
    | some domain => Host.ofDomain domain
    | none => .error .domainName

/-- The host of a URL of any other scheme; no text is no host. -/
def Host.parseOther (s : List Char) : Except Fault (Option Host) :=
  match s with
  | [] => .ok none
  | '[' :: rest => (bracketed? rest).map some
  | s =>
    if s.any forbiddenHost.contains then .error .hostCharacter
    else .ok (some (.name (String.ofList (Percent.encode [] s))))

end ServiceDiscovery.Url
