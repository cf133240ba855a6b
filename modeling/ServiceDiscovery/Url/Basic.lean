import ServiceDiscovery.Text.Decimal
import ServiceDiscovery.Text.Hex

/-!
# URLs and their text

A URL in the parts of the web's URL standard, and its serialisation. An authority may be present and
have no host (`file:///x`); a path is either a list of segments, each written after a slash, or
plain text that cannot be extended.
-/

namespace ServiceDiscovery

/-- Why a text is no URL. -/
inductive Url.Fault
  /-- A host is needed and missing. -/
  | emptyHost
  /-- The host is no domain name. -/
  | domainName
  /-- The port is no number below 65536. -/
  | port
  /-- The host ends in a number and is no IPv4 address. -/
  | ipv4
  /-- The host in brackets is no IPv6 address. -/
  | ipv6
  /-- The host holds a character that no host may hold. -/
  | hostCharacter
  /-- The text has no scheme. -/
  | relative
  deriving DecidableEq, Repr

/-- The wording of a fault. -/
def Url.Fault.message : Url.Fault → String
  | .emptyHost => "empty host"
  | .domainName => "invalid international domain name"
  | .port => "invalid port number"
  | .ipv4 => "invalid IPv4 address"
  | .ipv6 => "invalid IPv6 address"
  | .hostCharacter => "invalid domain character"
  | .relative => "relative URL without a base"

/-- A host: a name, the four bytes of an IPv4 address or the eight pieces of an IPv6 address. -/
inductive Url.Host
  | name (text : String)
  | ipv4 (bytes : List Nat)
  | ipv6 (pieces : List Nat)
  deriving DecidableEq, Repr

/-- What stands between the two slashes and the path. -/
structure Url.Authority where
  username : String
  password : Option String
  host : Option Url.Host
  port : Option UInt16
  deriving DecidableEq, Repr

/-- A path: plain text, or segments that each follow a slash. -/
inductive Url.Path
  | plain (text : String)
  | segments (list : List String)
  deriving DecidableEq, Repr

/-- A URL in its parts, each percent-encoded as its place needs. -/
structure Url where
  scheme : String
  authority : Option Url.Authority
  path : Url.Path
  query : Option String
  fragment : Option String
  deriving DecidableEq, Repr

namespace Url

/-- How the authority and path of a scheme are read. -/
inductive SchemeKind
  /-- An authority is always there and backslashes are slashes. -/
  | special
  /-- Special, with the rules for local files. -/
  | file
  | other
  deriving DecidableEq, Repr

/-- The kind of a scheme. -/
def SchemeKind.ofScheme (scheme : String) : SchemeKind :=
  if scheme = "file" then .file
  else if scheme ∈ ["http", "https", "ws", "wss", "ftp"] then .special
  else .other

/-- Whether backslashes are slashes. -/
def SchemeKind.isSpecial : SchemeKind → Bool
  | .other => false
  | _ => true

/-- The port that a scheme implies. -/
def defaultPort? (scheme : String) : Option UInt16 :=
  if scheme = "http" ∨ scheme = "ws" then some 80
  else if scheme = "https" ∨ scheme = "wss" then some 443
  else if scheme = "ftp" then some 21
  else none

/-- A number in lower-case hexadecimal digits. -/
def hexText (n : Nat) : String := String.ofList (Nat.toDigits 16 n)

/-- The length of the run of zeros at the front. -/
def zeroRun (pieces : List Nat) : Nat := (pieces.takeWhile (· == 0)).length

/-- The place and length of the first of the longest runs of zeros. -/
def longestZeroRun (pieces : List Nat) : Nat × Nat :=
  (List.range pieces.length).foldl
    (fun best i =>
      let run := zeroRun (pieces.drop i)
      if best.2 < run then (i, run) else best)
    (0, 0)

/-- Pieces with colons between them. -/
def joinPieces (pieces : List Nat) : String := ":".intercalate (pieces.map hexText)

/-- An IPv6 address: the first longest run of two or more zero pieces is written as two colons. -/
def ipv6Text (pieces : List Nat) : String :=
  let (start, run) := longestZeroRun pieces
  if run < 2 then joinPieces pieces
  else joinPieces (pieces.take start) ++ "::" ++ joinPieces (pieces.drop (start + run))

/-- A host as it stands in a URL. -/
def Host.toText : Host → String
  | .name text => text
  | .ipv4 bytes => ".".intercalate (bytes.map Decimal.text)
  | .ipv6 pieces => "[" ++ ipv6Text pieces ++ "]"

/-- User name and password before the host. -/
def Authority.userInfo (a : Authority) : String :=
  match a.password with
  | some password => a.username ++ ":" ++ password ++ "@"
  | none => if a.username = "" then "" else a.username ++ "@"

/-- An authority with the slashes before it. -/
def Authority.toText (a : Authority) : String :=
  "//" ++ a.userInfo ++ (a.host.map Host.toText).getD "" ++
    (match a.port with
    | some port => ":" ++ Decimal.text port.toNat
    | none => "")

/-- A path as it stands in a URL. -/
def Path.toText : Path → String
  | .plain text => text
  | .segments list => String.join (list.map ("/" ++ ·))

/-- A path of segments, character by character. -/
theorem Path.toList_toText_segments (list : List String) :
    (Path.segments list).toText.toList = (list.map String.toList).flatMap ('/' :: ·) := by
  rw [Path.toText, String.toList_join, List.flatMap_map, List.flatMap_map]
  simp

/-- What keeps a path that starts with two slashes from being read as an authority. -/
def pathGuard (u : Url) : String :=
  match u.authority, u.path with
  | none, .segments ("" :: _ :: _) => "/."
  | _, _ => ""

/-- The text of a URL. -/
def toText (u : Url) : String :=
  u.scheme ++ ":" ++ (u.authority.map Authority.toText).getD "" ++ u.pathGuard ++ u.path.toText ++
    (match u.query with
    | some q => "?" ++ q
    | none => "") ++
    (match u.fragment with
    | some f => "#" ++ f
    | none => "")

/-- The host, if the URL has one. -/
def host? (u : Url) : Option Host := u.authority.bind Authority.host

/-- The host as it stands in the URL, without the brackets of an IPv6 address or any at its ends. -/
def bareHost? (u : Url) : Option String :=
  u.host?.map fun h =>
    let isBracket (c : Char) : Bool := c == '[' || c == ']'
    String.ofList (((h.toText.toList.dropWhile isBracket).reverse.dropWhile isBracket).reverse)

/-- The port that a connection would use. -/
def effectivePort? (u : Url) : Option UInt16 :=
  (u.authority.bind Authority.port).or (defaultPort? u.scheme)

end Url

end ServiceDiscovery
