import ServiceDiscovery.Url.Host
import ServiceDiscovery.Url.Path

/-!
# Reading URLs

The absolute URLs of the URL standard of the web. Blanks and control characters at the ends of the
text, and tabs and line ends anywhere, do not count. A scheme comes first; what follows it decides
whether an authority is read, always so for special schemes, and whether the path is a list of
segments.
-/

namespace ServiceDiscovery.Url

/-- The text that counts. -/
def significant (s : List Char) : List Char :=
  dropTabs (Text.trim (fun c => c.toNat ≤ 0x20) s)

/-- Whether a character may stand in a scheme after its first. -/
def isSchemeChar (c : Char) : Bool := c.isAlphanum || c == '+' || c == '-' || c == '.'

/-- The scheme in lower case and the text after its colon. -/
def scheme? (s : List Char) : Option (String × List Char) :=
  match s.span isSchemeChar with
  | (first :: front, ':' :: rest) =>
    if first.isAlpha then some (String.ofList ((first :: front).map Char.toLower), rest) else none
  | _ => none

/-- Whether a character ends an authority. -/
def endsAuthority (special : Bool) (c : Char) : Bool :=
  c == '/' || c == '?' || c == '#' || (special && c == '\\')

/-- User name and password, each percent-encoded; an empty password is none. -/
structure UserInfo where
  username : String
  password : Option String

/-- Nobody in particular. -/
def UserInfo.nobody : UserInfo := ⟨"", none⟩

/-- User name and password around the first colon. -/
def UserInfo.read (s : List Char) : UserInfo :=
  let encode (t : List Char) : String := String.ofList (Percent.encode Percent.userInfoSet t)
  match Text.splitFirst? [':'] s with
  | some (username, []) => ⟨encode username, none⟩
  | some (username, password) => ⟨encode username, some (encode password)⟩
  | none => ⟨encode s, none⟩

/-- What stands before the last at sign of the authority, and the text after it. -/
def readUserInfo (special : Bool) (s : List Char) : Except Fault (UserInfo × List Char) :=
  let authority := s.takeWhile fun c => !endsAuthority special c
  let rest := s.drop authority.length
  match Text.splitLast? ['@'] authority with
  | none => .ok (.nobody, s)
  | some ([], host) =>
    if host.isEmpty && !rest.isEmpty then .error .emptyHost else .ok (.nobody, host ++ rest)
  | some (info, host) => .ok (.read info, host ++ rest)

/-- The text of a host, which ends at a colon outside brackets or with the authority. -/
def hostText (special : Bool) : (inBrackets : Bool) → List Char → List Char
  | _, [] => []
  | inBrackets, c :: s =>
    if (c = ':' ∧ ¬ inBrackets) ∨ endsAuthority special c then []
    else c :: hostText special (c = '[' ∨ (inBrackets ∧ c ≠ ']')) s

/-- The digits of a port and the text after them, which has to end the authority. -/
def readPort (s : List Char) : Except Fault (Option Nat × List Char) :=
  let digits := s.takeWhile fun c => (Decimal.digit? c).isSome
  let rest := s.drop digits.length
  match rest with
  | c :: _ =>
    if endsAuthority true c then finish digits rest else .error .port
  | [] => finish digits rest
where
  /-- The number of the digits, if there are any. -/
  finish (digits rest : List Char) : Except Fault (Option Nat × List Char) :=
    match Decimal.digits? digits with
    | none => .ok (none, rest)
    | some n => if n < 65536 then .ok (some n, rest) else .error .port

/-- The host of an authority. -/
def readHost [Idna] (kind : SchemeKind) (s : List Char) : Except Fault (Option Host) :=
  if kind.isSpecial then
    if s.isEmpty then .error .emptyHost else (Host.parse s).map some
  else Host.parseOther s

/-- The authority, for any scheme but that of local files, and the text after it. -/
def readAuthority [Idna] (scheme : String) (kind : SchemeKind) (s : List Char) :
    Except Fault (Authority × List Char) := do
  let special := kind.isSpecial
  let (info, s) ← readUserInfo special s
  let text := hostText special false s
  let host ← readHost kind text
  let s := s.drop text.length
  let (port, s) ← match s with
    | ':' :: rest => if host.isNone then .error .emptyHost else readPort rest
    | s => .ok (none, s)
  if host.isNone ∧ (info.username ≠ "" ∨ info.password.isSome) then .error .emptyHost
  let port := (port.map UInt16.ofNat).filter fun p => defaultPort? scheme ≠ some p
  return (⟨info.username, info.password, host, port⟩, s)

/-- The text before the query and the fragment, and the rest. -/
def cutPath (s : List Char) : List Char × List Char := s.span fun c => c ≠ '?' ∧ c ≠ '#'

/-- The path after an authority. -/
def pathAfterAuthority (kind : SchemeKind) (s : List Char) : Path :=
  match s with
  | [] => .ofSegments (if kind.isSpecial then [[]] else [])
  | c :: rest =>
    if c = '/' ∨ (kind.isSpecial ∧ c = '\\') then .ofSegments (readSegments kind rest)
    else .ofSegments (readSegments kind s)

/-- The query and the fragment. -/
def readQueryFragment (kind : SchemeKind) (s : List Char) : Option String × Option String :=
  let set := if kind.isSpecial then Percent.specialQuerySet else Percent.querySet
  let (front, back) := s.span (· ≠ '#')
  let query := match front with
    | '?' :: q => some (String.ofList (Percent.encode set q))
    | _ => none
  let fragment := match back with
    | '#' :: f => some (String.ofList (Percent.encode Percent.fragmentSet f))
    | _ => none
  (query, fragment)

/-- The URL of its parts, with the query and fragment that `rest` holds. -/
def assemble (scheme : String) (kind : SchemeKind) (authority : Option Authority) (path : Path)
    (rest : List Char) : Url :=
  let (query, fragment) := readQueryFragment kind rest
  ⟨scheme, authority, path, query, fragment⟩

/-- A URL from the text after the two slashes of its authority. -/
def parseHierarchical [Idna] (scheme : String) (kind : SchemeKind) (s : List Char) :
    Except Fault Url := do
  let (authority, s) ← readAuthority scheme kind s
  let (path, rest) := cutPath s
  return assemble scheme kind (some authority) (pathAfterAuthority kind path) rest

/-- The authority of a local file. -/
def Authority.ofHost (host : Option Host) : Authority := ⟨"", none, host, none⟩

/-- The host of a local file; the name of the machine itself is no host. -/
def readFileHost [Idna] (s : List Char) : Except Fault (Option Host) :=
  if s.isEmpty then .ok none
  else (Host.parse s).map fun h => if h = .name "localhost" then none else some h

/-- The URL of a local file from the text after the scheme. -/
def parseFile [Idna] (s : List Char) : Except Fault Url :=
  let isSlash (c : Char) : Bool := c == '/' || c == '\\'
  let finish (host : Option Host) (path rest : List Char) : Url :=
    let host := if startsWithDrive .file path then none else host
    assemble "file" .file (some (.ofHost host)) (.ofSegments (readSegments .file path)) rest
  match s with
  | a :: b :: t =>
    if isSlash a && isSlash b then
      let text := t.takeWhile fun c => !endsAuthority true c
      if isDriveLetter text then
        let (path, rest) := cutPath t
        .ok (finish none path rest)
      else do
        let host ← readFileHost text
        let (path, rest) := cutPath (t.drop text.length)
        return finish host (path.drop 1) rest
    else
      let (path, rest) := cutPath (if isSlash a then b :: t else s)
      .ok (finish none path rest)
  | s =>
    let (path, rest) := cutPath (if s.head?.any isSlash then s.tail else s)
    .ok (finish none path rest)

/-- A URL of a scheme that is not special. -/
def parseOther [Idna] (scheme : String) (s : List Char) : Except Fault Url :=
  match s with
  | '/' :: '/' :: rest => parseHierarchical scheme .other rest
  | '/' :: rest =>
    let (path, rest) := cutPath rest
    .ok (assemble scheme .other none (.ofSegments (readSegments .other path)) rest)
  | s =>
    let (path, rest) := cutPath s
    .ok (assemble scheme .other none (.plain (String.ofList (Percent.encode [] path))) rest)

/-- The URL that a text denotes. -/
def parse [Idna] (text : String) : Except Fault Url :=
  match scheme? (significant text.toList) with
  | none => .error .relative
  | some (scheme, rest) =>
    match SchemeKind.ofScheme scheme with
    | .file => parseFile rest
    | .special =>
      parseHierarchical scheme .special (rest.dropWhile fun c => c == '/' || c == '\\')
    | .other => parseOther scheme rest

end ServiceDiscovery.Url
