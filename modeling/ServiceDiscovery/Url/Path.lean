import ServiceDiscovery.Text.Percent
import ServiceDiscovery.Text.Split
import ServiceDiscovery.Url.Basic

/-!
# Paths

A path is read segment by segment. A segment of one dot adds nothing, one of two dots takes the
segment before it away, and any other is added in its percent-encoded form; a dot may be written as
an escape. The last segment of a path is always there, if only as the empty text after a slash.
-/

namespace ServiceDiscovery.Url

/-- The escape of a dot, in either case of its letter. -/
def isDotEscape : List Char → Bool
  | ['%', '2', e] => e == 'e' || e == 'E'
  | _ => false

/-- Whether a segment is a single dot. -/
def isSingleDot (s : List Char) : Bool := s == ['.'] || isDotEscape s

/-- Whether a segment is two dots. -/
def isDoubleDot (s : List Char) : Bool :=
  match s with
  | '.' :: rest => isSingleDot rest
  | a :: b :: c :: rest => isDotEscape [a, b, c] && isSingleDot rest
  | _ => false

/-- Whether a segment is the letter of a drive with a colon or a bar. -/
def isDriveLetter : List Char → Bool
  | [letter, mark] => letter.isAlpha && (mark == ':' || mark == '|')
  | _ => false

/-- The segments without the last one, which stays if it is a drive letter. -/
def shorten (segments : List (List Char)) : List (List Char) :=
  match segments.getLast? with
  | some last => if isDriveLetter last then segments else segments.dropLast
  | none => []

/-- A segment that is a drive letter at the root of a local file's path is written with a colon. -/
def normalizeDrive (kind : SchemeKind) (done : List (List Char)) (segment : List Char) :
    List Char :=
  match segment with
  | letter :: _ =>
    if kind == .file && done.isEmpty && isDriveLetter segment then [letter, ':'] else segment
  | [] => []

/-- Under any scheme but that of local files a drive letter is a segment like any other. -/
theorem normalizeDrive_of_ne_file {kind : SchemeKind} (h : kind ≠ .file)
    (done : List (List Char)) (segment : List Char) :
    normalizeDrive kind done segment = segment := by
  have hkind : (kind == .file) = false := by simpa using h
  cases segment <;> simp [normalizeDrive, hkind]

/-- The segments after one that a slash follows. -/
def pushSegment (kind : SchemeKind) (done : List (List Char)) (segment : List Char) :
    List (List Char) :=
  if isDoubleDot segment then shorten done
  else if isSingleDot segment then done
  else done ++ [normalizeDrive kind done segment]

/-- The segments after the last one. -/
def pushLast (kind : SchemeKind) (done : List (List Char)) (segment : List Char) :
    List (List Char) :=
  if isDoubleDot segment then shorten done ++ [[]]
  else if isSingleDot segment then done ++ [[]]
  else done ++ [normalizeDrive kind done segment]

/-- The path of a local file does not start with empty segments. -/
def dropEmptyFront (kind : SchemeKind) (segments : List (List Char)) : List (List Char) :=
  if kind == .file then
    match segments.dropWhile (·.isEmpty) with
    | [] => [[]]
    | rest => rest
  else segments

/-- Under any other scheme a path may start with empty segments. -/
theorem dropEmptyFront_of_ne_file {kind : SchemeKind} (h : kind ≠ .file)
    (segments : List (List Char)) : dropEmptyFront kind segments = segments := by
  have hkind : (kind == .file) = false := by simpa using h
  simp [dropEmptyFront, hkind]

/-- The raw segments of a path, cut at slashes, and at backslashes where those are slashes. -/
def rawSegments (special : Bool) : List Char → List (List Char)
  | [] => [[]]
  | c :: s =>
    if c = '/' ∨ (special ∧ c = '\\') then [] :: rawSegments special s
    else
      match rawSegments special s with
      | [] => [[c]]
      | f :: rest => (c :: f) :: rest

/-- The segments of a path whose leading slash has been read. -/
def readSegments (kind : SchemeKind) (s : List Char) : List (List Char) :=
  let raw := (rawSegments kind.isSpecial s).map (Percent.encode Percent.pathSet)
  let done := raw.dropLast.foldl (pushSegment kind) []
  dropEmptyFront kind (pushLast kind done (raw.getLast?.getD []))

/-- The path with the given segments. -/
def Path.ofSegments (segments : List (List Char)) : Path := .segments (segments.map String.ofList)

/-- Whether the first segment of a local file's path is a drive letter, which leaves no host. -/
def startsWithDrive (kind : SchemeKind) (s : List Char) : Bool :=
  kind == .file && ((rawSegments true s).head?.any isDriveLetter)

/-- A text without tabs and line ends, which count nowhere in a URL. -/
def dropTabs (s : List Char) : List Char := s.filter fun c => c ≠ '\t' ∧ c ≠ '\n' ∧ c ≠ '\r'

/-- Nothing is dropped of a text exactly if it holds no tab and no line end. -/
theorem dropTabs_eq_self_iff {s : List Char} :
    dropTabs s = s ↔ ∀ c ∈ s, c ≠ '\t' ∧ c ≠ '\n' ∧ c ≠ '\r' := by
  simp only [dropTabs, List.filter_eq_self, decide_eq_true_eq]

/-- A path without the empty segment that a slash at its end leaves; the root stays. -/
def Path.popEmpty : Path → Path
  | .segments list =>
    .segments (if list.length ≤ 1 ∨ list.getLast? ≠ some "" then list else list.dropLast)
  | path => path

/-- One more segment at the end of a path, percent-encoded as a whole; the root is replaced. A
segment of one or two dots is not added. -/
def appendSegment (kind : SchemeKind) (list : List (List Char)) (segment : List Char) :
    List (List Char) :=
  if segment = ['.'] ∨ segment = ['.', '.'] then list
  else
    let set := if kind.isSpecial then Percent.specialSegmentSet else Percent.segmentSet
    let base := if list = [[]] then [] else list
    dropEmptyFront kind (pushLast kind base (Percent.encode set (dropTabs segment)))

/-- A URL whose path is extended by segments; none if its path is plain text. -/
def extend? (u : Url) (segments : List String) : Option Url :=
  match u.path.popEmpty with
  | .plain _ => none
  | .segments list =>
    let kind := SchemeKind.ofScheme u.scheme
    let extended :=
      segments.foldl (fun l s => appendSegment kind l s.toList) (list.map String.toList)
    some { u with path := .ofSegments extended }

end ServiceDiscovery.Url
