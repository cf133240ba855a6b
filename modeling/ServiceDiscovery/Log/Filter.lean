import ServiceDiscovery.Log.Level
import ServiceDiscovery.Text.Blank

/-!
# Event filters

A filter is a list of directives with commas between them. A directive is a level, a target that is
let through at every level, or a target with a level; it may be bound to a span and to a field. The
most specific directive that speaks of an event decides about it.
-/

namespace ServiceDiscovery.Log

/-- A directive of a filter. -/
structure Directive where
  target : Option String
  span : Option String
  field : Option String
  level : Level
  deriving DecidableEq, Repr

namespace Directive

/-- The directive for all events. -/
def ofLevel (level : Level) : Directive := ⟨none, none, none, level⟩

/-- Whether a directive may start with a character. -/
def isFirst (c : Char) : Bool := c.isAlphanum || c == '-' || c == ':' || c == '_' || 0xBF < c.toNat

/-- The level after an equals sign; no text is every level. -/
def levelAfter? (s : List Char) : Option Level :=
  if s = [] then some .trace else Level.ofDirective? (String.ofList s)

/-- The level after the closing bracket of a span. -/
def levelAfterSpan? : List Char → Option Level
  | [] => some .trace
  | '=' :: s => levelAfter? s
  | _ => none

/-- A directive from the text after the opening bracket of its span. -/
def parseSpan? (target : Option String) (s : List Char) : Option Directive :=
  let span := s.takeWhile fun c => c ≠ ']' ∧ c ≠ '\x7b'
  match s.drop span.length with
  | ']' :: rest =>
    (levelAfterSpan? rest).map fun level => ⟨target, some (String.ofList span), none, level⟩
  | '\x7b' :: rest =>
    let field := rest.takeWhile (· ≠ '\x7d')
    match rest.drop field.length with
    | '\x7d' :: ']' :: rest =>
      if field = [] then none
      else
        (levelAfterSpan? rest).map fun level =>
          ⟨target, if span = [] then none else some (String.ofList span),
            some (String.ofList field), level⟩
    | _ => none
  | _ => none

/-- The directive that a text denotes. -/
def parse? (text : List Char) : Option Directive :=
  match Text.trim Text.isBlank text with
  | [] => none
  | '[' :: s => parseSpan? none s
  | c :: s =>
    if isFirst c then
      let front := (c :: s).takeWhile fun c => c ≠ '=' ∧ c ≠ '['
      let target := String.ofList front
      match (c :: s).drop front.length with
      | '=' :: rest => (levelAfter? rest).map fun level => ⟨some target, none, none, level⟩
      | '[' :: rest => parseSpan? (some target) rest
      | _ =>
        match Level.ofDirective? target with
        | some level => some (ofLevel level)
        | none => some ⟨some target, none, none, .trace⟩
    else none

/-- Whether a directive is bound to a span, so that events without one do not concern it. -/
def isSpanBound (d : Directive) : Bool :=
  d.span.isSome || d.field.any fun f => f.toList.contains '='

/-- A directive as text. -/
def toText (d : Directive) : String :=
  let binding :=
    if d.span.isSome ∨ d.field.isSome then
      "[" ++ d.span.getD "" ++ ((d.field.map fun f => "\x7b" ++ f ++ "\x7d").getD "") ++ "]"
    else ""
  let front := d.target.getD "" ++ binding
  (if d.target.isSome ∨ binding ≠ "" then front ++ "=" else "") ++ d.level.name

/-- How specific a directive is: by the length of its target, then by its span, then by its field.
-/
def specificity (d : Directive) : List Nat :=
  [(d.target.map fun t => t.utf8ByteSize + 1).getD 0, d.span.toList.length, d.field.toList.length]

/-- The more specific directive comes first, of equal ones the later in the order of characters. -/
def comesBefore (a b : Directive) : Bool :=
  let key (d : Directive) : List String := [d.target.getD "", d.span.getD "", d.field.getD ""]
  b.specificity < a.specificity || (a.specificity == b.specificity && key b < key a)

/-- Whether two directives speak of the same events. -/
def sameSubject (a b : Directive) : Bool :=
  a.target == b.target && a.span == b.span && a.field == b.field

/-- A directive put into its place; it replaces one that speaks of the same events. -/
def place (d : Directive) : List Directive → List Directive
  | [] => [d]
  | a :: rest =>
    if sameSubject d a then d :: rest
    else if comesBefore d a then d :: a :: rest
    else a :: place d rest

/-- Whether a directive speaks of an event of a target that has no span and no field but its
message. -/
def concerns (target : String) (d : Directive) : Bool :=
  d.target.all (fun t => t.toList.isPrefixOf target.toList) && d.field.all (· == "message")

end Directive

/-- A filter: directives of events as such and of events inside spans, the most specific first. -/
structure Filter where
  plain : List Directive
  spanBound : List Directive
  deriving DecidableEq, Repr

namespace Filter

/-- The filter of some directives. A directive that only names a field is of both kinds. Without any
directive, errors alone are let through. -/
def ofDirectives (directives : List Directive) : Filter :=
  let isBound (d : Directive) : Bool := d.span.isSome || d.field.isSome
  let bound := directives.filter isBound
  let plain := directives.filter (fun d => !isBound d) ++ bound.filter fun d => !d.isSpanBound
  if directives.isEmpty then ⟨[.ofLevel .error], []⟩
  else
    ⟨plain.foldl (fun l d => d.place l) [], bound.foldl (fun l d => d.place l) []⟩

/-- The filter that a text denotes. -/
def parse? (text : String) : Option Filter :=
  (((Text.fields ',' text.toList).filter (· ≠ [])).mapM Directive.parse?).map ofDirectives

/-- The filter that lets a level and all above it through. -/
def ofLevel (level : Level) : Filter := ⟨[.ofLevel level], []⟩

/-- A filter as text. -/
def toText (f : Filter) : String :=
  ",".intercalate ((f.plain ++ f.spanBound).map Directive.toText)

/-- Whether a filter lets an event of a target and level through that is in no span. -/
def allows (f : Filter) (target : String) (level : Level) : Bool :=
  match f.plain.find? (Directive.concerns target) with
  | some d => d.level.le level
  | none => false

end Filter

end ServiceDiscovery.Log
