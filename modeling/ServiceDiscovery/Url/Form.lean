import ServiceDiscovery.Text.Percent
import ServiceDiscovery.Url.Basic

/-!
# Form-encoded queries

Names and values of a query: letters, digits and four marks stand for themselves, a blank is a plus
sign, and every other byte is escaped.
-/

namespace ServiceDiscovery.Url

/-- Whether a character stands for itself. -/
def isFormPlain (c : Char) : Bool :=
  c.isAlphanum || c == '*' || c == '-' || c == '.' || c == '_'

/-- A name or value as it stands in a query. -/
def formEncode (s : String) : String :=
  String.ofList (s.toList.flatMap fun c =>
    if isFormPlain c then [c]
    else if c = ' ' then ['+']
    else (String.utf8EncodeChar c).flatMap Percent.escape)

/-- A name with its value. -/
def formPair (p : String × String) : String := formEncode p.1 ++ "=" ++ formEncode p.2

/-- A URL whose query goes on with some names and values; an empty query is none. -/
def appendQuery (u : Url) (pairs : List (String × String)) : Url :=
  let parts := (u.query.toList.filter (· ≠ "")) ++ pairs.map formPair
  { u with query := if parts.isEmpty then none else some ("&".intercalate parts) }

end ServiceDiscovery.Url
