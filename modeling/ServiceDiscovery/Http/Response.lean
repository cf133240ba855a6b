import ServiceDiscovery.Json.Reader
import ServiceDiscovery.Text.Charset
import ServiceDiscovery.Text.Split

/-!
# HTTP responses

Status, headers and body of a response. The connection may break inside the body, which then is no
body at all.
-/

namespace ServiceDiscovery

/-- A response. -/
structure HttpResponse where
  status : Nat
  headers : List (String × List UInt8)
  /-- The whole body; none if the connection broke inside it. -/
  body : Option (List UInt8)

namespace HttpResponse

/-- A name in lower case. -/
def lower (s : String) : String := String.ofList (s.toList.map Char.toLower)

/-- The first header of a name, in any case of its letters. -/
def header? (r : HttpResponse) (name : String) : Option (List UInt8) :=
  (r.headers.find? fun h => lower h.1 == lower name).map Prod.snd

/-- A header that holds printable ASCII and tabs alone. -/
def headerText? (r : HttpResponse) (name : String) : Option String :=
  (r.header? name).bind fun bytes =>
    if bytes.all fun b => b == 0x09 || (0x20 ≤ b && b < 0x7F) then
      some (String.ofList (bytes.map fun b => Char.ofNat b.toNat))
    else none

/-- A text without a pair of quotes around it. -/
def unquote (s : List Char) : List Char :=
  match s with
  | '"' :: rest => rest.takeWhile (· ≠ '"')
  | s => s

/-- The character set that a content type names. -/
def charsetName? (contentType : String) : Option String :=
  (Text.fields ';' contentType.toList).tail.findSome? fun parameter =>
    match Text.splitFirst? ['='] (Text.trim Text.isBlank parameter) with
    | some (name, value) =>
      if lower (String.ofList name) = "charset" then some (String.ofList (unquote value)) else none
    | none => none

/-- The body as text, without blanks at its ends. -/
def errorText (r : HttpResponse) : String :=
  match r.body with
  | none => "Unknown error"
  | some bytes =>
    let charset := ((r.headerText? "Content-Type").bind charsetName?).map Charset.ofName
    Text.trimBlank ((charset.getD .utf8).decode bytes)

/-- The JSON value of the body. -/
def json? (r : HttpResponse) : Option Json.Value := r.body.bind Json.readBytes?

end HttpResponse

end ServiceDiscovery
