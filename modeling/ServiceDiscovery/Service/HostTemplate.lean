import ServiceDiscovery.Endpoint
import ServiceDiscovery.Failure
import ServiceDiscovery.Text.Split
import ServiceDiscovery.Url.Parser

/-!
# URLs whose host is a service name

A URL, or a bare `host:port`, taken apart so that an endpoint can be filled in where the host
stands. Scheme, path and query are kept, the port is the endpoint's. A text whose host is no name of
the registry is left as it is.
-/

namespace ServiceDiscovery

/-- Whether a host is a name that the registry may know: one label that is not the machine's own
name, or a name whose last label is the registry's domain. -/
def shouldDiscover (host domain : String) : Bool :=
  if host = "" then false
  else
    match Text.splitLast? ['.'] host.toList with
    | none => host ≠ "localhost"
    | some (_, last) => String.ofList last = domain

/-- A text taken apart around its host. -/
structure HostTemplate where
  /-- The scheme; none for a bare host. -/
  scheme : Option String
  host : String
  path : String
  query : Option String
  deriving DecidableEq, Repr

namespace HostTemplate

/-- A host without brackets at its ends. -/
def trimBrackets (s : List Char) : List Char := Text.trim (fun c => c == '[' || c == ']') s

/-- The host of a text that is a bare host, with or without a port. -/
def bareHost (s : List Char) : List Char :=
  match Text.splitLast? [':'] s with
  | some (host, port) => if (Decimal.read? 65536 port).isSome then trimBrackets host else s
  | none => s

/-- The template of a bare host. -/
def ofBareHost? (s : List Char) : Option HostTemplate :=
  let host := bareHost s
  if host = [] then none else some ⟨none, String.ofList host, "", none⟩

/-- The template of a URL. Where nothing but the authority follows the slashes, there is no path. -/
def ofUrl? [Url.Idna] (text : String) (afterSlashes : List Char) : Option HostTemplate :=
  match Url.parse text with
  | .error _ => none
  | .ok u =>
    u.bareHost?.map fun host =>
      ⟨some u.scheme, host, if afterSlashes.contains '/' then u.path.toText else "",
        u.query.filter (· ≠ "")⟩

/-- The template of a text, which is a URL if it holds two slashes in a row. -/
def parse? [Url.Idna] (text : String) : Option HostTemplate :=
  match Text.splitFirst? ['/', '/'] text.toList with
  | some (_, afterSlashes) => ofUrl? text afterSlashes
  | none => ofBareHost? text.toList

/-- The text with an endpoint in the place of the host. -/
def fill (t : HostTemplate) (e : Endpoint) : String :=
  (match t.scheme with
    | some scheme => scheme ++ "://" ++ e.toText
    | none => e.toText) ++ t.path ++
    (match t.query with
    | some q => "?" ++ q
    | none => "")

/-- The template of a text whose host the registry may know under a domain. -/
def discoverable? [Url.Idna] (text domain : String) : Option HostTemplate :=
  (parse? text).filter fun t => shouldDiscover t.host domain

/-- The text with the endpoint that was found; unchanged after a failure. -/
def filled (text : String) (t : HostTemplate) : Except Failure Endpoint → String
  | .ok e => t.fill e
  | .error _ => text

end HostTemplate

end ServiceDiscovery
