import ServiceDiscovery.Duration
import ServiceDiscovery.Text.Utf8
import ServiceDiscovery.Url.Form

/-!
# HTTP requests

A request for a URL with some names and values in its query. Its target is the URL without the
user's name and password, which go into a header. A URL that no HTTP connection can serve is refused
before anything is sent.
-/

namespace ServiceDiscovery

/-- A request of the agent's client. -/
structure HttpRequest where
  /-- The URL without the names and values of this request. -/
  url : Url
  query : List (String × String)
  timeout : Duration

namespace HttpRequest

/-- A URL without its user's name and password; a name that is no text once it is decoded keeps both
where they are. -/
def withoutUser (u : Url) : Url :=
  match u.authority with
  | some a =>
    let readable := (Utf8.decode? (Percent.decode a.username.toList)).isSome
    if readable ∧ (a.username ≠ "" ∨ a.password.isSome) then
      { u with authority := some { a with username := "", password := none } }
    else u
  | none => u

/-- The URL that is asked for. A URL without a host takes no names and values. -/
def target (r : HttpRequest) : Url :=
  if r.url.host?.isSome then (withoutUser r.url).appendQuery r.query else r.url

/-- The characters that a host's name may hold and a request may not. -/
def refusedInHost : List Char := ['"', Char.ofNat 0x60, '\x7b', '\x7d']

/-- The length that the text of a target must not exceed. -/
def longestTarget : Nat := 65534

/-- Whether a request can be sent. -/
def isSendable (r : HttpRequest) : Bool :=
  let u := r.target
  (u.scheme == "http" || u.scheme == "https") &&
    (u.host?.any fun h => !h.toText.toList.any refusedInHost.contains) &&
    ({ u with fragment := none }.toText.utf8ByteSize ≤ longestTarget)

/-- Why a request has no response: it could not be sent, or the connection failed. -/
def failureReason (r : HttpRequest) : String :=
  (if r.isSendable then "error sending request" else "builder error") ++ " for url (" ++
    r.target.toText ++ ")"

end HttpRequest

end ServiceDiscovery
