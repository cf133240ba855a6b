import ServiceDiscovery.Http.AgentClient
import ServiceDiscovery.Service.Startup
import ServiceDiscovery.Url.Latin

/-!
# What a health query is answered with

Of all that can become of a request, one thing is an answer: a response with a status of success, an
index in its header and a body that lists instances, each of them decoded. Everything else is one
failure, which its reporter tells by the first check that it does not pass. Such a failure may pass:
a watcher counts it once, and a start that waits for a service asks again.
-/

namespace ServiceDiscovery

/-- The statuses of success are those from 200 up to 299. -/
theorem Http.isSuccess_iff {status : Nat} :
    Http.isSuccess status = true ↔ 200 ≤ status ∧ status < 300 := by
  simp [Http.isSuccess]

/-- What becomes of a request: a response, or none if it cannot be sent or the network fails. -/
def Link.response? (link : Link) (r : HttpRequest) : Option HttpResponse :=
  if r.isSendable then link r else none

namespace HttpResponse

/-- The registry's index that a response shows: its header, if it is there and holds a number that
fits. -/
def index? (response : HttpResponse) : Option Nat :=
  (response.headerText? AgentClient.indexHeader).bind fun s => Decimal.read? UInt64.size s.toList

/-- The body lists instances. -/
inductive Lists (response : HttpResponse) : List Entry → Prop
  /-- The body is null, which is no instances. -/
  | null (hv : response.json? = some .null) : Lists response []
  /-- The body is an array, and each of its items is an instance. -/
  | array {items : List Json.Value} {entries : List Entry}
      (hv : response.json? = some (.array items))
      (hitems : items.map Entry.ofJson? = entries.map some) : Lists response entries

/-- The entries that are decoded of a body are those that it lists. -/
theorem decoded_entries_iff {response : HttpResponse} {entries : List Entry} :
    response.json?.bind healthEntries? = some entries ↔ response.Lists entries := by
  constructor
  · intro h
    obtain ⟨v, hv, hentries⟩ := Option.bind_eq_some_iff.1 h
    cases v with
    | null =>
      cases hentries
      exact .null hv
    | array items =>
      refine .array hv (Json.Value.asList?_array.1 ?_)
      simpa [healthEntries?, Json.Value.orNull?, Entry.listOfJson?] using hentries
    | bool | number | string | object => cases hentries
  · rintro (hv | ⟨hv, hitems⟩)
    · rw [hv]
      rfl
    · rw [hv, Option.bind_some]
      simp [healthEntries?, Json.Value.orNull?, Entry.listOfJson?,
        Json.Value.asList?_array.2 hitems]

/-- A body lists instances in one way at most. -/
theorem Lists.unique {response : HttpResponse} {entries entries' : List Entry}
    (h : response.Lists entries) (h' : response.Lists entries') : entries = entries' :=
  Option.some.inj ((decoded_entries_iff.2 h).symm.trans (decoded_entries_iff.2 h'))

end HttpResponse

namespace AgentClient

variable {client : AgentClient} {link : Link} {q : HealthQuery} {r : HttpRequest}

/-- What became of a request is no answer to a health query, and how that is reported. -/
inductive Refused (r : HttpRequest) : Option HttpResponse → Failure → Prop
  /-- There is no response. -/
  | transport :
      Refused r none (.registryUnavailable (r.url.toText ++ ": " ++ r.failureReason))
  /-- The status is not one of success. -/
  | status {response : HttpResponse} (hs : ¬ (200 ≤ response.status ∧ response.status < 300)) :
      Refused r (some response)
        (.registryUnavailable (r.url.path.toText ++ " returned " ++
          Http.statusText response.status ++ ": " ++ response.errorText))
  /-- The request succeeded, and there is no index in the header. -/
  | header {response : HttpResponse} (hs : 200 ≤ response.status ∧ response.status < 300)
      (hi : response.index? = none) :
      Refused r (some response) (.invalidEntry ("missing or invalid " ++ indexHeader ++ " header"))
  /-- The request succeeded with an index, and the body does not list instances. -/
  | body {response : HttpResponse} (hs : 200 ≤ response.status ∧ response.status < 300)
      (hi : response.index?.isSome = true) (hb : ∀ entries, ¬ response.Lists entries) :
      Refused r (some response) (.invalidEntry "error decoding response body")

/-- However a query is refused, it may be answered later. -/
theorem Refused.isRetryable {response : Option HttpResponse} {f : Failure}
    (h : Refused r response f) : f.isRetryable = true := by
  cases h <;> rfl

private theorem Refused.unique {response : Option HttpResponse} {f g : Failure}
    (hf : Refused r response f) (hg : Refused r response g) : f = g := by
  rcases hf with _ | hs | ⟨hs, hi⟩ | ⟨hs, hi, hb⟩ <;>
    rcases hg with _ | hs' | ⟨hs', hi'⟩ | ⟨hs', hi', hb'⟩ <;> simp_all

/-- A client of the agent on this machine. -/
def ofThisMachine : AgentClient := ⟨"http://127.0.0.1:8500", defaultTimeout⟩

/-- The request that the query makes of the agent on this machine. -/
def webRequest : HttpRequest where
  url :=
    { scheme := "http", authority := some ⟨"", none, some (.ipv4 [127, 0, 0, 1]), some 8500⟩,
      path := .segments ["v1", "health", "service", "web"], query := none, fragment := none }
  query := []
  timeout := defaultTimeout

/-- A response with index 7 and the body `null`. -/
def nullResponse : HttpResponse :=
  ⟨200, [("x-consul-index", [0x37])], some [0x6E, 0x75, 0x6C, 0x6C]⟩

section

open scoped Url.Latin

end

end AgentClient

end ServiceDiscovery
