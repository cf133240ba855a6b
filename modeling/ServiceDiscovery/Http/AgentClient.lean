import ServiceDiscovery.Config.Basic
import ServiceDiscovery.Http.AgentWire
import ServiceDiscovery.Http.Request
import ServiceDiscovery.Http.Response
import ServiceDiscovery.Http.Status
import ServiceDiscovery.Registry.Basic
import ServiceDiscovery.Text.Base64

/-!
# A registry agent behind HTTP

The requests that the client of an agent makes, and what it makes of the responses. Requests and
interpretations are plain functions; `Link` stands for the network between them.
-/

namespace ServiceDiscovery

/-- What the network makes of a request: a response, or none. -/
abbrev Link := HttpRequest → Option HttpResponse

/-- The network when the agent cannot be reached. -/
def Link.unreachable : Link := fun _ => none

/-- The client of an agent. -/
structure AgentClient where
  /-- The URL that every request starts with. -/
  base : String
  requestTimeout : Duration

namespace AgentClient

/-- The time that a request may take unless another is chosen. -/
def defaultTimeout : Duration := .ofSeconds 10

/-- The client of the agent at a URL. -/
def ofUrl [Url.Idna] (base : String) (requestTimeout : Duration) : Except Failure AgentClient :=
  match Url.parse base with
  | .ok _ => .ok ⟨Config.trimSlashes base, requestTimeout⟩
  | .error fault => .error (.url fault)

/-- The client of the agent that a configuration names. -/
def ofConfig [Url.Idna] (c : Config) : Except Failure AgentClient :=
  ofUrl c.baseUrl c.requestTimeout

/-- The URL of some path segments under the agent's. -/
def url [Url.Idna] (client : AgentClient) (segments : List String) : Except Failure Url :=
  match Url.parse client.base with
  | .error fault => .error (.url fault)
  | .ok u =>
    match u.extend? segments with
    | some u => .ok u
    | none => .error (.invalidConfiguration (client.base ++ " cannot be a base URL"))

/-- A request for some path segments. -/
def request [Url.Idna] (client : AgentClient) (segments : List String)
    (query : List (String × String)) (timeout : Duration) : Except Failure HttpRequest :=
  (client.url segments).map fun u => ⟨u, query, timeout⟩

/-- The time that a query may be held, in whole seconds and one at least, as it is asked for. -/
def waitSeconds (wait : Duration) : Nat := max wait.seconds.toNat 1

/-- The names and values of a health query. -/
def healthQuery (q : HealthQuery) : List (String × String) :=
  (q.options.datacenter.map fun dc => ("dc", dc)).toList ++
    (q.tag.map fun tag => ("tag", tag)).toList ++
    (q.options.waitIndex.map fun index => ("index", Decimal.text index)).toList ++
    (q.options.waitTime.map fun wait => ("wait", Decimal.text (waitSeconds wait) ++ "s")).toList ++
    (if q.options.allowStale then [("stale", "")] else [])

/-- How long the client waits for the answer to a health query. The agent may hold a query for a
sixteenth longer than asked. None if the sum is longer than any duration. -/
def healthTimeout? (client : AgentClient) (q : HealthQuery) : Option Duration :=
  match q.options.waitTime with
  | none => some client.requestTimeout
  | some wait => do
    let held ← wait.add? wait.sixteenth
    held.add? client.requestTimeout

/-- The path segments of a health query. -/
def healthSegments (service : String) : List String := ["v1", "health", "service", service]

/-- The path segments of a key: its slashes part them, those in front do not count. -/
def valueSegments (key : String) : List String :=
  let segments := Text.fields '/' (Text.trimFront (· == '/') key.toList)
  ["v1", "kv"] ++ segments.map String.ofList

/-- A request that breaks down before it is made. -/
inductive Breakdown
  /-- The time to wait for the answer is longer than any duration. -/
  | timeoutOverflow
  deriving DecidableEq, Repr

/-- The wording of a breakdown. -/
def Breakdown.message : Breakdown → String
  | .timeoutOverflow => "overflow when adding durations"

/-- The request of a health query; none if the time to wait for it is no duration. -/
def healthRequest? [Url.Idna] (client : AgentClient) (q : HealthQuery) :
    Option (Except Failure HttpRequest) :=
  (client.healthTimeout? q).map (client.request (healthSegments q.service) (healthQuery q))

/-- The failure of a request that has no response. -/
def transportFailure (r : HttpRequest) : Failure :=
  .registryUnavailable (r.url.toText ++ ": " ++ r.failureReason)

/-- A body that does not decode. -/
def undecodable : Failure := .invalidEntry "error decoding response body"

/-- The failure of a response with a status other than success. -/
def statusFailure (r : HttpRequest) (response : HttpResponse) : Failure :=
  .registryUnavailable
    (r.url.path.toText ++ " returned " ++ Http.statusText response.status ++ ": " ++
      response.errorText)

/-- A response with a status of success. -/
def successful (r : HttpRequest) : Option HttpResponse → Except Failure HttpResponse
  | none => .error (transportFailure r)
  | some response =>
    if Http.isSuccess response.status then .ok response else .error (statusFailure r response)

/-- The value of a body. -/
def decoded {α : Type} (decode? : Json.Value → Option α) (response : HttpResponse) :
    Except Failure α :=
  match response.json?.bind decode? with
  | some a => .ok a
  | none => .error undecodable

/-- The name of the header with the registry's index. -/
def indexHeader : String := "X-Consul-Index"

/-- The registry's index that a response shows. -/
def consistencyIndex (response : HttpResponse) : Except Failure Nat :=
  match (response.headerText? indexHeader).bind fun s => Decimal.read? UInt64.size s.toList with
  | some index => .ok index
  | none => .error (.invalidEntry ("missing or invalid " ++ indexHeader ++ " header"))

/-- The answer to a health query. -/
def readHealth (r : HttpRequest) (response : Option HttpResponse) : Except Failure Answer := do
  let response ← successful r response
  let index ← consistencyIndex response
  let entries ← decoded healthEntries? response
  return ⟨entries, index⟩

/-- The agent's report about itself. -/
def readAgent (r : HttpRequest) (response : Option HttpResponse) : Except Failure Agent :=
  (successful r response).bind (decoded Agent.ofJson?)

/-- The services of the agent. -/
def readServices (r : HttpRequest) (response : Option HttpResponse) :
    Except Failure (Table String AgentService) :=
  (successful r response).bind (decoded AgentService.mapOfJson?)

/-- The wording of a text that is no encoding of bytes. -/
def encodingFault : Base64.Fault → String
  | .symbol byte offset =>
    "Invalid symbol " ++ Decimal.text byte.toNat ++ ", offset " ++ Decimal.text offset ++ "."
  | .lastSymbol byte offset =>
    "Invalid last symbol " ++ Decimal.text byte.toNat ++ ", offset " ++ Decimal.text offset ++ "."
  | .length symbols => "Invalid input length: " ++ Decimal.text symbols
  | .padding => "Invalid padding"

/-- The bytes of an encoded value. -/
def valueBytes (encoded : Option String) : Except Failure (List UInt8) :=
  match encoded with
  | none => .ok []
  | some text =>
    match Base64.decode (Utf8.encode text.toList) with
    | .ok bytes => .ok bytes
    | .error fault => .error (.invalidEntry (encodingFault fault))

/-- The value of a key. -/
def readValue (key : String) (r : HttpRequest) (response : Option HttpResponse) :
    Except Failure (List UInt8) :=
  match response with
  | none => .error (transportFailure r)
  | some response =>
    if response.status = 404 then .error (.keyNotFound key)
    else if !Http.isSuccess response.status then
      .error (.registryUnavailable
        (r.url.path.toText ++ " returned " ++ Http.statusText response.status))
    else
      match decoded (Json.Value.asList? pairValue?) response with
      | .error f => .error f
      | .ok [] => .error (.keyNotFound key)
      | .ok (value :: _) => valueBytes value

/-- A request and what is made of its response. -/
def exchange {α : Type} (link : Link) (request : Except Failure HttpRequest)
    (read : HttpRequest → Option HttpResponse → Except Failure α) : Except Failure α :=
  request.bind fun r => read r (if r.isSendable then link r else none)

/-- A health query over a network; none if it breaks down. -/
def health? [Url.Idna] (client : AgentClient) (link : Link) (q : HealthQuery) :
    Option (Except Failure Answer) :=
  (client.healthRequest? q).map fun request => exchange link request readHealth

/-- The agent's report about itself, over a network. -/
def agentSelf [Url.Idna] (client : AgentClient) (link : Link) : Except Failure Agent :=
  exchange link (client.request ["v1", "agent", "self"] [] client.requestTimeout) readAgent

/-- The services of the agent, over a network. -/
def agentServices [Url.Idna] (client : AgentClient) (link : Link) :
    Except Failure (Table String AgentService) :=
  exchange link (client.request ["v1", "agent", "services"] [] client.requestTimeout) readServices

/-- The value of a key, over a network. -/
def value [Url.Idna] (client : AgentClient) (link : Link) (key : String) :
    Except Failure (List UInt8) :=
  exchange link (client.request (valueSegments key) [] client.requestTimeout) (readValue key)

end AgentClient

/-- The client of an agent with the network between them. -/
structure LinkedAgent where
  client : AgentClient
  link : Link

instance [Url.Idna] : Registry LinkedAgent where
  address a := a.client.base
  query now q a :=
    (match a.client.health? a.link q with
      | some answer => .given now answer
      | none => .broken, a)
  answer? now p _ :=
    match p with
    | .given time answer => if time ≤ now then some answer else none
    | _ => none
  inspect now a := ((now, a.client.agentSelf a.link), a)

end ServiceDiscovery
