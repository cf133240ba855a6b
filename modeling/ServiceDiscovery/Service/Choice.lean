import ServiceDiscovery.Balancer
import ServiceDiscovery.Catalog.Entry
import ServiceDiscovery.Failure

/-!
# Choosing from what was resolved

What a caller makes of a lookup's result: one endpoint, the endpoints as one text, or the endpoint
of a service on the local agent.
-/

namespace ServiceDiscovery.Choice

/-- One endpoint of a set that a name resolved to, and the balancer after the choice. -/
def one (registry name : String) (draw : Nat) (set : EndpointSet) (b : Balancer) :
    Except Failure Endpoint × Balancer :=
  let (e, b) := b.pick draw set
  (match e with
    | some e => .ok e
    | none => .error (.notFound name registry), b)

/-- One endpoint of what a lookup returned; nothing is chosen after a failure. -/
def oneOf (registry name : String) (draw : Nat) (result : Except Failure EndpointSet)
    (b : Balancer) : Except Failure Endpoint × Balancer :=
  match result with
  | .ok set => one registry name draw set b
  | .error f => (.error f, b)

/-- The endpoints of a set as one text, with commas between them. -/
def connectionText (result : Except Failure EndpointSet) : Except Failure String :=
  result.map (EndpointSet.join ",")

/-- The endpoint of a service on the local agent, at the agent's host if it has no address. -/
def onAgent (registry agentHost name : String) (services : List AgentService) :
    Except Failure Endpoint :=
  match services.find? fun s => s.service == name with
  | some s => .ok ⟨if s.address = "" then agentHost else s.address, s.port⟩
  | none => .error (.notFound name registry)

end ServiceDiscovery.Choice
