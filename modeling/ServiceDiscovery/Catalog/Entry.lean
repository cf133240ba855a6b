import ServiceDiscovery.EndpointSet

/-!
# Catalog entries

What a registry knows of one service instance: its node, its address and tags, and its health
checks. An instance is healthy if every check passes or warns; the endpoints of the healthy
instances are what a lookup gives.
-/

namespace ServiceDiscovery

/-- A health check of an instance. -/
structure HealthCheck where
  id : String
  status : String
  deriving DecidableEq, Repr

/-- The node that an instance runs on. -/
structure Node where
  name : String
  address : String
  deriving DecidableEq, Repr

/-- The service that an instance offers; tags may be absent, which is not the same as none. -/
structure Instance where
  name : String
  address : String
  port : UInt16
  tags : Option (List String)
  deriving DecidableEq, Repr

/-- A service instance as the catalog reports it. -/
structure Entry where
  node : Node
  service : Instance
  checks : List HealthCheck
  deriving DecidableEq, Repr

/-- What an agent reports about itself. -/
structure Agent where
  /-- The domain under which the registry answers names. -/
  domain : String
  datacenter : String
  nodeName : String
  advertiseAddress : String
  bindAddress : String
  deriving DecidableEq, Repr, Inhabited

/-- A service registered on the local agent. -/
structure AgentService where
  id : String
  service : String
  address : String
  port : UInt16
  deriving DecidableEq, Repr

/-- Whether a check keeps its instance in use. -/
def HealthCheck.isGood (c : HealthCheck) : Bool := c.status == "passing" || c.status == "warning"

namespace Entry

/-- An instance of a service on a node at an address. -/
def ofAddress (name address : String) (port : UInt16) : Entry :=
  ⟨⟨"", address⟩, ⟨name, "", port, none⟩, []⟩

/-- Whether every check passes or warns. -/
def isHealthy (e : Entry) : Bool := e.checks.all HealthCheck.isGood

/-- Whether the instance carries a tag. -/
def hasTag (e : Entry) (tag : String) : Bool := (e.service.tags.getD []).contains tag

/-- Whether the instance carries the tag that is asked for, if one is. -/
def matchesTag (tag : Option String) (e : Entry) : Bool := tag.all e.hasTag

/-- Where to reach the instance: at its own address, or at the node's if it has none. -/
def endpoint (e : Entry) : Endpoint :=
  ⟨if e.service.address = "" then e.node.address else e.service.address, e.service.port⟩

end Entry

/-- The endpoints of the healthy instances. -/
def healthyEndpoints (entries : List Entry) : EndpointSet :=
  .ofList ((entries.filter Entry.isHealthy).map Entry.endpoint)

/-- An endpoint is among the healthy ones exactly when a healthy instance is reached there. -/
theorem mem_healthyEndpoints {entries : List Entry} {e : Endpoint} :
    e ∈ healthyEndpoints entries ↔
      ∃ entry ∈ entries, entry.isHealthy = true ∧ entry.endpoint = e := by
  simp [healthyEndpoints, and_assoc]

end ServiceDiscovery
