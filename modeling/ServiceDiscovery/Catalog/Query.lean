import ServiceDiscovery.Catalog.Entry
import ServiceDiscovery.Duration
import ServiceDiscovery.Failure
import ServiceDiscovery.Key

/-!
# Health queries

What a registry is asked about a service and what it answers. An immediate query reports the present
state; a blocking query is held until the registry's index has moved past the given one, or until
its wait is over.
-/

namespace ServiceDiscovery

/-- The options of a health query. -/
structure QueryOptions where
  /-- The datacenter to ask; none for the agent's own. -/
  datacenter : Option String
  /-- The index that the answer has to be past. -/
  waitIndex : Option Nat
  /-- How long the query may be held. -/
  waitTime : Option Duration
  /-- Whether any server may answer, and not only the leader. -/
  allowStale : Bool
  deriving DecidableEq

/-- A query for the instances of a service. -/
structure HealthQuery where
  service : String
  tag : Option String
  options : QueryOptions
  deriving DecidableEq

/-- The answer to a health query: the instances, and the index they were read at. -/
structure Answer where
  entries : List Entry
  index : Nat
  deriving DecidableEq, Repr

namespace QueryOptions

/-- The options of a lookup of the present state. -/
def immediate (key : Key) : QueryOptions := ⟨key.datacenter, none, none, false⟩

/-- The options of a lookup that waits for a change after an index. -/
def blocking (key : Key) (index : Nat) (wait : Duration) : QueryOptions :=
  ⟨key.datacenter, some index, some wait, true⟩

end QueryOptions

namespace HealthQuery

/-- The query for the present state of a key. -/
def immediate (tag : Option String) (key : Key) : HealthQuery := ⟨key.name, tag, .immediate key⟩

/-- The query that waits for a key to change after an index. -/
def blocking (tag : Option String) (key : Key) (index : Nat) (wait : Duration) : HealthQuery :=
  ⟨key.name, tag, .blocking key index wait⟩

end HealthQuery

/-- The endpoints that an answer shows, with its index. -/
def Answer.endpoints (a : Answer) : EndpointSet × Nat := (healthyEndpoints a.entries, a.index)

/-- What an immediate query for a key gives: without a healthy instance, nothing was found. -/
def Key.found (key : Key) (registry : String) :
    Except Failure Answer → Except Failure (EndpointSet × Nat)
  | .error f => .error f
  | .ok a =>
    let (set, index) := a.endpoints
    if set.isEmpty then .error (.notFound key.toText registry) else .ok (set, index)

/-- What an immediate query finds is not empty. -/
theorem Key.isEmpty_of_found {key : Key} {registry : String} {result : Except Failure Answer}
    {set : EndpointSet} {index : Nat} (h : key.found registry result = .ok (set, index)) :
    set.isEmpty = false := by
  cases result with
  | error f => cases h
  | ok a =>
    simp only [found] at h
    split at h
    · cases h
    · next hne =>
      cases h
      exact Bool.eq_false_iff.2 hne

/-- What a blocking query gives: no healthy instance is a state like any other. -/
def Answer.observed : Except Failure Answer → Except Failure (EndpointSet × Nat) :=
  Except.map Answer.endpoints

/-- What a query for a key gives, immediate or blocking. -/
def HealthQuery.outcome (q : HealthQuery) (key : Key) (registry : String)
    (answer : Except Failure Answer) : Except Failure (EndpointSet × Nat) :=
  if q.options.waitIndex.isSome then Answer.observed answer else key.found registry answer

end ServiceDiscovery
