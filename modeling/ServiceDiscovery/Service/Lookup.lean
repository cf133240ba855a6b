import ServiceDiscovery.Failure
import ServiceDiscovery.Subscription.Delivery

/-!
# Lookups

One call that resolves a name. It is refused after a shutdown, served from a cached set that is not
empty, and else asks the registry. What the registry gives is cached, the key is claimed for
watching in the same step, the change is delivered, and whoever won the claim starts the watcher.
-/

namespace ServiceDiscovery

/-- What a lookup is doing. -/
inductive Lookup (ρ : Type)
  /-- The lookup was called. -/
  | arriving (name : String)
  /-- The cache is to be read. -/
  | reading (key : Key)
  /-- An immediate query is out. -/
  | asking (key : Key)
  /-- The query was answered and the set is to be cached. -/
  | seeding (key : Key) (set : EndpointSet) (index : Nat)
  /-- An accepted set is being delivered; `claimed` says whether the watch claim was won. -/
  | notifying (key : Key) (set : EndpointSet) (index : Nat) (claimed : Bool)
    (delivery : Delivery false ρ)
  /-- The watcher is to be started. -/
  | spawning (key : Key) (set : EndpointSet) (index : Nat)
  /-- The lookup has returned. -/
  | finished (result : Except Failure EndpointSet)

namespace Lookup

variable {ρ : Type}

/-- What the lookup returned, if it has. -/
def result? : Lookup ρ → Option (Except Failure EndpointSet)
  | .finished result => some result
  | _ => none

/-- The lookup after its query ended with a set and an index, or with a failure. -/
def answer (result : Except Failure (EndpointSet × Nat)) : Lookup ρ → Option (Lookup ρ)
  | .asking key =>
    some (match result with
      | .ok (set, index) => .seeding key set index
      | .error f => .finished (.error f))
  | _ => none

end Lookup

end ServiceDiscovery
