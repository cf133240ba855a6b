import ServiceDiscovery.Key
import ServiceDiscovery.Subscription.Hub

/-!
# What a handler does

A handler is called with its own number and the accepted set. What it then does is a tree of
operations on the cache, each followed by what the handler does with the result, down to an ordinary
end or a failure of the handler. A handler may also report something to whoever observes the run.
Only a handler that belongs to the owner of the cache may write sets; one of a service may not.
-/

namespace ServiceDiscovery

/-- What a handler does; `writes` says whether it may write sets, `ρ` is what it reports. -/
inductive Script (writes : Bool) (ρ : Type) : Type
  /-- The handler returns. -/
  | done
  /-- The handler fails; the delivery goes on with the next one. -/
  | fail
  /-- The handler reports something. -/
  | report (r : ρ) (next : Script writes ρ)
  /-- The handler reads the cached set of a key. -/
  | read (key : Key) (next : Option EndpointSet → Script writes ρ)
  /-- The handler stores a set, which is delivered before the handler goes on. -/
  | write (allowed : writes = true) (key : Key) (set : EndpointSet) (next : Bool → Script writes ρ)
  /-- The handler drops the cached set of a key. -/
  | invalidate (key : Key) (next : Bool → Script writes ρ)
  /-- The handler subscribes a handler. -/
  | subscribe (name : String) (handler : SubscriptionId → EndpointSet → Script writes ρ)
    (next : SubscriptionId → Script writes ρ)
  /-- The handler cancels a subscription. -/
  | unsubscribe (name : String) (id : SubscriptionId) (next : Bool → Script writes ρ)

/-- A handler: what it does for its own number and an accepted set. -/
abbrev Handler (writes : Bool) (ρ : Type) := SubscriptionId → EndpointSet → Script writes ρ

end ServiceDiscovery
