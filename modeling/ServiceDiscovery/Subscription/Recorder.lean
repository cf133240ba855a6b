import ServiceDiscovery.Subscription.Script

/-!
# Recording handlers

Handlers that report each call under a label, so that a run shows who was called with what, and then
do something of their own.
-/

namespace ServiceDiscovery

/-- A call of a recording handler. -/
structure Call where
  label : String
  set : EndpointSet
  /-- The cached set that the handler read before, if it read one. -/
  seen : Option (Option EndpointSet)

namespace Recorder

variable {writes : Bool}

/-- A handler that reports its call, with the cached set of `peek` if there is such a key, and then
acts. -/
def acting (label : String) (peek : Option Key)
    (act : SubscriptionId → EndpointSet → Script writes Call) : Handler writes Call :=
  fun id set =>
    match peek with
    | some key => .read key fun seen => .report ⟨label, set, some seen⟩ (act id set)
    | none => .report ⟨label, set, none⟩ (act id set)

/-- A handler that reports its call and then returns, or fails. -/
def ending (label : String) (fails : Bool) : Handler writes Call :=
  acting label none fun _ _ => if fails then .fail else .done

/-- What a handler of a name does that subscribes another recording handler to it. -/
def growing (name label : String) : Script writes Call :=
  .subscribe name (ending (label ++ "+") false) fun _ => .done

end Recorder

end ServiceDiscovery
