import ServiceDiscovery.Cache
import ServiceDiscovery.Subscription.Script

/-!
# Deliveries

The handlers of a notification are called one after the other, outside the step that accepted the
set. What is still to be done is a stack of frames: a handler that stores a set puts the delivery of
that set on top, so it ends before the handler goes on. A failing handler ends its own frame only.
`step` does one operation, so deliveries of different tasks can be run in any order.
-/

namespace ServiceDiscovery

/-- What an observer sees of a delivery. -/
inductive Event (ρ : Type)
  /-- A handler is called with a set. -/
  | called (id : SubscriptionId) (set : EndpointSet)
  /-- A handler reports something. -/
  | reported (r : ρ)

/-- What a handler reports, if the event is a report. -/
def Event.report? {ρ : Type} : Event ρ → Option ρ
  | .reported r => some r
  | .called _ _ => none

/-- A part of a delivery that is still to be done. -/
inductive Frame (writes : Bool) (ρ : Type)
  /-- Handlers to be called with a set. -/
  | call (set : EndpointSet) (handlers : List (SubscriptionId × Handler writes ρ))
  /-- The rest of what a handler does. -/
  | run (script : Script writes ρ)

/-- What is still to be delivered, the top of the stack first. -/
abbrev Delivery (writes : Bool) (ρ : Type) := List (Frame writes ρ)

/-- The cache of handlers that report `ρ`. -/
abbrev HandlerCache (writes : Bool) (ρ : Type) := Cache (Handler writes ρ)

namespace Delivery

variable {writes : Bool} {ρ : Type}

/-- The delivery of a notification. -/
def ofNotification : Option (Notification (Handler writes ρ)) → Delivery writes ρ
  | some n => [.call n.set n.handlers]
  | none => []

/-- The delivery for a name calls its handlers; without handlers there is nothing to deliver. -/
theorem ofNotification_eq (hub : Hub (Handler writes ρ)) (name : String) (set : EndpointSet) :
    ofNotification (hub.notification name set) = [.call set (hub.handlers name)] ∨
      hub.handlers name = [] ∧ ofNotification (hub.notification name set) = [] := by
  rw [Hub.notification, Hub.handlers]
  cases hub.lists.get? name with
  | none => exact Or.inr ⟨rfl, rfl⟩
  | some handlers => exact Or.inl rfl

/-- The state after one operation, and what was seen of it. -/
structure Outcome (writes : Bool) (ρ : Type) where
  cache : HandlerCache writes ρ
  rest : Delivery writes ρ
  events : List (Event ρ)

/-- The next operation of a handler, with what is to be done after the handler. -/
def runScript (c : HandlerCache writes ρ) (rest : Delivery writes ρ) :
    Script writes ρ → Outcome writes ρ
  | .done | .fail => ⟨c, rest, []⟩
  | .report r next => ⟨c, .run next :: rest, [.reported r]⟩
  | .read key next => ⟨c, .run (next (c.get? key)) :: rest, []⟩
  | .write _ key set next =>
    let (changed, notification, c) := c.update key set
    ⟨c, ofNotification notification ++ .run (next changed) :: rest, []⟩
  | .invalidate key next =>
    let (removed, c) := c.invalidate key
    ⟨c, .run (next removed) :: rest, []⟩
  | .subscribe name handler next =>
    let (id, c) := c.subscribe name handler
    ⟨c, .run (next id) :: rest, []⟩
  | .unsubscribe name id next =>
    let (removed, c) := c.unsubscribe name id
    ⟨c, .run (next removed) :: rest, []⟩

/-- One operation of a delivery; none if nothing is left to be done. -/
def step (c : HandlerCache writes ρ) : Delivery writes ρ → Option (Outcome writes ρ)
  | [] => none
  | .call _ [] :: rest => some ⟨c, rest, []⟩
  | .call set ((id, handler) :: handlers) :: rest =>
    some ⟨c, .run (handler id set) :: .call set handlers :: rest, [.called id set]⟩
  | .run script :: rest => some (runScript c rest script)

/-- The cache after a whole delivery, with all that was seen; none if it takes more than `fuel`
operations. -/
def finish : (fuel : Nat) → HandlerCache writes ρ → Delivery writes ρ →
    Option (HandlerCache writes ρ × List (Event ρ))
  | fuel, c, d =>
    match step c d with
    | none => some (c, [])
    | some o =>
      match fuel with
      | 0 => none
      | fuel + 1 => (finish fuel o.cache o.rest).map fun p => (p.1, o.events ++ p.2)

/-- The cache after the delivery of a notification, if there is one. -/
def complete (fuel : Nat) (n : Option (Notification (Handler writes ρ)))
    (c : HandlerCache writes ρ) : Option (HandlerCache writes ρ × List (Event ρ)) :=
  finish fuel c (ofNotification n)

end Delivery

end ServiceDiscovery
