import ServiceDiscovery.EndpointSet
import ServiceDiscovery.Table
import ServiceDiscovery.Text.Decimal

/-!
# Subscriptions

Lists of handlers by service name. Subscriptions are not tied to a datacenter: a change of a service
in any datacenter is for every handler of its name. A handler that is subscribed twice has two
subscriptions. Numbers are given out in ascending order and never twice.
-/

namespace ServiceDiscovery

/-- The number that a subscription is cancelled by. -/
structure SubscriptionId where
  number : Nat
  deriving DecidableEq, Repr

/-- A subscription's number as text. -/
def SubscriptionId.toText (id : SubscriptionId) : String :=
  "SubscriptionId(" ++ Decimal.text id.number ++ ")"

/-- The handlers of one accepted change, in the order of their subscriptions, with the set to hand
to them. -/
structure Notification (η : Type) where
  set : EndpointSet
  handlers : List (SubscriptionId × η)

/-- The handlers of every service name, and how many subscriptions there have been. -/
structure Hub (η : Type) where
  issued : Nat
  lists : Table String (List (SubscriptionId × η))

namespace Hub

variable {η : Type}

/-- No subscriptions yet. -/
def empty : Hub η := ⟨0, .empty⟩

/-- The subscriptions of a name, in their order. -/
def handlers (h : Hub η) (name : String) : List (SubscriptionId × η) := (h.lists.get? name).getD []

/-- The number of subscriptions of a name. -/
def count (h : Hub η) (name : String) : Nat := (h.handlers name).length

/-- Subscribes a handler to a name; its number comes first. -/
def subscribe (name : String) (handler : η) (h : Hub η) : SubscriptionId × Hub η :=
  let id : SubscriptionId := ⟨h.issued + 1⟩
  (id, ⟨h.issued + 1, h.lists.insert name (h.handlers name ++ [(id, handler)])⟩)

/-- Whether a number is subscribed under a name. -/
def isSubscribed (h : Hub η) (name : String) (id : SubscriptionId) : Bool :=
  (h.handlers name).any fun s => s.1 = id

/-- The lists after the first subscription with a number is taken out of a name's list; a name
without subscriptions has no list. -/
def without (name : String) (id : SubscriptionId) (h : Hub η) :
    Table String (List (SubscriptionId × η)) :=
  match (h.handlers name).eraseP fun s => s.1 = id with
  | [] => h.lists.erase name
  | rest => h.lists.insert name rest

/-- Cancels a subscription; first whether it was there under that name. -/
def unsubscribe (name : String) (id : SubscriptionId) (h : Hub η) : Bool × Hub η :=
  if h.isSubscribed name id then (true, { h with lists := h.without name id }) else (false, h)

/-- What has to be delivered when a set is accepted for a name; none without subscriptions. -/
def notification (h : Hub η) (name : String) (set : EndpointSet) : Option (Notification η) :=
  (h.lists.get? name).map fun handlers => ⟨set, handlers⟩

/-- Without subscriptions there are no handlers. -/
@[simp]
theorem handlers_empty (name : String) : (empty : Hub η).handlers name = [] := rfl

/-- A subscription comes last under its name and changes nothing under others. -/
theorem handlers_subscribe (h : Hub η) (name other : String) (handler : η) :
    (h.subscribe name handler).2.handlers other =
      if name = other then h.handlers other ++ [(⟨h.issued + 1⟩, handler)]
      else h.handlers other := by
  show ((h.lists.insert name _).get? other).getD [] = _
  rw [Table.get?_insert]
  split
  · next hn =>
    subst hn
    rfl
  · rfl

/-- What is left of a name's handlers when a number is taken out. -/
theorem handlers_without (h : Hub η) (name other : String) (id : SubscriptionId) :
    ((h.without name id).get? other).getD [] =
      if name = other then (h.handlers other).eraseP fun s => s.1 = id else h.handlers other := by
  rw [without]
  split
  · next hn =>
    rw [Table.get?_erase]
    split
    · next he =>
      subst he
      exact hn.symm
    · rfl
  · rw [Table.get?_insert]
    split
    · next he =>
      subst he
      rfl
    · rfl

/-- A cancelled subscription is taken out of its name's handlers; other names keep theirs. -/
theorem handlers_unsubscribe (h : Hub η) (name other : String) (id : SubscriptionId) :
    (h.unsubscribe name id).2.handlers other =
      if name = other then (h.handlers other).eraseP fun s => s.1 = id else h.handlers other := by
  rw [unsubscribe]
  split
  · exact handlers_without h name other id
  · next hs =>
    split
    · next he =>
      subst he
      exact (List.eraseP_of_forall_not fun s hm hp =>
        hs (List.any_eq_true.2 ⟨s, hm, hp⟩)).symm
    · rfl

/-- A name's notification carries the set, and the name's handlers in their order. -/
theorem notification_eq_some {h : Hub η} {name : String} {set : EndpointSet} {n : Notification η}
    (hn : h.notification name set = some n) : n.set = set ∧ n.handlers = h.handlers name := by
  obtain ⟨l, hl, rfl⟩ := Option.map_eq_some_iff.1 hn
  exact ⟨rfl, by rw [handlers, hl]; rfl⟩

end Hub

end ServiceDiscovery
