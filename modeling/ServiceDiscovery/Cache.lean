import ServiceDiscovery.Key
import ServiceDiscovery.Subscription.Hub

/-!
# The cache

The endpoints of each resolved key, the subscriptions to their changes, and the keys that are being
watched. Every operation is one step that nothing else comes between. A step that accepts a set
gives the notification to deliver afterwards; a set that is already there is not accepted again.
-/

namespace ServiceDiscovery

/-- Cached sets, subscriptions and watch claims. -/
structure Cache (η : Type) where
  entries : Table Key EndpointSet
  hub : Hub η
  watching : List Key

namespace Cache

variable {η : Type}

/-- Nothing cached, subscribed or watched. -/
def empty : Cache η := ⟨.empty, .empty, []⟩

/-- The cached set of a key. -/
def get? (c : Cache η) (key : Key) : Option EndpointSet := c.entries.get? key

/-- Whether a key is being watched. -/
def isWatched (c : Cache η) (key : Key) : Bool := c.watching.contains key

/-- The watched keys in ascending order. -/
def watchedKeys (c : Cache η) : List Key := Key.sort c.watching

/-- The number of cached sets. -/
def size (c : Cache η) : Nat := c.entries.size

/-- Stores a set unless it is already there: whether it was accepted, and what to deliver then. -/
def store (key : Key) (set : EndpointSet) (c : Cache η) :
    Bool × Option (Notification η) × Cache η :=
  if c.entries.get? key = some set then (false, none, c)
  else (true, c.hub.notification key.name set, { c with entries := c.entries.insert key set })

/-- Stores a set for a key: whether it changed, and what to deliver. -/
def update (key : Key) (set : EndpointSet) (c : Cache η) :
    Bool × Option (Notification η) × Cache η :=
  c.store key set

/-- The cache with a key claimed for watching. -/
def claim (key : Key) (c : Cache η) : Cache η :=
  if key ∈ c.watching then c else { c with watching := c.watching ++ [key] }

/-- Stores a set and claims the key for watching: whether the claim is new, and what to deliver. -/
def seed (key : Key) (set : EndpointSet) (c : Cache η) : Bool × Option (Notification η) × Cache η :=
  let (_, notification, stored) := c.store key set
  (!c.isWatched key, notification, stored.claim key)

/-- Drops the set of a key: first whether there was one. -/
def invalidate (key : Key) (c : Cache η) : Bool × Cache η :=
  ((c.get? key).isSome, { c with entries := c.entries.erase key })

/-- Drops the set of a key and gives its watch claim back. -/
def release (key : Key) (c : Cache η) : Cache η :=
  { c with entries := c.entries.erase key, watching := c.watching.filter (· ≠ key) }

/-- Subscribes a handler to a service name; its number comes first. -/
def subscribe (name : String) (handler : η) (c : Cache η) : SubscriptionId × Cache η :=
  let (id, hub) := c.hub.subscribe name handler
  (id, { c with hub := hub })

/-- Cancels a subscription; first whether it was there under that name. -/
def unsubscribe (name : String) (id : SubscriptionId) (c : Cache η) : Bool × Cache η :=
  let (removed, hub) := c.hub.unsubscribe name id
  (removed, { c with hub := hub })

/-- The set that is stored is not accepted again. -/
theorem store_of_eq {c : Cache η} {key : Key} {set : EndpointSet} (h : c.get? key = some set) :
    c.store key set = (false, none, c) :=
  if_pos h

/-- Any other set is accepted, and the handlers of the key's name are to be called. -/
theorem store_of_ne {c : Cache η} {key : Key} {set : EndpointSet} (h : c.get? key ≠ some set) :
    c.store key set = (true, c.hub.notification key.name set,
      { c with entries := c.entries.insert key set }) :=
  if_neg h

/-- After a set was stored, its key has that set and every other key the set it had. -/
theorem get?_store (c : Cache η) (key other : Key) (set : EndpointSet) :
    (c.store key set).2.2.get? other = if key = other then some set else c.get? other := by
  rw [store]
  split
  · next h =>
    split
    · next he =>
      subst he
      exact h
    · rfl
  · exact Table.get?_insert c.entries key other set

/-- Storing a set leaves the claims as they are. -/
theorem watching_store (c : Cache η) (key : Key) (set : EndpointSet) :
    (c.store key set).2.2.watching = c.watching := by
  rw [store]
  split <;> rfl

/-- A claim is for its key alone. -/
theorem mem_watching_claim {c : Cache η} {key x : Key} :
    x ∈ (c.claim key).watching ↔ x = key ∨ x ∈ c.watching := by
  rw [claim]
  split
  · next h => exact ⟨Or.inr, fun hx => hx.elim (fun he => he ▸ h) id⟩
  · simp [or_comm]

/-- A claim leaves the sets as they are. -/
theorem get?_claim (c : Cache η) (key other : Key) : (c.claim key).get? other = c.get? other := by
  rw [claim]
  split <;> rfl

/-- After a seeding, its key has the set and every other key the set it had. -/
theorem get?_seed (c : Cache η) (key other : Key) (set : EndpointSet) :
    (c.seed key set).2.2.get? other = if key = other then some set else c.get? other := by
  show ((c.store key set).2.2.claim key).get? other = _
  rw [get?_claim, get?_store]

/-- After a seeding, its key is watched. -/
theorem mem_watching_seed {c : Cache η} {key x : Key} {set : EndpointSet} :
    x ∈ (c.seed key set).2.2.watching ↔ x = key ∨ x ∈ c.watching := by
  show x ∈ ((c.store key set).2.2.claim key).watching ↔ _
  rw [mem_watching_claim, watching_store]

/-- A seeding claims its key and no other. -/
theorem watching_seed (c : Cache η) (key : Key) (set : EndpointSet) :
    (c.seed key set).2.2.watching = (c.claim key).watching := by
  simp only [seed, claim, watching_store]
  split <;> simp [watching_store]

/-- A new claim that is given back leaves the claims that were there. -/
theorem filter_watching_claim {c : Cache η} {key : Key} (h : key ∉ c.watching) :
    (c.claim key).watching.filter (· ≠ key) = c.watching := by
  have hothers : c.watching.filter (· ≠ key) = c.watching :=
    List.filter_eq_self.2 fun x hx => by simpa using ne_of_mem_of_not_mem hx h
  rw [claim, if_neg h, List.filter_append, hothers]
  simp

/-- A dropped set is gone; every other key has the set it had. -/
theorem get?_invalidate (c : Cache η) (key other : Key) :
    (c.invalidate key).2.get? other = if key = other then none else c.get? other :=
  Table.get?_erase c.entries key other

/-- A release drops the set of its key alone. -/
theorem get?_release (c : Cache η) (key other : Key) :
    (c.release key).get? other = if key = other then none else c.get? other :=
  Table.get?_erase c.entries key other

/-- A dropped set leaves every key with its set or with none. -/
theorem get?_invalidate_or (c : Cache η) (dropped key : Key) :
    (c.invalidate dropped).2.get? key = c.get? key ∨ (c.invalidate dropped).2.get? key = none := by
  rw [get?_invalidate]
  split
  · exact Or.inr rfl
  · exact Or.inl rfl

/-- A release leaves every key with its set or with none. -/
theorem get?_release_or (c : Cache η) (released key : Key) :
    (c.release released).get? key = c.get? key ∨ (c.release released).get? key = none := by
  rw [get?_release]
  split
  · exact Or.inr rfl
  · exact Or.inl rfl

/-- A release gives the claim of its key back, and no other. -/
theorem mem_watching_release {c : Cache η} {key x : Key} :
    x ∈ (c.release key).watching ↔ x ∈ c.watching ∧ x ≠ key := by
  simp [release]

end Cache

end ServiceDiscovery
