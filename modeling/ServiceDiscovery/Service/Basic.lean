import ServiceDiscovery.Catalog.Query
import ServiceDiscovery.Service.Lookup
import ServiceDiscovery.Watch.Watcher

/-!
# The resolution service as a service of tasks

All calls and watchers of one service, and the cache that they share. `step` does one atomic action
of one task: a section under the cache's lock or under the lock of the task set, a call of one
handler's operation, or the arrival of an answer. Every interleaving is a list of actions, so a law
of the service is a law of `step`.
-/

namespace ServiceDiscovery

/-- What a shutdown call is doing. -/
inductive Shutdown
  /-- Cancellation is to be requested. -/
  | cancelling
  /-- The watchers are to be taken over. -/
  | taking
  /-- The watchers taken over are waited for. -/
  | joining (watchers : List Nat)
  /-- The call has returned. -/
  | returned
  deriving DecidableEq, Repr

/-- A resolution service with all its tasks, each known by its place in its list. -/
structure Service (ρ : Type) where
  /-- The registry's address, as failures name it. -/
  registry : String
  /-- What the registry's agent reported, whose domain names are read under. -/
  agent : Agent
  watch : WatchConfig
  cache : HandlerCache false ρ
  /-- Whether cancellation was requested. -/
  cancelled : Bool
  lookups : List (Lookup ρ)
  watchers : List (Watcher ρ)
  /-- The watchers in the task set. -/
  supervised : List Nat
  shutdowns : List Shutdown

/-- An atomic action of one task, or of a caller from outside. -/
inductive Action (ρ : Type)
  /-- A lookup is called. -/
  | resolve (name : String)
  /-- A lookup does its next own step. -/
  | lookup (i : Nat)
  /-- A lookup's query ends. -/
  | answerLookup (i : Nat) (result : Except Failure Answer)
  /-- A watcher does its next own step. -/
  | watcher (j : Nat)
  /-- A watcher's query ends. -/
  | answerWatcher (j : Nat) (result : Except Failure Answer)
  /-- A watcher's pause is over. -/
  | resume (j : Nat)
  /-- A waiting watcher notices the cancellation. -/
  | cancel (j : Nat)
  /-- A watcher's query breaks down. -/
  | crash (j : Nat)
  /-- A shutdown is called. -/
  | callShutdown
  /-- A shutdown does its next step. -/
  | shutdown (k : Nat)
  /-- A cached set is dropped from outside. -/
  | invalidate (name : String)
  /-- A handler is subscribed from outside. -/
  | subscribe (name : String) (handler : Handler false ρ)
  /-- A subscription is cancelled from outside. -/
  | unsubscribe (name : String) (id : SubscriptionId)

namespace Service

variable {ρ : Type}

/-- A service without calls and watchers. -/
def start (registry : String) (agent : Agent) (watch : WatchConfig) : Service ρ :=
  ⟨registry, agent, watch, .empty, false, [], [], [], []⟩

/-- A service without calls that has one watcher of a key, over a given cache. -/
def watching (registry : String) (watch : WatchConfig) (cache : HandlerCache false ρ) (key : Key)
    (index : Nat) : Service ρ :=
  { start registry default watch with
    cache := cache, watchers := [.start key index], supervised := [0] }

/-- The key that a name denotes for this service. -/
def key (s : Service ρ) (name : String) : Key := .parse name s.agent.domain

/-- The cached set of a name. -/
def cached (s : Service ρ) (name : String) : Option EndpointSet := s.cache.get? (s.key name)

/-- Whether a watcher has ended; so has one that does not exist. -/
def isOver (s : Service ρ) (j : Nat) : Bool := (s.watchers[j]?).all Watcher.isOver

/-- The service after an action, and what was seen of it. -/
abbrev Outcome (ρ : Type) := Service ρ × List (Event ρ)

/-- The service with a lookup's stage set. -/
def setLookup (s : Service ρ) (i : Nat) (l : Lookup ρ) : Service ρ :=
  { s with lookups := s.lookups.set i l }

/-- The service with a watcher set. -/
def setWatcher (s : Service ρ) (j : Nat) (w : Watcher ρ) : Service ρ :=
  { s with watchers := s.watchers.set j w }

/-- The service with a shutdown call's stage set. -/
def setShutdown (s : Service ρ) (k : Nat) (d : Shutdown) : Service ρ :=
  { s with shutdowns := s.shutdowns.set k d }

/-- The service with a new watcher in its task set, from which the ended ones are taken out. -/
def spawn (s : Service ρ) (key : Key) (index : Nat) : Service ρ :=
  { s with
    watchers := s.watchers ++ [.start key index]
    supervised := (s.supervised.filter fun j => !s.isOver j) ++ [s.watchers.length] }

/-- The next own step of a lookup. -/
def stepLookup (s : Service ρ) (i : Nat) : Lookup ρ → Option (Outcome ρ)
  | .arriving name =>
    some (s.setLookup i
      (if s.cancelled then .finished (.error .shuttingDown) else .reading (s.key name)), [])
  | .reading key =>
    some (s.setLookup i
      (match (s.cache.get? key).filter fun set => !set.isEmpty with
      | some set => .finished (.ok set)
      | none => .asking key), [])
  | .seeding key set index =>
    let (claimed, notification, cache) := s.cache.seed key set
    some ({ s with cache := cache }.setLookup i
      (.notifying key set index claimed (.ofNotification notification)), [])
  | .notifying key set index claimed delivery =>
    match delivery.step s.cache with
    | some o =>
      some ({ s with cache := o.cache }.setLookup i (.notifying key set index claimed o.rest),
        o.events)
    | none =>
      some (s.setLookup i (if claimed then .spawning key set index else .finished (.ok set)), [])
  | .spawning key set index =>
    if s.cancelled then
      some ({ s with cache := s.cache.release key }.setLookup i
        (.finished (.error .shuttingDown)), [])
    else some ((s.spawn key index).setLookup i (.finished (.ok set)), [])
  | .asking _ | .finished _ => none

/-- A lookup's query ends: an answer without healthy instances is a failure. -/
def answerLookup (s : Service ρ) (i : Nat) (result : Except Failure Answer) (l : Lookup ρ) :
    Option (Outcome ρ) :=
  match l with
  | .asking key => (l.answer (key.found s.registry result)).map fun l => (s.setLookup i l, [])
  | _ => none

/-- The next own step of a watcher. -/
def stepWatcher (s : Service ρ) (j : Nat) (w : Watcher ρ) : Option (Outcome ρ) :=
  (w.advance s.cache).map fun o => ({ s with cache := o.cache }.setWatcher j o.watcher, o.events)

/-- The next step of a shutdown call; it returns when all watchers it has taken over have ended. -/
def stepShutdown (s : Service ρ) (k : Nat) : Shutdown → Option (Outcome ρ)
  | .cancelling => some ({ s with cancelled := true }.setShutdown k .taking, [])
  | .taking => some ({ s with supervised := [] }.setShutdown k (.joining s.supervised), [])
  | .joining watchers =>
    if watchers.all s.isOver then some (s.setShutdown k .returned, []) else none
  | .returned => none

/-- The service after an action; none if the action is not possible. -/
def step (s : Service ρ) : Action ρ → Option (Outcome ρ)
  | .resolve name => some ({ s with lookups := s.lookups ++ [.arriving name] }, [])
  | .lookup i => s.lookups[i]?.bind (s.stepLookup i)
  | .answerLookup i result => s.lookups[i]?.bind (s.answerLookup i result)
  | .watcher j => s.watchers[j]?.bind (s.stepWatcher j)
  | .answerWatcher j result => do
    let w ← s.watchers[j]?
    let w ← w.answer s.watch.retryCeiling (Answer.observed result)
    return (s.setWatcher j w, [])
  | .resume j => do
    let w ← s.watchers[j]?
    let w ← w.resume
    return (s.setWatcher j w, [])
  | .cancel j => do
    let w ← s.watchers[j]?
    let w ← if s.cancelled then w.cancel else none
    return (s.setWatcher j w, [])
  | .crash j => do
    let w ← s.watchers[j]?
    let w ← w.crash
    return (s.setWatcher j w, [])
  | .callShutdown => some ({ s with shutdowns := s.shutdowns ++ [.cancelling] }, [])
  | .shutdown k => s.shutdowns[k]?.bind (s.stepShutdown k)
  | .invalidate name => some ({ s with cache := (s.cache.invalidate (s.key name)).2 }, [])
  | .subscribe name handler => some ({ s with cache := (s.cache.subscribe name handler).2 }, [])
  | .unsubscribe name id => some ({ s with cache := (s.cache.unsubscribe name id).2 }, [])

/-- The service after a list of actions, with all that was seen; none if one is not possible. -/
def run (s : Service ρ) : List (Action ρ) → Option (Outcome ρ)
  | [] => some (s, [])
  | a :: rest => do
    let (s, events) ← s.step a
    let (s, later) ← run s rest
    return (s, events ++ later)

end Service

end ServiceDiscovery
