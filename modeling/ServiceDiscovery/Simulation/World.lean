import ServiceDiscovery.Registry.Basic
import ServiceDiscovery.Service.Basic

/-!
# A service on a virtual clock

A service with its registry, run on a clock that stands still while any task can go on and then
jumps to the next time at which one can. Every move is an action of the service. Lookups move before
watchers and watchers before shutdowns; of several tasks of a kind, the earliest that can.
-/

namespace ServiceDiscovery

/-- Something that happened in a run. -/
inductive Note (ρ : Type)
  /-- The agent was inspected. -/
  | inspected
  /-- The registry was asked. -/
  | asked (query : HealthQuery)
  /-- A delivery did something to be seen. -/
  | event (e : Event ρ)
  /-- A lookup returned. -/
  | resolved (i : Nat) (result : Except Failure EndpointSet)
  /-- A watcher ended. -/
  | left (j : Nat) (exit : WatchExit)
  /-- A shutdown call returned. -/
  | stopped (k : Nat)

/-- A service with its registry at a time in milliseconds. -/
structure World (σ ρ : Type) where
  now : Nat
  registry : σ
  /-- The tag that instances must carry, if any. -/
  tag : Option String
  service : Service ρ
  /-- The queries of lookups that are out, by lookup. -/
  lookupQueries : Table Nat Pending
  /-- The queries of watchers that are out, by watcher. -/
  watchQueries : Table Nat Pending
  /-- The ends of the watchers' pauses, by watcher. -/
  pauses : Table Nat Nat
  /-- What happened, the latest first. -/
  notes : List (Nat × Note ρ)

namespace World

variable {σ ρ : Type} [Registry σ]

/-- A service with its registry at the start of the clock. -/
def start (registry : σ) (tag : Option String) (service : Service ρ) : World σ ρ :=
  ⟨0, registry, tag, service, .empty, .empty, .empty, []⟩

/-- The world with something noted. -/
def note (n : Note ρ) (w : World σ ρ) : World σ ρ := { w with notes := (w.now, n) :: w.notes }

/-- What an action has ended, if anything. -/
def ended (s : Service ρ) : Action ρ → List (Note ρ)
  | .lookup i | .answerLookup i _ =>
    ((s.lookups[i]?.bind Lookup.result?).map (Note.resolved i)).toList
  | .watcher j =>
    match s.watchers[j]?.map Watcher.stage with
    | some (.ended exit) => [.left j exit]
    | _ => []
  | .shutdown k => if s.shutdowns[k]? = some .returned then [.stopped k] else []
  | _ => []

/-- The world after an action, if it is possible. -/
def act? (a : Action ρ) (w : World σ ρ) : Option (World σ ρ) :=
  (w.service.step a).map fun o =>
    (o.2.map Note.event ++ ended o.1 a).foldl (fun w n => w.note n) { w with service := o.1 }

/-- The world after an action; one that is not possible changes nothing. -/
def act (a : Action ρ) (w : World σ ρ) : World σ ρ := (w.act? a).getD w

/-- Asks the registry. -/
def ask (q : HealthQuery) (w : World σ ρ) : Pending × World σ ρ :=
  let (pending, registry) := Registry.query w.now q w.registry
  (pending, ({ w with registry := registry }).note (.asked q))

/-- A lookup's next move, if it has one. -/
def moveLookup (w : World σ ρ) (i : Nat) (l : Lookup ρ) : Option (World σ ρ) :=
  match l with
  | .asking key =>
    match w.lookupQueries.get? i with
    | none =>
      let (pending, w) := w.ask (.immediate w.tag key)
      some { w with lookupQueries := w.lookupQueries.insert i pending }
    | some pending =>
      (Registry.answer? w.now pending w.registry).map fun answer =>
        { w with lookupQueries := w.lookupQueries.erase i }.act (.answerLookup i answer)
  | _ => w.act? (.lookup i)

/-- A watcher's move while its query is out. -/
def moveAsking (w : World σ ρ) (j : Nat) (key : Key) (cursor : Cursor) : Option (World σ ρ) :=
  match w.watchQueries.get? j with
  | none =>
    let (pending, w) := w.ask (.blocking w.tag key cursor.waitIndex w.service.watch.waitTime)
    some { w with watchQueries := w.watchQueries.insert j pending }
  | some .broken => w.act? (.crash j)
  | some pending =>
    (Registry.answer? w.now pending w.registry).map fun answer =>
      { w with watchQueries := w.watchQueries.erase j }.act (.answerWatcher j answer)

/-- A watcher's move while it pauses. -/
def movePausing (w : World σ ρ) (j : Nat) : Option (World σ ρ) :=
  match w.pauses.get? j with
  | none =>
    some { w with pauses := w.pauses.insert j (w.now + w.service.watch.retryDelay.toMillisUp) }
  | some time =>
    if time ≤ w.now then some ({ w with pauses := w.pauses.erase j }.act (.resume j)) else none

/-- A watcher's next move, if it has one; one that waits notices a cancellation first. -/
def moveWatcher (w : World σ ρ) (j : Nat) (watcher : Watcher ρ) : Option (World σ ρ) :=
  match watcher.stage with
  | .asking cursor =>
    if w.service.cancelled then
      some ({ w with watchQueries := w.watchQueries.erase j }.act (.cancel j))
    else w.moveAsking j watcher.key cursor
  | .pausing _ =>
    if w.service.cancelled then some ({ w with pauses := w.pauses.erase j }.act (.cancel j))
    else w.movePausing j
  | _ => w.act? (.watcher j)

/-- The next move of the tasks of a list, the first that has one. -/
def firstMove {τ : Type} (move : Nat → τ → Option (World σ ρ)) (tasks : List τ) :
    Option (World σ ρ) :=
  tasks.zipIdx.findSome? fun t => move t.2 t.1

/-- The next move of all tasks, if any can go on. -/
def move? (w : World σ ρ) : Option (World σ ρ) :=
  (firstMove w.moveLookup w.service.lookups).or
    ((firstMove w.moveWatcher w.service.watchers).or
      (firstMove (fun k (_ : Shutdown) => w.act? (.shutdown k)) w.service.shutdowns))

/-- The world after at most `fuel` moves, when no task can go on at the present time. -/
def settleFrom : (fuel : Nat) → World σ ρ → World σ ρ
  | 0, w => w
  | fuel + 1, w =>
    match w.move? with
    | some next => settleFrom fuel next
    | none => w

/-- The number of moves after which a run is given up. -/
def patience : Nat := 1000000

/-- The world when no task can go on at the present time. -/
def settle (w : World σ ρ) : World σ ρ := settleFrom patience w

/-- The next time at which a task can go on by itself. -/
def nextTime? (w : World σ ρ) : Option Nat :=
  ((w.lookupQueries.values ++ w.watchQueries.values).filterMap Pending.deadline? ++
    w.pauses.values).filter (w.now < ·) |>.min?

/-- The world at a time, after all that happens up to it. -/
def runToFrom (time : Nat) : (fuel : Nat) → World σ ρ → World σ ρ
  | 0, w => w
  | fuel + 1, w =>
    let w := w.settle
    match w.nextTime?.filter (· ≤ time) with
    | some next => runToFrom time fuel { w with now := next }
    | none => { w with now := max w.now time }

/-- The world at a time, after all that happens up to it. -/
def runTo (time : Nat) (w : World σ ρ) : World σ ρ := (runToFrom time patience w).settle

/-- The world after a span of time. -/
def sleep (d : Duration) (w : World σ ρ) : World σ ρ := w.runTo (w.now + d.toMillisUp)

/-- What a lookup returned, if it has. -/
def result? (w : World σ ρ) (i : Nat) : Option (Except Failure EndpointSet) :=
  w.service.lookups[i]?.bind Lookup.result?

/-- The world when a lookup has returned, if it ever does. -/
def returnedFrom (i : Nat) : (fuel : Nat) → World σ ρ → World σ ρ
  | 0, w => w
  | fuel + 1, w =>
    let w := w.settle
    match w.result? i, w.nextTime? with
    | none, some next => returnedFrom i fuel { w with now := next }
    | _, _ => w

/-- The world when a lookup has returned, if it ever does. -/
def returned (i : Nat) (w : World σ ρ) : World σ ρ := returnedFrom i patience w

/-- Calls a lookup; its place comes first. -/
def call (name : String) (w : World σ ρ) : Nat × World σ ρ :=
  (w.service.lookups.length, w.act (.resolve name))

/-- Calls a lookup and waits for it; none if it never returns. -/
def resolve (name : String) (w : World σ ρ) : Option (Except Failure EndpointSet) × World σ ρ :=
  let (i, w) := w.call name
  let w := w.returned i
  (w.result? i, w)

/-- Calls several lookups at once and waits for all of them. -/
def resolveAll (names : List String) (w : World σ ρ) :
    List (Option (Except Failure EndpointSet)) × World σ ρ :=
  let first := w.service.lookups.length
  let w := names.foldl (fun w name => w.act (.resolve name)) w
  let places := (List.range names.length).map (first + ·)
  let w := places.foldl (fun w i => w.returned i) w
  (places.map w.result?, w)

/-- Calls a shutdown and lets all tasks go on. -/
def shutdown (w : World σ ρ) : World σ ρ := (w.act .callShutdown).settle

/-- Subscribes a handler; its number comes first. -/
def subscribe (name : String) (handler : Handler false ρ) (w : World σ ρ) :
    SubscriptionId × World σ ρ :=
  ((w.service.cache.subscribe name handler).1, w.act (.subscribe name handler))

/-- Cancels a subscription; first whether it was there under that name. -/
def unsubscribe (name : String) (id : SubscriptionId) (w : World σ ρ) : Bool × World σ ρ :=
  ((w.service.cache.unsubscribe name id).1, w.act (.unsubscribe name id))

/-- Drops the cached set of a name; first whether there was one. -/
def invalidate (name : String) (w : World σ ρ) : Bool × World σ ρ :=
  ((w.service.cached name).isSome, w.act (.invalidate name))

/-- What happened, the earliest first. -/
def history (w : World σ ρ) : List (Nat × Note ρ) := w.notes.reverse

/-- What handlers reported, the earliest first. -/
def reports (w : World σ ρ) : List ρ :=
  w.history.filterMap fun n =>
    match n.2 with
    | .event e => e.report?
    | _ => none

/-- The world with nothing noted. -/
def forget (w : World σ ρ) : World σ ρ := { w with notes := [] }

end World

end ServiceDiscovery
