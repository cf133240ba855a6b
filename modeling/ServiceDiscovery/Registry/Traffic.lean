import ServiceDiscovery.Registry.Memory

/-!
# Calls on a shared registry

Changes and health queries of one registry in memory that are under way at the same time. A change
writes its data while it keeps everybody else from the data, and advances the index in a second step
without that lock. A query reads the instances and then the index, and keeps writers out between the
two. The index is watched: each time it is set its version goes up. A query that has found the index
not past its own is parked until it sees another version, or until its wait is over.
-/

namespace ServiceDiscovery

/-- Whether a change writes under the lock of the data. -/
def MemoryRegistry.Change.locks : MemoryRegistry.Change → Bool
  | .setIndex _ | .setAvailable _ | .failNext _ => false
  | _ => true

/-- The query that waits for the index to move past a given one. -/
def HealthQuery.after (index : Nat) (q : HealthQuery) : HealthQuery :=
  { q with options := { q.options with waitIndex := some index } }

namespace Traffic

/-- How far a change has come. -/
inductive ChangeStage
  /-- The data are to be written. -/
  | writing
  /-- The data are written and the index is to be advanced. -/
  | bumping
  /-- The change is over. -/
  | made
  /-- The change was refused and nothing was written. -/
  | refused (f : Failure)

/-- How far a query has come. -/
inductive QueryStage
  /-- The query is to be taken on. -/
  | arriving
  /-- The index is to be compared with the one that the query waits after. -/
  | checking (index : Nat)
  /-- The index was not past the one that the query waits after, at a version of it. -/
  | parked (index seen : Nat)
  /-- The instances are to be read. -/
  | reading
  /-- The instances were read, and writers are kept out until the index is read too. -/
  | holding (entries : List Entry)
  /-- The query has returned at a time. -/
  | answered (time : Nat) (result : Except Failure Answer)

/-- Someone who asks the registry, again and again if he likes: each time after the index of the
last answer that he was given. -/
structure Caller where
  query : HealthQuery
  /-- The answer to the last query before this one that was not refused. -/
  last : Option Answer
  /-- The time at which the query was taken on. -/
  taken : Nat
  stage : QueryStage

namespace Caller

/-- Someone who asks for the first time. -/
def first (q : HealthQuery) : Caller := ⟨q, none, 0, .arriving⟩

/-- The time at which the wait of the query is over. -/
def deadline (c : Caller) : Nat :=
  c.taken + (c.query.options.waitTime.getD MemoryRegistry.defaultWait).toMillisUp

/-- Where the query stands when it was let through at a time, or was not. -/
def admitted (c : Caller) (now : Nat) (allowed : Except Failure Unit) : QueryStage :=
  match allowed, c.query.options.waitIndex with
  | .error f, _ => .answered now (.error f)
  | .ok _, none => .reading
  | .ok _, some index => .checking index

/-- Whether the caller keeps writers from the data. -/
def isHolding (c : Caller) : Bool :=
  match c.stage with
  | .holding _ => true
  | _ => false

/-- The caller when he asks after the index of an answer. -/
def resume (a : Answer) (c : Caller) : Caller :=
  { c with query := c.query.after a.index, last := some a, stage := .arriving }

/-- The caller when he asks again: after the index of the answer, or the same after a failure. -/
def again? (c : Caller) : Option Caller :=
  match c.stage with
  | .answered _ (.ok a) => some (c.resume a)
  | .answered _ (.error _) => some { c with stage := .arriving }
  | _ => none

end Caller

/-- What someone does with the registry, or time. -/
inductive Action
  /-- A change is called. -/
  | change (c : MemoryRegistry.Change)
  /-- A change does its next step. -/
  | moveChange (j : Nat)
  /-- A query is called. -/
  | ask (q : HealthQuery)
  /-- A query does its next step. -/
  | moveQuery (i : Nat)
  /-- A caller whose query has returned asks again. -/
  | again (i : Nat)
  /-- Time passes. -/
  | wait (millis : Nat)

end Traffic

/-- A registry in memory with the changes and queries that are under way. -/
structure Traffic where
  now : Nat
  registry : MemoryRegistry
  /-- How often the index was set. -/
  version : Nat
  changes : List (MemoryRegistry.Change × Traffic.ChangeStage)
  callers : List Traffic.Caller

namespace Traffic

/-- A registry that nobody uses yet. -/
def start (registry : MemoryRegistry) : Traffic := ⟨0, registry, 0, [], []⟩

/-- Whether writers are kept from the data. -/
def isRead (t : Traffic) : Bool := t.callers.any Caller.isHolding

/-- The traffic with the stage of a change set. -/
def setChange (t : Traffic) (j : Nat) (c : MemoryRegistry.Change) (stage : ChangeStage) : Traffic :=
  { t with changes := t.changes.set j (c, stage) }

/-- The traffic with the stage of a query set. -/
def setStage (t : Traffic) (i : Nat) (c : Caller) (stage : QueryStage) : Traffic :=
  { t with callers := t.callers.set i { c with stage := stage } }

/-- The traffic with the data of a change written. Setting the index is no change of the data but
counts as a version of the index. -/
def write (t : Traffic) (j : Nat) (c : MemoryRegistry.Change) : Option Traffic :=
  if c.locks && t.isRead then none
  else
    match t.registry.write c with
    | .error f => some (t.setChange j c (.refused f))
    | .ok r =>
      let version := match c with
        | .setIndex _ => t.version + 1
        | _ => t.version
      some ({ t with registry := r, version := version }.setChange j c
        (if c.bumps then .bumping else .made))

/-- The next step of a change. -/
def moveChange (t : Traffic) (j : Nat) : MemoryRegistry.Change × ChangeStage → Option Traffic
  | (c, .writing) => t.write j c
  | (c, .bumping) =>
    some ({ t with registry := t.registry.bump, version := t.version + 1 }.setChange j c .made)
  | (_, .made) | (_, .refused _) => none

/-- The registry takes on a query. -/
def letIn (t : Traffic) (i : Nat) (c : Caller) : Traffic :=
  let (allowed, registry) := (t.registry.count c.query).letThrough
  { t with registry := registry }.setStage i { c with taken := t.now } (c.admitted t.now allowed)

/-- The next step of a query. -/
def moveQuery (t : Traffic) (i : Nat) (c : Caller) : Option Traffic :=
  match c.stage with
  | .arriving => some (t.letIn i c)
  | .checking index =>
    some (t.setStage i c (if index < t.registry.index then .reading else .parked index t.version))
  | .parked index seen =>
    if seen ≠ t.version then some (t.setStage i c (.checking index))
    else if c.deadline ≤ t.now then some (t.setStage i c .reading)
    else none
  | .reading => some (t.setStage i c (.holding (t.registry.snapshot c.query).entries))
  | .holding entries =>
    some (t.setStage i c (.answered t.now (.ok ⟨entries, t.registry.index⟩)))
  | .answered _ _ => none

/-- The traffic after an action; none if it is not possible. -/
def step (t : Traffic) : Action → Option Traffic
  | .change c => some { t with changes := t.changes ++ [(c, .writing)] }
  | .moveChange j => t.changes[j]?.bind (t.moveChange j)
  | .ask q => some { t with callers := t.callers ++ [.first q] }
  | .moveQuery i => t.callers[i]?.bind (t.moveQuery i)
  | .again i =>
    t.callers[i]?.bind fun c => c.again?.map fun c => { t with callers := t.callers.set i c }
  | .wait millis => some { t with now := t.now + millis }

/-- The traffic after a list of actions; none if one is not possible. -/
def run (t : Traffic) : List Action → Option Traffic
  | [] => some t
  | a :: rest => (t.step a).bind fun t => run t rest

end Traffic

end ServiceDiscovery
