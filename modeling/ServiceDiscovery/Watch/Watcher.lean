import ServiceDiscovery.Config.Basic
import ServiceDiscovery.Failure
import ServiceDiscovery.Subscription.Delivery
import ServiceDiscovery.Watch.Cursor

/-!
# Watchers

A watcher keeps the cached set of one key up to date. It asks the registry a blocking query, stores
what it learns, has the change delivered and asks again. After a failure it pauses and repeats the
query; after too many failures in a row, or when it is cancelled, it leaves: set and claim of its
key are dropped in one step. Each function below is one step, possible in some stages only.
-/

namespace ServiceDiscovery

/-- Why a watcher left. -/
inductive WatchExit
  | gaveUp
  | cancelled
  deriving DecidableEq, Repr

/-- What a watcher is doing. -/
inductive WatchStage (ρ : Type)
  /-- A blocking query is out. -/
  | asking (cursor : Cursor)
  /-- The query was answered and the set is to be stored. -/
  | storing (cursor : Cursor) (set : EndpointSet)
  /-- An accepted set is being delivered. -/
  | notifying (cursor : Cursor) (delivery : Delivery false ρ)
  /-- The query failed and will be repeated. -/
  | pausing (cursor : Cursor)
  /-- The watcher is about to drop its set and its claim. -/
  | leaving (exit : WatchExit)
  /-- The watcher has ended. -/
  | ended (exit : WatchExit)
  /-- The registry broke down under the query, and the watcher with it. -/
  | crashed

/-- A watcher of a key. -/
structure Watcher (ρ : Type) where
  key : Key
  stage : WatchStage ρ

namespace Watcher

variable {ρ : Type}

/-- The watcher of a key that was looked up at an index. -/
def start (key : Key) (index : Nat) : Watcher ρ := ⟨key, .asking (.ofIndex index)⟩

/-- Whether the watcher will do nothing any more. -/
def isOver (w : Watcher ρ) : Bool :=
  match w.stage with
  | .ended _ | .crashed => true
  | _ => false

/-- The watcher after its query failed. -/
def failed (ceiling : UInt32) (cursor : Cursor) (w : Watcher ρ) : Watcher ρ :=
  let cursor := cursor.recordFailure
  { w with stage := if cursor.hasReached ceiling then .leaving .gaveUp else .pausing cursor }

/-- The watcher after its query ended with a set and an index, or with a failure. -/
def answer (ceiling : UInt32) (result : Except Failure (EndpointSet × Nat)) (w : Watcher ρ) :
    Option (Watcher ρ) :=
  match w.stage with
  | .asking cursor =>
    some (match result with
      | .ok (set, index) => { w with stage := .storing (cursor.recordSuccess index) set }
      | .error _ => w.failed ceiling cursor)
  | _ => none

/-- The watcher after its pause. -/
def resume (w : Watcher ρ) : Option (Watcher ρ) :=
  match w.stage with
  | .pausing cursor => some { w with stage := .asking cursor }
  | _ => none

/-- The watcher after it was cancelled while it waited. -/
def cancel (w : Watcher ρ) : Option (Watcher ρ) :=
  match w.stage with
  | .asking _ | .pausing _ => some { w with stage := .leaving .cancelled }
  | _ => none

/-- The watcher after the registry broke down under its query. -/
def crash (w : Watcher ρ) : Option (Watcher ρ) :=
  match w.stage with
  | .asking _ => some { w with stage := .crashed }
  | _ => none

/-- Cache and watcher after a step of the watcher's own, and what was seen of it. -/
structure Outcome (ρ : Type) where
  cache : HandlerCache false ρ
  watcher : Watcher ρ
  events : List (Event ρ)

/-- The next step of a watcher that waits for nothing. -/
def advance (c : HandlerCache false ρ) (w : Watcher ρ) : Option (Outcome ρ) :=
  match w.stage with
  | .storing cursor set =>
    let (_, notification, c) := c.update w.key set
    some ⟨c, { w with stage := .notifying cursor (.ofNotification notification) }, []⟩
  | .notifying cursor delivery =>
    match delivery.step c with
    | some o => some ⟨o.cache, { w with stage := .notifying cursor o.rest }, o.events⟩
    | none => some ⟨c, { w with stage := .asking cursor }, []⟩
  | .leaving exit => some ⟨c.release w.key, { w with stage := .ended exit }, []⟩
  | _ => none

end Watcher

end ServiceDiscovery
