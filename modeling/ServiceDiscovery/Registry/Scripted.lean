import ServiceDiscovery.Registry.Basic
import ServiceDiscovery.Table

/-!
# The scripted registry

A registry that gives prepared answers, each after a delay. It shows how the service behaves under
every order of slow answers and failures. An answer is fixed when its query arrives.
-/

namespace ServiceDiscovery

/-- An answer and how long it takes. -/
structure Delayed (α : Type) where
  millis : Nat
  result : Except Failure α

/-- A registry that gives prepared answers. -/
structure ScriptedRegistry where
  /-- The answers to immediate queries of each service, the last of which repeats. -/
  immediate : Table String (List (Delayed Answer))
  /-- The answers to blocking queries, after which queries are held. -/
  blocking : List (Delayed Answer)
  /-- The agent's reports, the last of which repeats. -/
  agent : List (Delayed Agent)

namespace ScriptedRegistry

/-- The registry's address. -/
def address : String := "scripted"

/-- The first of some answers, and those that are left; the last one stays. -/
def next? {α : Type} : List α → Option (α × List α)
  | [] => none
  | [a] => some (a, [a])
  | a :: rest => some (a, rest)

/-- The registry takes on a health query. -/
def query (now : Nat) (q : HealthQuery) (r : ScriptedRegistry) : Pending × ScriptedRegistry :=
  match q.options.waitIndex with
  | none =>
    match next? ((r.immediate.get? q.service).getD []) with
    | some (d, rest) =>
      (.given (now + d.millis) d.result, { r with immediate := r.immediate.insert q.service rest })
    | none => (.given now (.ok ⟨[], 0⟩), r)
  | some _ =>
    match r.blocking with
    | d :: rest => (.given (now + d.millis) d.result, { r with blocking := rest })
    | [] => (.held, r)

/-- The answer to a pending query, if it is due. -/
def answer? (now : Nat) (p : Pending) (_ : ScriptedRegistry) : Option (Except Failure Answer) :=
  match p with
  | .given time answer => if time ≤ now then some answer else none
  | _ => none

/-- The agent's report about itself; nothing is prepared means that there is nothing to report. -/
def inspect (now : Nat) (r : ScriptedRegistry) :
    (Nat × Except Failure Agent) × ScriptedRegistry :=
  match next? r.agent with
  | some (d, rest) => ((now + d.millis, d.result), { r with agent := rest })
  | none => ((now, .ok default), r)

instance : Registry ScriptedRegistry where
  address _ := address
  query := query
  answer? := answer?
  inspect := inspect

end ScriptedRegistry

end ServiceDiscovery
