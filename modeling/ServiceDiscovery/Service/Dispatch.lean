import ServiceDiscovery.Service.Basic
import ServiceDiscovery.Service.Choice

/-!
# Calls for one endpoint

A service with the one balancer that all its calls for an endpoint share. A call is a lookup and,
when the lookup has returned, a choice from what it returned. The lookups of different calls go on
in any order, and a choice is one step.
-/

namespace ServiceDiscovery

/-- A choice that was made for a call. -/
structure Pick where
  /-- The call, by the place of its lookup. -/
  call : Nat
  /-- The name that was resolved. -/
  name : String
  /-- The set that the name resolved to. -/
  set : EndpointSet
  /-- The turns that the balancer had given before. -/
  turn : Nat
  endpoint : Endpoint
  deriving DecidableEq

/-- A service whose callers ask for one endpoint each. -/
structure Dispatch (ρ : Type) where
  service : Service ρ
  balancer : Balancer
  /-- The names that the lookups were called with, by their places. -/
  names : List String
  /-- The calls that have returned. -/
  returned : List Nat
  /-- The choices that were made, the earliest first. -/
  picks : List Pick

namespace Dispatch

variable {ρ : Type}

/-- A service that nobody has called, with a fresh balancer. -/
def start (service : Service ρ) (strategy : Strategy) : Dispatch ρ :=
  ⟨service, .ofStrategy strategy, [], [], []⟩

/-- What moves a dispatch. -/
inductive Move (ρ : Type)
  /-- A task of the service, or a caller from outside, does an action. -/
  | act (a : Action ρ)
  /-- A call whose lookup has returned chooses, with a random number, and returns. -/
  | choose (i draw : Nat)

/-- The names after an action: a lookup that is called has one. -/
def namesAfter (names : List String) : Action ρ → List String
  | .resolve name => names ++ [name]
  | _ => names

/-- The choice of a call for a name; none if the lookup failed or had nothing to choose from. -/
def pick? (i : Nat) (name : String) (turn : Nat) (result : Except Failure EndpointSet)
    (chosen : Except Failure Endpoint) : Option Pick :=
  match result, chosen with
  | .ok set, .ok e => some ⟨i, name, set, turn, e⟩
  | _, _ => none

/-- The dispatch after a call has chosen from the result of its lookup. -/
def chosen (i draw : Nat) (name : String) (result : Except Failure EndpointSet)
    (d : Dispatch ρ) : Dispatch ρ :=
  let (e, b) := Choice.oneOf d.service.registry name draw result d.balancer
  { d with
    balancer := b
    returned := d.returned ++ [i]
    picks := d.picks ++ (pick? i name d.balancer.turns.toNat result e).toList }

/-- The dispatch after a move; none if it is not possible. -/
def move? (d : Dispatch ρ) : Move ρ → Option (Dispatch ρ)
  | .act a =>
    (d.service.step a).map fun o => { d with service := o.1, names := namesAfter d.names a }
  | .choose i draw =>
    if i ∈ d.returned then none
    else
      d.names[i]?.bind fun name =>
        (d.service.lookups[i]?.bind Lookup.result?).map fun result => d.chosen i draw name result

/-- The dispatch after a list of moves; none if one is not possible. -/
def run (d : Dispatch ρ) : List (Move ρ) → Option (Dispatch ρ)
  | [] => some d
  | m :: rest => (d.move? m).bind fun d => run d rest

end Dispatch

end ServiceDiscovery
