import ServiceDiscovery.Catalog.Query

/-!
# Registries

What the resolution service needs of a registry: an address for failures, health queries that may be
held for a while, and the agent's report about itself. Time is counted in whole milliseconds.
-/

namespace ServiceDiscovery

/-- A health query that the registry has taken on. -/
inductive Pending
  /-- The answer is fixed and is given at a time. -/
  | given (time : Nat) (answer : Except Failure Answer)
  /-- The query is held until the index is past the given one, or until a deadline. -/
  | blocked (query : HealthQuery) (index deadline : Nat)
  /-- The query is never answered. -/
  | held
  /-- The query breaks down whoever made it. -/
  | broken

/-- The time at which a pending query ends even if the registry does not change. -/
def Pending.deadline? : Pending → Option Nat
  | .given time _ => some time
  | .blocked _ _ deadline => some deadline
  | .held | .broken => none

/-- A registry with state `σ`. -/
class Registry (σ : Type) where
  /-- The address as failures name it. -/
  address : σ → String
  /-- The registry takes on a health query at a time. -/
  query : (now : Nat) → HealthQuery → σ → Pending × σ
  /-- The answer to a pending query, if it is due. -/
  answer? : (now : Nat) → Pending → σ → Option (Except Failure Answer)
  /-- The agent's report about itself, with the time at which it is given. -/
  inspect : (now : Nat) → σ → (Nat × Except Failure Agent) × σ

/-- Asks a registry that nothing else changes, and waits for the answer for at most `limit`
milliseconds: the answer, the time when the waiting ends, and the registry. -/
def Registry.inquire {σ : Type} [Registry σ] (limit now : Nat) (q : HealthQuery) (r : σ) :
    Option (Except Failure Answer) × Nat × σ :=
  let (pending, r) := Registry.query now q r
  match pending.deadline?.filter (· ≤ now + limit) with
  | some time => (Registry.answer? time pending r, time, r)
  | none => (none, now + limit, r)

end ServiceDiscovery
