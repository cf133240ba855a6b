import ServiceDiscovery.Registry.Memory

/-!
# A registry in memory on a virtual clock

The registry in memory with changes that are made at set times. A held query lets the clock run
until it is answered, and the changes that are due are made on the way.
-/

namespace ServiceDiscovery

/-- A registry in memory, the time, and the changes still to be made. -/
structure Agenda where
  now : Nat
  registry : MemoryRegistry
  changes : List (Nat × MemoryRegistry.Change)

namespace Agenda

/-- The registry at the start of the clock. -/
def start (registry : MemoryRegistry) : Agenda := ⟨0, registry, []⟩

/-- A change put at a time, after those that are made at the same time. -/
def place (c : Nat × MemoryRegistry.Change) :
    List (Nat × MemoryRegistry.Change) → List (Nat × MemoryRegistry.Change)
  | [] => [c]
  | a :: rest => if c.1 < a.1 then c :: a :: rest else a :: place c rest

/-- The agenda with a change to be made after some milliseconds. -/
def later (millis : Nat) (c : MemoryRegistry.Change) (a : Agenda) : Agenda :=
  { a with changes := place (a.now + millis, c) a.changes }

/-- The registry at a time, with the changes up to it made. -/
def runToFrom (time : Nat) : List (Nat × MemoryRegistry.Change) → Nat → MemoryRegistry → Agenda
  | [], now, r => ⟨max now time, r, []⟩
  | c :: rest, now, r =>
    if c.1 ≤ time then runToFrom time rest (max now c.1) (r.applied c.2)
    else ⟨max now time, r, c :: rest⟩

/-- The registry at a time, with the changes up to it made. -/
def runTo (time : Nat) (a : Agenda) : Agenda := runToFrom time a.changes a.now a.registry

/-- The answer to a pending query, as the clock runs from change to change and at last to the
deadline; none for a query that is never answered. -/
def answerFrom (p : Pending) : (fuel : Nat) → Agenda → Option (Except Failure Answer × Agenda)
  | 0, _ => none
  | fuel + 1, a =>
    match a.registry.answer? a.now p with
    | some answer => some (answer, a)
    | none =>
      match ((a.changes.head?.map Prod.fst).toList ++ p.deadline?.toList).min? with
      | some time => answerFrom p fuel (a.runTo time)
      | none => none

/-- A health query and its answer. -/
def health (q : HealthQuery) (a : Agenda) : Option (Except Failure Answer × Agenda) :=
  let (pending, registry) := a.registry.query a.now q
  answerFrom pending (a.changes.length + 2) { a with registry := registry }

end Agenda

end ServiceDiscovery
