import ServiceDiscovery.Simulation.World

/-!
# Timelines

A service on a virtual clock to which things are done at set times: lookups are called, it is shut
down, it is looked at. What is seen is listed look by look.
-/

namespace ServiceDiscovery

/-- Something done to a service. -/
inductive Moment
  /-- A lookup is called, to be known by a number of its own. -/
  | lookup (label : Nat) (name : String)
  /-- A shutdown is called. -/
  | shutdown
  /-- The service is looked at. -/
  | look

/-- What is seen in a look: what happened since the last one, and the service as it is. -/
structure Sighting (ρ : Type) where
  time : Nat
  notes : List (Nat × Note ρ)
  service : Service ρ

namespace World

variable {σ ρ : Type} [Registry σ]

/-- A note with a lookup's place replaced by its label. -/
def relabel (labels : List Nat) (n : Nat × Note ρ) : Nat × Note ρ :=
  match n.2 with
  | .resolved i result => (n.1, .resolved (labels.getD i i) result)
  | _ => n

/-- A run with what has been seen of it. -/
structure Run (σ ρ : Type) where
  world : World σ ρ
  /-- The labels of the lookups called so far. -/
  labels : List Nat
  sightings : List (Sighting ρ)

/-- The run after something was done at a time; the clock first runs up to it. -/
def Run.take (r : Run σ ρ) (m : Nat × Moment) : Run σ ρ :=
  let w := if r.world.now < m.1 then r.world.runTo m.1 else r.world
  match m.2 with
  | .lookup label name =>
    { r with world := w.act (.resolve name), labels := r.labels ++ [label] }
  | .shutdown => { r with world := w.act .callShutdown }
  | .look =>
    let w := w.settle
    { r with
      world := w.forget
      sightings := r.sightings ++ [⟨w.now, w.history.map (relabel r.labels), w.service⟩] }

/-- What is seen of a service to which things are done, in the order of their times. -/
def follow (moments : List (Nat × Moment)) (w : World σ ρ) : List (Sighting ρ) :=
  ((moments.mergeSort fun a b => a.1 ≤ b.1).foldl Run.take ⟨w, [], []⟩).sightings

end World

end ServiceDiscovery
