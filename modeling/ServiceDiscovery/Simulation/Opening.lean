import ServiceDiscovery.Service.Startup
import ServiceDiscovery.Simulation.World

/-!
# A start on a virtual clock

The steps of a start, taken one after the other as time allows, over a registry that answers in its
own time.
-/

namespace ServiceDiscovery

/-- A start and the world that it runs in. -/
structure Opening (σ ρ : Type) where
  startup : Startup ρ
  world : World σ ρ

namespace Opening

variable {σ ρ : Type} [Registry σ]

/-- A start that has just been called, at the start of the clock. -/
def begin (registry : σ) (config : Config) : Opening σ ρ :=
  let address := Registry.address registry
  ⟨.begin address config, .start registry config.tag (.start address default config.watch)⟩

/-- The opening after a step of the start, if it is possible. -/
def take (a : StartAction ρ) (o : Opening σ ρ) : Opening σ ρ :=
  match o.startup.step a with
  | some (s, _) =>
    { startup := s, world := { o.world with service := s.service?.getD o.world.service } }
  | none => o

/-- The opening after the service's tasks have gone on for a while. -/
def letRun (advance : World σ ρ → World σ ρ) (o : Opening σ ρ) : Opening σ ρ :=
  let w := advance o.world
  ⟨o.startup.withService w.service, w⟩

/-- The opening after an inspection of the agent. -/
def inspect (o : Opening σ ρ) : Opening σ ρ :=
  let w := o.world.note .inspected
  let ((time, result), registry) := Registry.inspect w.now w.registry
  let world := { w with registry := registry, now := max w.now time }
  { o with world := world }.take (.inspected result)

/-- The opening when the start has returned, after at most `fuel` steps. -/
def finishFrom : (fuel : Nat) → Opening σ ρ → Opening σ ρ
  | 0, o => o
  | fuel + 1, o =>
    match o.startup.phase with
    | .inspecting _ => finishFrom fuel o.inspect
    | .resting _ pause => finishFrom fuel ((o.letRun (World.sleep pause)).take .resume)
    | .gating _ _ (.calling _) => finishFrom fuel (o.take .proceed)
    | .gating _ _ (.waiting _ i) => finishFrom fuel ((o.letRun (World.returned i)).take .proceed)
    | .gating _ _ (.pausing _ pause) =>
      finishFrom fuel ((o.letRun (World.sleep pause)).take .resume)
    | .gating _ _ (.leaving _ _) => finishFrom fuel ((o.letRun World.settle).take .proceed)
    | .refused _ | .ready _ | .abandoned _ _ => o

/-- The opening when the start has returned. -/
def finish (o : Opening σ ρ) : Opening σ ρ := finishFrom World.patience o

/-- What the start returned, if it has. -/
def result? (o : Opening σ ρ) : Option (Except Failure (Service ρ)) := o.startup.result?

end Opening

end ServiceDiscovery
