import ServiceDiscovery.Service.Basic

/-!
# Starting a service

The agent is inspected, with retries, until it reports; then each service that is waited for has to
resolve, in the listed order and each with its own retries. If one does not, the new service is shut
down before the failure is returned. `step` does one atomic step.
-/

namespace ServiceDiscovery

/-- What the start does about the first of the services that are still waited for. -/
inductive Gate
  /-- The service is to be looked up; attempts are counted from zero. -/
  | calling (attempt : UInt32)
  /-- A lookup is out. -/
  | waiting (attempt : UInt32) (lookup : Nat)
  /-- The lookup failed and will be repeated after a pause. -/
  | pausing (attempt : UInt32) (pause : Duration)
  /-- The start has failed and a shutdown call is out. -/
  | leaving (failure : Failure) (shutdown : Nat)

/-- How far a start has come. -/
inductive StartPhase (ρ : Type)
  /-- The agent is being inspected. -/
  | inspecting (attempt : UInt32)
  /-- The inspection failed and will be repeated after a pause. -/
  | resting (attempt : UInt32) (pause : Duration)
  /-- The start failed before there was a service. -/
  | refused (failure : Failure)
  /-- The services in the list are still waited for. -/
  | gating (service : Service ρ) (names : List String) (gate : Gate)
  /-- The service is ready. -/
  | ready (service : Service ρ)
  /-- The start failed and the service was shut down. -/
  | abandoned (failure : Failure) (service : Service ρ)

/-- A start over a registry, under a configuration. -/
structure Startup (ρ : Type) where
  registry : String
  config : Config
  phase : StartPhase ρ

/-- A step of a start, or of the service while it starts. -/
inductive StartAction (ρ : Type)
  /-- The inspection of the agent ends. -/
  | inspected (result : Except Failure Agent)
  /-- A pause is over. -/
  | resume
  /-- The start does its next own step. -/
  | proceed
  /-- A task of the service does a step. -/
  | service (a : Action ρ)

namespace Startup

variable {ρ : Type}

/-- A start that has just been called. -/
def begin (registry : String) (config : Config) : Startup ρ := ⟨registry, config, .inspecting 0⟩

/-- The service over an agent. -/
def launch (s : Startup ρ) (agent : Agent) : Service ρ := .start s.registry agent s.config.watch

/-- What follows after an inspection. -/
def afterInspection (s : Startup ρ) (attempt : UInt32) : Except Failure Agent → StartPhase ρ
  | .ok agent => .gating (s.launch agent) s.config.waitServices (.calling 0)
  | .error f =>
    match s.config.connectRetry.pause? attempt f with
    | some pause => .resting attempt pause
    | none => .refused f

/-- What follows after a lookup of the first name that is waited for. -/
def afterLookup (s : Startup ρ) (service : Service ρ) (name : String) (rest : List String)
    (attempt : UInt32) : Except Failure EndpointSet → StartPhase ρ
  | .ok _ => .gating service rest (.calling 0)
  | .error f =>
    match s.config.connectRetry.pause? attempt f with
    | some pause => .gating service (name :: rest) (.pausing attempt pause)
    | none =>
      .gating { service with shutdowns := service.shutdowns ++ [.cancelling] } (name :: rest)
        (.leaving f service.shutdowns.length)

/-- The next own step while services are waited for. -/
def proceed (s : Startup ρ) (service : Service ρ) :
    List String → Gate → Option (StartPhase ρ)
  | [], .calling _ => some (.ready service)
  | name :: rest, .calling attempt =>
    some (.gating { service with lookups := service.lookups ++ [.arriving name] } (name :: rest)
      (.waiting attempt service.lookups.length))
  | name :: rest, .waiting attempt i =>
    (service.lookups[i]?.bind Lookup.result?).map (s.afterLookup service name rest attempt)
  | _, .leaving f k =>
    if service.shutdowns[k]? = some .returned then some (.abandoned f service) else none
  | _, _ => none

/-- The start after a step; none if the step is not possible. -/
def step (s : Startup ρ) (a : StartAction ρ) : Option (Startup ρ × List (Event ρ)) :=
  let quiet (phase : StartPhase ρ) : Startup ρ × List (Event ρ) := ({ s with phase := phase }, [])
  match a, s.phase with
  | .inspected result, .inspecting attempt => some (quiet (s.afterInspection attempt result))
  | .resume, .resting attempt _ => some (quiet (.inspecting (attempt + 1)))
  | .resume, .gating service names (.pausing attempt _) =>
    some (quiet (.gating service names (.calling (attempt + 1))))
  | .proceed, .gating service names gate => (s.proceed service names gate).map quiet
  | .service a, .gating service names gate =>
    (service.step a).map fun o => ({ s with phase := .gating o.1 names gate }, o.2)
  | .service a, .ready service =>
    (service.step a).map fun o => ({ s with phase := .ready o.1 }, o.2)
  | .service a, .abandoned f service =>
    (service.step a).map fun o => ({ s with phase := .abandoned f o.1 }, o.2)
  | _, _ => none

/-- The service, if there is one yet. -/
def service? (s : Startup ρ) : Option (Service ρ) :=
  match s.phase with
  | .gating service _ _ | .ready service | .abandoned _ service => some service
  | _ => none

/-- The start with the state that its service has reached by steps of its tasks. -/
def withService (s : Startup ρ) (service : Service ρ) : Startup ρ :=
  match s.phase with
  | .gating _ names gate => { s with phase := .gating service names gate }
  | .ready _ => { s with phase := .ready service }
  | .abandoned f _ => { s with phase := .abandoned f service }
  | _ => s

/-- What the start returned, if it has. -/
def result? (s : Startup ρ) : Option (Except Failure (Service ρ)) :=
  match s.phase with
  | .refused f | .abandoned f _ => some (.error f)
  | .ready service => some (.ok service)
  | _ => none

end Startup

end ServiceDiscovery
