import ServiceDiscovery.Registry.Memory
import ServiceDiscovery.Service.Choice
import ServiceDiscovery.Service.HostTemplate
import ServiceDiscovery.Simulation.World

/-!
# Sessions

A service over a registry in memory, on a virtual clock, as its callers use it: each call runs until
it returns. A call that never returns gives none.
-/

namespace ServiceDiscovery

/-- A service with what it needs to answer its callers. -/
structure Session (ρ : Type) where
  world : World MemoryRegistry ρ
  balancer : Balancer
  /-- The host of services that the agent lists without an address. -/
  agentHost : String

namespace Session

variable {ρ : Type}

/-- A service over a registry in memory, under a configuration. -/
def start [Url.Idna] (registry : MemoryRegistry) (service : Service ρ) (c : Config) : Session ρ :=
  ⟨.start registry c.tag service, .ofStrategy c.strategy, c.agentHost⟩

/-- The session with its world changed. -/
def onWorld (f : World MemoryRegistry ρ → World MemoryRegistry ρ) (s : Session ρ) : Session ρ :=
  { s with world := f s.world }

/-- The session with its registry replaced. -/
def withRegistry (s : Session ρ) (registry : MemoryRegistry) : Session ρ :=
  s.onWorld fun w => { w with registry := registry }

/-- All healthy endpoints of a name. -/
def resolve (name : String) (s : Session ρ) : Option (Except Failure EndpointSet) × Session ρ :=
  let (result, world) := s.world.resolve name
  (result, { s with world := world })

/-- One healthy endpoint of a name. -/
def resolveOne (name : String) (s : Session ρ) : Option (Except Failure Endpoint) × Session ρ :=
  match s.resolve name with
  | (none, s) => (none, s)
  | (some result, s) =>
    let (e, b) := Choice.oneOf MemoryRegistry.address name 0 result s.balancer
    (some e, { s with balancer := b })

/-- All healthy endpoints of a name as one text. -/
def connectionText (name : String) (s : Session ρ) : Option (Except Failure String) × Session ρ :=
  let (result, s) := s.resolve name
  (result.map Choice.connectionText, s)

/-- The text with an endpoint that its host resolves to in the host's place. -/
def fillHost [Url.Idna] (text : String) (s : Session ρ) : Option String × Session ρ :=
  match HostTemplate.discoverable? text s.world.service.agent.domain with
  | none => (some text, s)
  | some template =>
    let (e, s) := s.resolveOne template.host
    (e.map (HostTemplate.filled text template), s)

/-- A value of the registry's key-value store. -/
def value (key : String) (s : Session ρ) : Except Failure (List UInt8) × Session ρ :=
  let (result, registry) := s.world.registry.value key
  (result, s.withRegistry registry)

/-- The endpoint of a service on the local agent. -/
def agentService (name : String) (s : Session ρ) : Except Failure Endpoint × Session ρ :=
  let (services, registry) := s.world.registry.listAgentServices
  (services.bind fun rows =>
      Choice.onAgent MemoryRegistry.address s.agentHost name (rows.map Prod.snd),
    s.withRegistry registry)

end Session

end ServiceDiscovery
