import ServiceDiscovery.Http.AgentClient
import ServiceDiscovery.Registry.Memory
import ServiceDiscovery.Service.Basic

/-!
# Connecting

What a configuration connects to: in test mode the fixed services of a registry in memory, with the
standard policies, and else an agent behind HTTP.
-/

namespace ServiceDiscovery

/-- The registry that a configuration connects to. -/
inductive Connection
  /-- The registry of the fixed test services. -/
  | testMode (registry : MemoryRegistry)
  /-- An agent behind HTTP. -/
  | agent (client : AgentClient)

namespace Connection

/-- What a configuration connects to. -/
def ofConfig [Url.Idna] (c : Config) : Except Failure Connection :=
  if c.isTestMode then .ok (.testMode .fixtures) else (AgentClient.ofConfig c).map .agent

/-- The configuration of a service in test mode. -/
def testConfig : Config := .ofAddress Address.testMode

/-- The service in test mode. -/
def testService {ρ : Type} : Service ρ :=
  .start MemoryRegistry.address MemoryRegistry.fixtureAgent testConfig.watch

end Connection

end ServiceDiscovery
