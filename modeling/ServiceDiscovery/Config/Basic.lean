import ServiceDiscovery.Balancer
import ServiceDiscovery.Config.Address
import ServiceDiscovery.Retry
import ServiceDiscovery.Text.Split
import ServiceDiscovery.Url.Parser

/-!
# Configuration

How a registry is reached, how its services are watched and how an endpoint is chosen.
-/

namespace ServiceDiscovery

/-- How a watched service is kept up to date. -/
structure WatchConfig where
  /-- The failures in a row after which a watcher gives up. -/
  retryCeiling : UInt32
  /-- The pause between a failed query and the next one. -/
  retryDelay : Duration
  /-- How long the registry may hold a query. -/
  waitTime : Duration
  deriving DecidableEq

namespace WatchConfig

/-- Ten failures half a minute apart, and queries of ten minutes. -/
def standard : WatchConfig := ⟨10, .ofSeconds 30, .ofSeconds 600⟩

/-- The policy with a retry ceiling, which is one at least. -/
def withRetryCeiling (c : WatchConfig) (ceiling : UInt32) : WatchConfig :=
  { c with retryCeiling := if ceiling = 0 then 1 else ceiling }

/-- The policy with a pause after a failure. -/
def withRetryDelay (c : WatchConfig) (delay : Duration) : WatchConfig :=
  { c with retryDelay := delay }

/-- The policy with a time that a query may be held. -/
def withWaitTime (c : WatchConfig) (wait : Duration) : WatchConfig := { c with waitTime := wait }

end WatchConfig

/-- How services are discovered. -/
structure Config where
  /-- The address of the registry agent. -/
  address : String
  /-- The services that must resolve before a start is complete. -/
  waitServices : List String
  /-- The tag that instances must carry, if any. -/
  tag : Option String
  /-- The time that an immediate request may take. -/
  requestTimeout : Duration
  watch : WatchConfig
  /-- How often and how fast the start is retried. -/
  connectRetry : RetryPolicy
  strategy : Strategy

namespace Config

/-- An agent on this machine, nothing to wait for and no tag. -/
def standard : Config :=
  ⟨Address.standard, [], none, .ofSeconds 10, .standard, .standard, .random⟩

/-- The standard configuration for an agent at an address. -/
def ofAddress (address : String) : Config := { standard with address := Address.normalize address }

/-- Whether the fixed test services are asked for. -/
def isTestMode (c : Config) : Bool := c.address == Address.testMode

/-- A text without the slashes at its end. -/
def trimSlashes (s : String) : String := String.ofList (Text.trimBack (· == '/') s.toList)

/-- Whether a text starts like an HTTP URL. -/
def startsLikeHttp (s : String) : Bool :=
  (Text.dropFront? "http://".toList s.toList).isSome ||
    (Text.dropFront? "https://".toList s.toList).isSome

/-- The URL that requests to the agent start with. -/
def baseUrl (c : Config) : String :=
  if startsLikeHttp c.address then trimSlashes c.address else "http://" ++ c.address

/-- The host where services live that the agent lists without an address. -/
def localHost : String := "127.0.0.1"

/-- The host of the agent. -/
def agentHost [Url.Idna] (c : Config) : String :=
  if c.isTestMode then localHost
  else
    match Url.parse c.baseUrl with
    | .ok url => url.bareHost?.getD localHost
    | .error _ => localHost

end Config

end ServiceDiscovery
