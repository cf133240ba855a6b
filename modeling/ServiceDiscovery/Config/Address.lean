import ServiceDiscovery.Text.Decimal
import ServiceDiscovery.Text.Split

/-!
# Agent addresses

The address of a registry agent is a `host:port` pair, a full URL, or a hyphen, which stands for the
registry of fixed test services. A bare host is given the usual port of an agent.
-/

namespace ServiceDiscovery.Address

/-- The address that stands for the registry of fixed test services. -/
def testMode : String := "-"

/-- The usual port of an agent. -/
def defaultPort : Nat := 8500

/-- The address of an agent on this machine. -/
def standard : String := "127.0.0.1:8500"

/-- Whether an address is a full URL. -/
def isUrl (address : String) : Bool := (Text.splitFirst? [':', '/', '/'] address.toList).isSome

/-- Whether an address ends in a port: after its last colon stands a port number, and before it no
other colon unless a bracket closes there. -/
def hasPort (address : String) : Bool :=
  match Text.splitLast? [':'] address.toList with
  | some (host, port) =>
    (Decimal.read? 65536 port).isSome && (!host.contains ':' || host.getLast? == some ']')
  | none => false

/-- The address with the usual port if it is a bare host. -/
def normalize (address : String) : String :=
  if address = testMode ∨ isUrl address ∨ hasPort address then address
  else address ++ ":" ++ Decimal.text defaultPort

end ServiceDiscovery.Address
