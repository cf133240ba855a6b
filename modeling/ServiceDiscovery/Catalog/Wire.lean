import ServiceDiscovery.Catalog.Entry
import ServiceDiscovery.Json.Decoder

/-!
# Catalog values in JSON

How endpoints, checks, instances and agent data are written in JSON and read back. Fields that may
be missing stand for the empty text or the empty list; the port, the status, the node and the
service must be there.
-/

namespace ServiceDiscovery

open Json

/-- The texts of a list. -/
def Json.Value.texts (l : List String) : Value := .array (l.map Value.text)

/-- A port in JSON. -/
def portValue (port : UInt16) : Value := .natural port.toNat

/-- A port read from JSON. -/
def asPort? (v : Value) : Option UInt16 := (v.asNatural? UInt16.size).map UInt16.ofNat

namespace Endpoint

/-- An endpoint in JSON. -/
def toJson (e : Endpoint) : Value := .record [("host", .text e.host), ("port", portValue e.port)]

/-- An endpoint read from JSON. -/
def ofJson? (v : Value) : Option Endpoint := do
  match (← v.asRecord? ["host", "port"]).fields with
  | [host, port] => return ⟨← required? Value.asText? host, ← required? asPort? port⟩
  | _ => none

end Endpoint

namespace EndpointSet

/-- A set of endpoints in JSON. -/
def toJson (s : EndpointSet) : Value :=
  .record [("endpoints", .array (s.toList.map Endpoint.toJson))]

/-- A set of endpoints read from JSON, in any order and with repeats. -/
def ofJson? (v : Value) : Option EndpointSet := do
  match (← v.asRecord? ["endpoints"]).fields with
  | [endpoints] => return .ofList (← required? (Value.asList? Endpoint.ofJson?) endpoints)
  | _ => none

end EndpointSet

namespace HealthCheck

/-- A check in JSON. -/
def toJson (c : HealthCheck) : Value :=
  .record [("CheckID", .text c.id), ("Status", .text c.status)]

/-- A check read from JSON. -/
def ofJson? (v : Value) : Option HealthCheck := do
  match (← v.asRecord? ["CheckID", "Status"]).fields with
  | [id, status] =>
    return ⟨← withDefault? "" Value.asText? id, ← required? Value.asText? status⟩
  | _ => none

end HealthCheck

namespace Node

/-- A node in JSON. -/
def toJson (n : Node) : Value := .record [("Node", .text n.name), ("Address", .text n.address)]

/-- A node read from JSON. -/
def ofJson? (v : Value) : Option Node := do
  match (← v.asRecord? ["Node", "Address"]).fields with
  | [name, address] =>
    return ⟨← withDefault? "" Value.asText? name, ← withDefault? "" Value.asText? address⟩
  | _ => none

end Node

namespace Instance

/-- A service in JSON; absent tags are null. -/
def toJson (s : Instance) : Value :=
  .record [("Service", .text s.name), ("Address", .text s.address), ("Port", portValue s.port),
    ("Tags", (s.tags.map Value.texts).getD .null)]

/-- A service read from JSON. -/
def ofJson? (v : Value) : Option Instance := do
  match (← v.asRecord? ["Service", "Address", "Port", "Tags"]).fields with
  | [name, address, port, tags] =>
    return ⟨← withDefault? "" Value.asText? name, ← withDefault? "" Value.asText? address,
      ← required? asPort? port,
      ← withDefault? none (Value.orNull? (Value.asList? Value.asText?)) tags⟩
  | _ => none

end Instance

namespace Entry

/-- An instance in JSON. -/
def toJson (e : Entry) : Value :=
  .record [("Node", e.node.toJson), ("Service", e.service.toJson),
    ("Checks", .array (e.checks.map HealthCheck.toJson))]

/-- An instance read from JSON. -/
def ofJson? (v : Value) : Option Entry := do
  match (← v.asRecord? ["Node", "Service", "Checks"]).fields with
  | [node, service, checks] =>
    return ⟨← required? Node.ofJson? node, ← required? Instance.ofJson? service,
      ← withDefault? [] (Value.asList? HealthCheck.ofJson?) checks⟩
  | _ => none

/-- A list of instances read from JSON. -/
def listOfJson? : Value → Option (List Entry) := Value.asList? Entry.ofJson?

end Entry

namespace AgentService

/-- An agent's service in JSON. -/
def toJson (s : AgentService) : Value :=
  .record [("ID", .text s.id), ("Service", .text s.service), ("Address", .text s.address),
    ("Port", portValue s.port)]

/-- An agent's service read from JSON. -/
def ofJson? (v : Value) : Option AgentService := do
  match (← v.asRecord? ["ID", "Service", "Address", "Port"]).fields with
  | [id, service, address, port] =>
    return ⟨← withDefault? "" Value.asText? id, ← required? Value.asText? service,
      ← withDefault? "" Value.asText? address, ← required? asPort? port⟩
  | _ => none

end AgentService

end ServiceDiscovery
