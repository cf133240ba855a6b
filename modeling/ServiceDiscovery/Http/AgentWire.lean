import ServiceDiscovery.Catalog.Wire
import ServiceDiscovery.Table
import ServiceDiscovery.Text.Split

/-!
# The agent's answers in JSON

How the answers of a registry agent are read: instances of a service, the agent's report about
itself, its services and the values of its key-value store.
-/

namespace ServiceDiscovery

open Json

/-- The instances of a health answer; null is no instances. -/
def healthEntries? (v : Value) : Option (List Entry) :=
  (v.orNull? Entry.listOfJson?).map fun entries => entries.getD []

namespace Agent

/-- The domain of an agent that reports none. -/
def defaultDomain : String := "consul"

/-- A domain as reported, without points at its end. -/
def domainOf (reported : String) : String :=
  if reported = "" then defaultDomain
  else String.ofList (Text.trimBack (· == '.') reported.toList)

/-- An agent's configuration read from JSON. -/
def ofConfigJson? (v : Value) : Option Agent := do
  let names := ["Domain", "Datacenter", "NodeName", "AdvertiseAddr", "BindAddr"]
  match (← v.asRecord? names).fields with
  | [domain, datacenter, nodeName, advertise, bind] =>
    let text (field : Option Value) : Option String := withDefault? "" Value.asText? field
    return ⟨domainOf (← text domain), ← text datacenter, ← text nodeName, ← text advertise,
      ← text bind⟩
  | _ => none

/-- An agent's report about itself, read from JSON. -/
def ofJson? (v : Value) : Option Agent := do
  match (← v.asRecord? ["Config"]).fields with
  | [config] => required? ofConfigJson? config
  | _ => none

end Agent

/-- The services of an agent by their keys, read from JSON; of members with one key the last counts.
-/
def AgentService.mapOfJson? : Value → Option (Table String AgentService)
  | .object members =>
    members.foldlM (fun t m => do return t.insert (← m.1) (← AgentService.ofJson? m.2)) .empty
  | _ => none

/-- The encoded value of one pair of the key-value store, read from JSON. In an object it may be
missing. -/
def pairValue? (v : Value) : Option (Option String) := do
  let r ← v.asRecord? ["Value"]
  match r.fields with
  | [some value] => value.orNull? Value.asText?
  | _ => if r.positional then none else some none

end ServiceDiscovery
