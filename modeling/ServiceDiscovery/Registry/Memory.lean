import ServiceDiscovery.Registry.Basic
import ServiceDiscovery.Table

/-!
# The registry in memory

Services by name and datacenter, the agent with its services, and a key-value store. Every change of
services or values first writes the data and then advances the index, which lets the queries go that
are held for it. The index is counted in a machine word, and after the largest one it starts again
at zero. Failures can be asked for. The registry serves tests and the test mode.
-/

namespace ServiceDiscovery

/-- A registry in memory. -/
structure MemoryRegistry where
  services : Table (String × Option String) (List Entry)
  agent : Agent
  agentServices : Table String AgentService
  values : Table String (List UInt8)
  /-- The index, as it is counted. -/
  counter : UInt64
  available : Bool
  /-- How many of the next requests fail. -/
  failures : Nat
  immediateQueries : Nat
  blockingQueries : Nat

namespace MemoryRegistry

/-- A change of the registry. -/
inductive Change
  /-- The instances of a service in a datacenter are replaced. -/
  | setService (name : String) (datacenter : Option String) (entries : List Entry)
  /-- An instance is added to its service. -/
  | register (entry : Entry)
  /-- All instances of a service are removed. -/
  | deregister (name : String)
  /-- A value of the key-value store is set. -/
  | putValue (key : String) (value : List UInt8)
  /-- A service of the agent is set. -/
  | registerAgentService (service : AgentService)
  /-- What the agent reports about itself is set. -/
  | setAgent (agent : Agent)
  /-- The index is set. -/
  | setIndex (index : UInt64)
  /-- All requests fail from now on, or do not any more. -/
  | setAvailable (available : Bool)
  /-- A number of the next requests fail. -/
  | failNext (count : Nat)

/-- A registry without services, at index one. -/
def empty : MemoryRegistry := ⟨.empty, default, .empty, .empty, 1, true, 0, 0, 0⟩

/-- The registry's address. -/
def address : String := "memory"

/-- The index of the registry. -/
def index (r : MemoryRegistry) : Nat := r.counter.toNat

/-- The registry with its index advanced. -/
def bump (r : MemoryRegistry) : MemoryRegistry := { r with counter := r.counter + 1 }

/-- After the largest index comes zero. -/
theorem index_bump (r : MemoryRegistry) : r.bump.index = (r.index + 1) % UInt64.size :=
  UInt64.toNat_add r.counter 1

/-- Advancing the index moves it. -/
theorem index_bump_ne (r : MemoryRegistry) : r.bump.index ≠ r.index := by
  have hlt : r.index < UInt64.size := r.counter.toNat_lt
  rw [index_bump]
  simp only [UInt64.size] at *
  omega

/-- Whether a change advances the index. -/
def Change.bumps : Change → Bool
  | .setService _ _ _ | .register _ | .deregister _ | .putValue _ _ => true
  | _ => false

/-- The instances of a service in a datacenter. -/
def entries (r : MemoryRegistry) (name : String) (datacenter : Option String) : List Entry :=
  (r.services.get? (name, datacenter)).getD []

/-- The registry with the data of a change written and the index not yet advanced. -/
def write (r : MemoryRegistry) : Change → Except Failure MemoryRegistry
  | .setService name datacenter entries =>
    .ok { r with services := r.services.insert (name, datacenter) entries }
  | .register entry =>
    let name := entry.service.name
    .ok { r with services := r.services.insert (name, none) (r.entries name none ++ [entry]) }
  | .deregister name =>
    match r.services.get? (name, none) with
    | some _ => .ok { r with services := r.services.erase (name, none) }
    | none => .error (.notFound name address)
  | .putValue key value => .ok { r with values := r.values.insert key value }
  | .registerAgentService service =>
    .ok { r with agentServices := r.agentServices.insert service.id service }
  | .setAgent agent => .ok { r with agent := agent }
  | .setIndex index => .ok { r with counter := index }
  | .setAvailable available => .ok { r with available := available }
  | .failNext count => .ok { r with failures := count }

/-- The registry after a whole change. -/
def apply (c : Change) (r : MemoryRegistry) : Except Failure MemoryRegistry :=
  (r.write c).map fun r => if c.bumps then r.bump else r

/-- The registry after a change; one that is refused changes nothing. -/
def applied (c : Change) (r : MemoryRegistry) : MemoryRegistry :=
  match r.apply c with
  | .ok r => r
  | .error _ => r

/-- A change and what becomes of it. -/
def change (c : Change) (r : MemoryRegistry) : Except Failure Unit × MemoryRegistry :=
  ((r.apply c).map fun _ => (), r.applied c)

/-- Whether a request is let through, and the registry after it: a failure that was asked for is
used up. -/
def letThrough (r : MemoryRegistry) : Except Failure Unit × MemoryRegistry :=
  if !r.available then (.error (.registryUnavailable "registry marked unavailable"), r)
  else if r.failures = 0 then (.ok (), r)
  else (.error (.registryUnavailable "injected failure"), { r with failures := r.failures - 1 })

/-- The instances that a query asks for, with the index; both are read in one step. -/
def snapshot (r : MemoryRegistry) (q : HealthQuery) : Answer :=
  ⟨(r.entries q.service q.options.datacenter).filter (Entry.matchesTag q.tag), r.index⟩

/-- How long a query is held that does not say so. -/
def defaultWait : Duration := .ofSeconds 300

/-- The registry with a query counted. -/
def count (q : HealthQuery) (r : MemoryRegistry) : MemoryRegistry :=
  match q.options.waitIndex with
  | some _ => { r with blockingQueries := r.blockingQueries + 1 }
  | none => { r with immediateQueries := r.immediateQueries + 1 }

/-- The registry takes on a health query: one that is not let through fails at once, one that waits
for no index is answered at once. -/
def query (now : Nat) (q : HealthQuery) (r : MemoryRegistry) : Pending × MemoryRegistry :=
  let (allowed, r) := (r.count q).letThrough
  match allowed, q.options.waitIndex with
  | .error f, _ => (.given now (.error f), r)
  | .ok _, none => (.given now (.ok (r.snapshot q)), r)
  | .ok _, some index =>
    (.blocked q index (now + (q.options.waitTime.getD defaultWait).toMillisUp), r)

/-- The answer to a pending query, if it is due. A held query whose wait is over reports the present
state. -/
def answer? (now : Nat) (p : Pending) (r : MemoryRegistry) : Option (Except Failure Answer) :=
  match p with
  | .given time answer => if time ≤ now then some answer else none
  | .blocked q index deadline =>
    if index < r.index ∨ deadline ≤ now then some (.ok (r.snapshot q)) else none
  | .held | .broken => none

/-- A request for something that is read at once. -/
def request {α : Type} (read : MemoryRegistry → Except Failure α) (r : MemoryRegistry) :
    Except Failure α × MemoryRegistry :=
  let (allowed, r) := r.letThrough
  (allowed.bind fun _ => read r, r)

/-- What the agent reports about itself. -/
def agentSelf : MemoryRegistry → Except Failure Agent × MemoryRegistry :=
  request fun r => .ok r.agent

/-- The services of the agent by their identifiers. -/
def listAgentServices :
    MemoryRegistry → Except Failure (List (String × AgentService)) × MemoryRegistry :=
  request fun r => .ok r.agentServices.rows

/-- A value of the key-value store. -/
def value (key : String) : MemoryRegistry → Except Failure (List UInt8) × MemoryRegistry :=
  request fun r =>
    match r.values.get? key with
    | some value => .ok value
    | none => .error (.keyNotFound key)

instance : Registry MemoryRegistry where
  address _ := address
  query := query
  answer? := answer?
  inspect now r :=
    let (result, r) := r.agentSelf
    ((now, result), r)

/-- The agent of the test mode. -/
def fixtureAgent : Agent := ⟨"sd", "dev", "node01", "127.0.0.1", "127.0.0.1"⟩

/-- The services of the test mode. -/
def fixtureServices : List (String × List (String × UInt16)) := [
  ("test1", [("127.0.0.1", 12345), ("127.0.0.1", 12348)]),
  ("test2", [("10.11.12.13", 1415)]),
  ("test3", [("192.168.0.1", 12345), ("10.0.13.0", 12347)]),
  ("syslog", [("127.0.0.1", 9514)]),
  ("statsd", [("127.0.0.1", 8125)]),
  ("mongo", [("127.0.0.1", 27017), ("192.168.10.123", 27017)])]

/-- The registry of the test mode. -/
def fixtures : MemoryRegistry :=
  fixtureServices.foldl
    (fun r s => r.applied (.setService s.1 none (s.2.map fun e => .ofAddress s.1 e.1 e.2)))
    (empty.applied (.setAgent fixtureAgent))

end MemoryRegistry

end ServiceDiscovery
