import ServiceDiscovery.Config.Basic
import ServiceDiscovery.Failure
import ServiceDiscovery.Text.Blank
import ServiceDiscovery.Text.Utf8

/-!
# Configuration from the environment

The variables that start with `BEACON_`. A variable whose value is no text counts as not set; a
number may stand between blanks.
-/

namespace ServiceDiscovery

/-- The environment: for each variable its bytes, if it is set. -/
abbrev Environment := String → Option (List UInt8)

namespace Environment

/-- The text of a variable. -/
def text? (env : Environment) (name : String) : Option String :=
  ((env name).bind Utf8.decode?).map String.ofList

/-- The text of a variable, if there is any. -/
def nonempty? (env : Environment) (name : String) : Option String :=
  (env.text? name).filter (· ≠ "")

/-- The number below a bound that a variable holds. -/
def number? (env : Environment) (bound : Nat) (name : String) : Except Failure (Option Nat) :=
  match env.text? name with
  | none => .ok none
  | some raw =>
    match Decimal.read? bound (Text.trimBlank raw).toList with
    | some n => .ok (some n)
    | none => .error (.invalidConfiguration (name ++ " is not a valid value: " ++ raw))

end Environment

namespace Config

/-- The names of a list with commas, without blanks around them and without empty names. -/
def serviceNames (s : String) : List String :=
  ((Text.fields ',' s.toList).map fun f => Text.trimBlank (String.ofList f)).filter (· ≠ "")

/-- The watch policy that an environment asks for. -/
def watchOfEnvironment (env : Environment) : Except Failure WatchConfig := do
  let ceiling ← env.number? UInt32.size "BEACON_RETRY_CEILING"
  let delay ← env.number? UInt64.size "BEACON_RETRY_DELAY_SECS"
  let wait ← env.number? UInt64.size "BEACON_WAIT_TIME_SECS"
  let c := WatchConfig.standard
  let c := (ceiling.map fun n => c.withRetryCeiling (UInt32.ofNat n)).getD c
  let c := (delay.map fun n => c.withRetryDelay (.ofSeconds (UInt64.ofNat n))).getD c
  return (wait.map fun n => c.withWaitTime (.ofSeconds (UInt64.ofNat n))).getD c

/-- The configuration that an environment asks for. -/
def ofEnvironment (env : Environment) : Except Failure Config := do
  let watch ← watchOfEnvironment env
  return { standard with
    address := ((env.nonempty? "BEACON_CONSUL").map Address.normalize).getD standard.address
    waitServices := ((env.text? "BEACON_WAIT_SERVICES").map serviceNames).getD []
    tag := env.nonempty? "BEACON_TAG"
    watch := watch }

end Config

end ServiceDiscovery
