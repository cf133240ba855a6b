import ServiceDiscovery.Config.Environment
import ServiceDiscovery.Log.Filter

/-!
# Logging configuration

Level, form and details of the log, as set by the program or by the environment, and the filter that
follows from them.
-/

namespace ServiceDiscovery.Log

/-- The form of the log. -/
inductive Format
  /-- Several lines for an event. -/
  | pretty
  /-- One line for an event. -/
  | compact
  /-- A JSON object for an event. -/
  | json
  deriving DecidableEq, Repr

/-- The forms. -/
def Format.all : List Format := [.pretty, .compact, .json]

/-- The name of a form. -/
def Format.name : Format → String
  | .pretty => "pretty"
  | .compact => "compact"
  | .json => "json"

/-- The form that a name in any case stands for. -/
def Format.ofName? (s : String) : Option Format := Format.all.find? fun f => f.name == lowerCase s

/-- A logging configuration. -/
structure LogConfig where
  debug : Bool
  level : Level
  format : Format
  /-- Whether colors are used, which JSON never does. -/
  color : Bool
  /-- Whether an event's target is shown. -/
  showTarget : Bool
  deriving DecidableEq, Repr

namespace LogConfig

/-- JSON from the informational level on, with targets. -/
def standard : LogConfig := ⟨false, .info, .json, false, true⟩

/-- Whether a variable is set to a text that says yes. -/
def flag? (env : Environment) (name : String) : Option Bool :=
  (env.text? name).map fun v => v == "1" || lowerCase v == "true"

/-- The configuration that an environment asks for. Colors are used on a terminal unless something
speaks against them. -/
def ofEnvironment (env : Environment) : LogConfig :=
  let debug := (flag? env "BEACON_DEBUG").getD false
  { debug := debug
    level := ((env.text? "BEACON_LOG_LEVEL").bind Level.ofName?).getD
      (if debug then .debug else .info)
    format := ((env.text? "BEACON_LOG_FORMAT").bind Format.ofName?).getD .json
    color := (flag? env "BEACON_LOG_COLOR").getD
      ((env.text? "NO_COLOR").isNone && (env.text? "TERM").isSome)
    showTarget := (flag? env "BEACON_LOG_MODULE").getD true }

/-- The variable with a filter. -/
def filterVariable : String := "RUST_LOG"

/-- The filter of the environment if there is a valid one, and else that of the level. -/
def filter (env : Environment) (c : LogConfig) : Filter :=
  ((env.text? filterVariable).bind Filter.parse?).getD (.ofLevel c.level)

end LogConfig

end ServiceDiscovery.Log
