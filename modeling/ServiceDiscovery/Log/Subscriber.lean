import ServiceDiscovery.Log.Config

/-!
# The log subscriber

One subscriber is installed for the whole program, by the first attempt; later attempts change
nothing. It writes the events that its filter lets through.
-/

namespace ServiceDiscovery.Log

/-- What is written for events of one target. -/
structure Output where
  /-- The levels that are written, the most important first. -/
  levels : List Level
  /-- The form; none if nothing is written. -/
  format : Option Format
  /-- Whether the target is shown. -/
  showsTarget : Bool
  /-- Whether colors are used. -/
  colored : Bool
  deriving DecidableEq, Repr

/-- The subscriber of a configuration, if one is installed. -/
structure Subscriber where
  filter : Filter
  config : LogConfig

/-- Installs the subscriber of a configuration; first whether it was the first one. -/
def install (env : Environment) (c : LogConfig) (installed : Option Subscriber) :
    Bool × Option Subscriber :=
  match installed with
  | some s => (false, some s)
  | none => (true, some ⟨c.filter env, c⟩)

/-- The levels of events, the most important first. -/
def eventLevels : List Level := [.error, .warn, .info, .debug, .trace]

/-- What a subscriber writes for events of a target, one of each level. -/
def Subscriber.write (target : String) (s : Subscriber) : Output :=
  let levels := eventLevels.filter (s.filter.allows target)
  if levels.isEmpty then ⟨[], none, false, false⟩
  else
    ⟨levels, some s.config.format, s.config.showTarget,
      s.config.color && s.config.format != .json⟩

end ServiceDiscovery.Log
