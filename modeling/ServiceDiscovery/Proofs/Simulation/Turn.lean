import ServiceDiscovery.Proofs.Service.Position
import ServiceDiscovery.Proofs.Simulation.Move
import ServiceDiscovery.Registry.Memory

/-!
# Turns

A service over a registry in memory, moved by the turns of its tasks, of callers, of those who
change the registry and of the clock. The turns come in any order, so a law of a turn is a law of
every schedule. `TurnTo` lists what a turn does to a world.
-/

namespace ServiceDiscovery

/-- Who moves a world next. -/
inductive Turn (ρ : Type)
  /-- A lookup or a watcher makes its move. -/
  | task (t : Task)
  /-- A shutdown goes on, or a caller does something. -/
  | outside (a : Action ρ) (h : a.task? = none)
  /-- The data of a change is written to the registry. -/
  | write (c : MemoryRegistry.Change)
  /-- The index of the registry is advanced. -/
  | bump
  /-- Time passes. -/
  | wait (millis : Nat)

namespace Turn

variable {ρ : Type}

/-- The step of a service that a turn is, where it is no other move. -/
def action? : Turn ρ → Option (Action ρ)
  | .task t => some t.action
  | .outside a _ => some a
  | .write _ | .bump | .wait _ => none

/-- The task whose turn it is. -/
def task? : Turn ρ → Option Task
  | .task t => some t
  | .outside _ _ | .write _ | .bump | .wait _ => none

end Turn

namespace World

variable {ρ : Type}

/-- The world after a turn; none if the turn is not possible. The index of the registry is not set
back, and not advanced beyond the largest one. -/
def turn? (w : World MemoryRegistry ρ) : Turn ρ → Option (World MemoryRegistry ρ)
  | .task (.lookup i) => w.service.lookups[i]?.bind (w.moveLookup i)
  | .task (.watcher j) => w.service.watchers[j]?.bind (w.moveWatcher j)
  | .outside a _ => w.act? a
  | .write c =>
    match w.registry.write c with
    | .ok r => if w.registry.index ≤ r.index then some { w with registry := r } else none
    | .error _ => none
  | .bump =>
    if w.registry.index ≤ w.registry.bump.index then some { w with registry := w.registry.bump }
    else none
  | .wait millis => some { w with now := w.now + millis }

/-- What a turn does to a world. -/
inductive TurnTo (w : World MemoryRegistry ρ) : Turn ρ → World MemoryRegistry ρ → Prop
  /-- The service does a step that the registry has no part in. -/
  | acted {turn : Turn ρ} {a : Action ρ} {s : Service ρ} {events : List (Event ρ)}
      {notes : List (Nat × Note ρ)} (ha : turn.action? = some a)
      (hs : w.service.step a = some (s, events)) :
      TurnTo w turn { w with service := s, notes := notes }
  /-- A lookup asks the registry. -/
  | lookupAsked {i : Nat} {key : Key} {notes : List (Nat × Note ρ)}
      (hl : w.service.lookups[i]? = some (.asking key)) (hq : w.lookupQueries.get? i = none) :
      TurnTo w (.task (.lookup i))
        { w with
          registry := (w.registry.query w.now (.immediate w.tag key)).2
          lookupQueries :=
            w.lookupQueries.insert i (w.registry.query w.now (.immediate w.tag key)).1
          notes := notes }
  /-- The registry answers a lookup. -/
  | lookupAnswered {i : Nat} {p : Pending} {result : Except Failure Answer} {s : Service ρ}
      {events : List (Event ρ)} {notes : List (Nat × Note ρ)}
      (hq : w.lookupQueries.get? i = some p)
      (ha : w.registry.answer? w.now p = some result)
      (hs : w.service.step (.answerLookup i result) = some (s, events)) :
      TurnTo w (.task (.lookup i))
        { w with service := s, lookupQueries := w.lookupQueries.erase i, notes := notes }
  /-- A watcher asks the registry. -/
  | watcherAsked {j : Nat} {key : Key} {cursor : Cursor} {notes : List (Nat × Note ρ)}
      (hw : w.service.watchers[j]? = some ⟨key, .asking cursor⟩)
      (hq : w.watchQueries.get? j = none) :
      TurnTo w (.task (.watcher j))
        { w with
          registry := (w.registry.query w.now
            (.blocking w.tag key cursor.waitIndex w.service.watch.waitTime)).2
          watchQueries := w.watchQueries.insert j (w.registry.query w.now
            (.blocking w.tag key cursor.waitIndex w.service.watch.waitTime)).1
          notes := notes }
  /-- The registry answers a watcher. -/
  | watcherAnswered {j : Nat} {p : Pending} {result : Except Failure Answer} {s : Service ρ}
      {events : List (Event ρ)} {notes : List (Nat × Note ρ)}
      (hq : w.watchQueries.get? j = some p)
      (ha : w.registry.answer? w.now p = some result)
      (hs : w.service.step (.answerWatcher j result) = some (s, events)) :
      TurnTo w (.task (.watcher j))
        { w with service := s, watchQueries := w.watchQueries.erase j, notes := notes }
  /-- The registry breaks down under a watcher's query. -/
  | watcherCrashed {j : Nat} {s : Service ρ} {events : List (Event ρ)}
      {notes : List (Nat × Note ρ)} (hq : w.watchQueries.get? j = some .broken)
      (hs : w.service.step (.crash j) = some (s, events)) :
      TurnTo w (.task (.watcher j)) { w with service := s, notes := notes }
  /-- A watcher whose query is out notices the cancellation. -/
  | watcherRecalled {j : Nat} {s : Service ρ} {events : List (Event ρ)}
      {notes : List (Nat × Note ρ)} (hs : w.service.step (.cancel j) = some (s, events)) :
      TurnTo w (.task (.watcher j))
        { w with service := s, watchQueries := w.watchQueries.erase j, notes := notes }
  /-- A watcher that pauses notices the cancellation. -/
  | watcherRoused {j : Nat} {key : Key} {cursor : Cursor} {s : Service ρ}
      {events : List (Event ρ)} {notes : List (Nat × Note ρ)}
      (hw : w.service.watchers[j]? = some ⟨key, .pausing cursor⟩)
      (hs : w.service.step (.cancel j) = some (s, events)) :
      TurnTo w (.task (.watcher j))
        { w with service := s, pauses := w.pauses.erase j, notes := notes }
  /-- A watcher's pause begins. -/
  | pauseBegun {j : Nat} {key : Key} {cursor : Cursor} {time : Nat}
      (hw : w.service.watchers[j]? = some ⟨key, .pausing cursor⟩)
      (hp : w.pauses.get? j = none) :
      TurnTo w (.task (.watcher j)) { w with pauses := w.pauses.insert j time }
  /-- A watcher's pause is over. -/
  | pauseEnded {j : Nat} {s : Service ρ} {events : List (Event ρ)}
      {notes : List (Nat × Note ρ)} (hs : w.service.step (.resume j) = some (s, events)) :
      TurnTo w (.task (.watcher j))
        { w with service := s, pauses := w.pauses.erase j, notes := notes }
  /-- The registry is changed, and its index not set back. -/
  | wrote {c : MemoryRegistry.Change} {r : MemoryRegistry} (hr : w.registry.write c = .ok r)
      (hi : w.registry.index ≤ r.index) : TurnTo w (.write c) { w with registry := r }
  /-- The index of the registry is advanced, and does not start again at zero. -/
  | bumped (hi : w.registry.index ≤ w.registry.bump.index) :
      TurnTo w .bump { w with registry := w.registry.bump }
  /-- Time passes. -/
  | waited (millis : Nat) : TurnTo w (.wait millis) { w with now := w.now + millis }

private theorem turnTo_of_lookupMove {w w' : World MemoryRegistry ρ} {i : Nat}
    (h : LookupMove w i w') : TurnTo w (.task (.lookup i)) w' := by
  cases h with
  | acted hs => exact .acted rfl hs
  | asked hl hq => exact .lookupAsked hl hq
  | answered hq ha hs => exact .lookupAnswered hq ha hs

private theorem turnTo_of_watcherMove {w w' : World MemoryRegistry ρ} {j : Nat}
    (h : WatcherMove w j w') : TurnTo w (.task (.watcher j)) w' := by
  cases h with
  | acted hs _ => exact .acted rfl hs
  | asked hw _ hq => exact .watcherAsked hw hq
  | answered _ _ hq ha hs _ => exact .watcherAnswered hq ha hs
  | broke _ _ hq hs _ => exact .watcherCrashed hq hs
  | recalled _ _ hs _ => exact .watcherRecalled hs
  | roused hw _ hs _ => exact .watcherRoused hw hs
  | pauseBegun hw _ hp => exact .pauseBegun hw hp
  | pauseEnded _ _ _ _ hs _ => exact .pauseEnded hs

/-- Every turn does one of these things. -/
theorem turnTo_of_turn? {w w' : World MemoryRegistry ρ} {turn : Turn ρ}
    (h : w.turn? turn = some w') : TurnTo w turn w' := by
  cases turn with
  | task t =>
    cases t with
    | lookup i =>
      obtain ⟨l, hl, h⟩ := Option.bind_eq_some_iff.1 h
      exact turnTo_of_lookupMove (lookupMove_of_moveLookup hl h)
    | watcher j =>
      obtain ⟨watcher, hw, h⟩ := Option.bind_eq_some_iff.1 h
      exact turnTo_of_watcherMove (watcherMove_of_moveWatcher hw h)
  | outside a ha =>
    obtain ⟨s, events, notes, hs, -, rfl⟩ := step_of_act? h
    exact .acted rfl hs
  | write c =>
    simp only [turn?] at h
    split at h
    · next r hr =>
      split at h
      · next hi =>
        cases h
        exact .wrote hr hi
      · cases h
    · cases h
  | bump =>
    simp only [turn?] at h
    split at h
    · next hi =>
      cases h
      exact .bumped hi
    · cases h
  | wait millis =>
    cases h
    exact .waited millis

end World

end ServiceDiscovery
