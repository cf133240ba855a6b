import ServiceDiscovery.Proofs.Subscription.Delivery
import ServiceDiscovery.Service.Basic

/-!
# The transitions of a service

`Transition` lists when an action is possible and what the service is after it, one case for each
thing that a task or a caller can do. Every step is one of these transitions, so a law that holds of
each of them holds of every interleaving. `Reached` is the set of services that steps lead to from a
start, as long as the registry does not break down under a query.
-/

namespace ServiceDiscovery

namespace Service

variable {ρ : Type}

/-- What an action does to a service. -/
inductive Transition (s : Service ρ) : Action ρ → Service ρ → List (Event ρ) → Prop
  /-- A lookup is called. -/
  | called (name : String) :
      Transition s (.resolve name) { s with lookups := s.lookups ++ [.arriving name] } []
  /-- A lookup that comes after the cancellation is refused. -/
  | refused {i : Nat} {name : String} (hl : s.lookups[i]? = some (.arriving name))
      (hc : s.cancelled = true) :
      Transition s (.lookup i) (s.setLookup i (.finished (.error .shuttingDown))) []
  /-- A lookup goes on to read the cache. -/
  | admitted {i : Nat} {name : String} (hl : s.lookups[i]? = some (.arriving name))
      (hc : s.cancelled = false) :
      Transition s (.lookup i) (s.setLookup i (.reading (s.key name))) []
  /-- A lookup returns the cached set. -/
  | served {i : Nat} {key : Key} {set : EndpointSet} (hl : s.lookups[i]? = some (.reading key))
      (hs : s.cache.get? key = some set) (hne : set.isEmpty = false) :
      Transition s (.lookup i) (s.setLookup i (.finished (.ok set))) []
  /-- A lookup finds no endpoint in the cache and asks the registry. -/
  | missed {i : Nat} {key : Key} (hl : s.lookups[i]? = some (.reading key))
      (hs : (s.cache.get? key).filter (fun set => !set.isEmpty) = none) :
      Transition s (.lookup i) (s.setLookup i (.asking key)) []
  /-- A lookup's query ends with endpoints. -/
  | found {i : Nat} {key : Key} {result : Except Failure Answer} {set : EndpointSet} {index : Nat}
      (hl : s.lookups[i]? = some (.asking key))
      (hr : key.found s.registry result = .ok (set, index)) :
      Transition s (.answerLookup i result) (s.setLookup i (.seeding key set index)) []
  /-- A lookup's query fails, or shows no healthy instance. -/
  | failed {i : Nat} {key : Key} {result : Except Failure Answer} {f : Failure}
      (hl : s.lookups[i]? = some (.asking key)) (hr : key.found s.registry result = .error f) :
      Transition s (.answerLookup i result) (s.setLookup i (.finished (.error f))) []
  /-- A lookup stores what it has found and claims the key in the same step. -/
  | seeded {i : Nat} {key : Key} {set : EndpointSet} {index : Nat}
      (hl : s.lookups[i]? = some (.seeding key set index)) :
      Transition s (.lookup i)
        ({ s with cache := (s.cache.seed key set).2.2 }.setLookup i
          (.notifying key set index (!s.cache.isWatched key)
            (.ofNotification (s.cache.seed key set).2.1))) []
  /-- A handler that a lookup calls does an operation. -/
  | told {i : Nat} {key : Key} {set : EndpointSet} {index : Nat} {claimed : Bool}
      {d : Delivery false ρ} {o : Delivery.Outcome false ρ}
      (hl : s.lookups[i]? = some (.notifying key set index claimed d))
      (ho : d.step s.cache = some o) :
      Transition s (.lookup i)
        ({ s with cache := o.cache }.setLookup i (.notifying key set index claimed o.rest)) o.events
  /-- The lookup that won the claim goes on to start the watcher. -/
  | won {i : Nat} {key : Key} {set : EndpointSet} {index : Nat}
      (hl : s.lookups[i]? = some (.notifying key set index true [])) :
      Transition s (.lookup i) (s.setLookup i (.spawning key set index)) []
  /-- A lookup that did not win the claim returns. -/
  | lost {i : Nat} {key : Key} {set : EndpointSet} {index : Nat}
      (hl : s.lookups[i]? = some (.notifying key set index false [])) :
      Transition s (.lookup i) (s.setLookup i (.finished (.ok set))) []
  /-- A cancellation has come in between, and the lookup gives the claim back. -/
  | withdrawn {i : Nat} {key : Key} {set : EndpointSet} {index : Nat}
      (hl : s.lookups[i]? = some (.spawning key set index)) (hc : s.cancelled = true) :
      Transition s (.lookup i)
        ({ s with cache := s.cache.release key }.setLookup i (.finished (.error .shuttingDown))) []
  /-- A lookup starts the watcher and returns. -/
  | spawned {i : Nat} {key : Key} {set : EndpointSet} {index : Nat}
      (hl : s.lookups[i]? = some (.spawning key set index)) (hc : s.cancelled = false) :
      Transition s (.lookup i) ((s.spawn key index).setLookup i (.finished (.ok set))) []
  /-- A watcher's query ends with a set. -/
  | observed {j : Nat} {key : Key} {cursor : Cursor} {result : Except Failure Answer}
      {set : EndpointSet} {index : Nat} (hw : s.watchers[j]? = some ⟨key, .asking cursor⟩)
      (hr : Answer.observed result = .ok (set, index)) :
      Transition s (.answerWatcher j result)
        (s.setWatcher j ⟨key, .storing (cursor.recordSuccess index) set⟩) []
  /-- A watcher's query fails and will be repeated. -/
  | stumbled {j : Nat} {key : Key} {cursor : Cursor} {result : Except Failure Answer} {f : Failure}
      (hw : s.watchers[j]? = some ⟨key, .asking cursor⟩) (hr : Answer.observed result = .error f)
      (hc : cursor.recordFailure.hasReached s.watch.retryCeiling = false) :
      Transition s (.answerWatcher j result)
        (s.setWatcher j ⟨key, .pausing cursor.recordFailure⟩) []
  /-- A watcher's query fails once too often. -/
  | gaveUp {j : Nat} {key : Key} {cursor : Cursor} {result : Except Failure Answer} {f : Failure}
      (hw : s.watchers[j]? = some ⟨key, .asking cursor⟩) (hr : Answer.observed result = .error f)
      (hc : cursor.recordFailure.hasReached s.watch.retryCeiling = true) :
      Transition s (.answerWatcher j result) (s.setWatcher j ⟨key, .leaving .gaveUp⟩) []
  /-- A watcher's pause is over. -/
  | resumed {j : Nat} {key : Key} {cursor : Cursor}
      (hw : s.watchers[j]? = some ⟨key, .pausing cursor⟩) :
      Transition s (.resume j) (s.setWatcher j ⟨key, .asking cursor⟩) []
  /-- A watcher notices the cancellation while its query is out. -/
  | recalled {j : Nat} {key : Key} {cursor : Cursor}
      (hw : s.watchers[j]? = some ⟨key, .asking cursor⟩) (hc : s.cancelled = true) :
      Transition s (.cancel j) (s.setWatcher j ⟨key, .leaving .cancelled⟩) []
  /-- A watcher notices the cancellation while it pauses. -/
  | roused {j : Nat} {key : Key} {cursor : Cursor}
      (hw : s.watchers[j]? = some ⟨key, .pausing cursor⟩) (hc : s.cancelled = true) :
      Transition s (.cancel j) (s.setWatcher j ⟨key, .leaving .cancelled⟩) []
  /-- The registry breaks down under a watcher's query. -/
  | crashed {j : Nat} {key : Key} {cursor : Cursor}
      (hw : s.watchers[j]? = some ⟨key, .asking cursor⟩) :
      Transition s (.crash j) (s.setWatcher j ⟨key, .crashed⟩) []
  /-- A watcher stores what its query has shown. -/
  | stored {j : Nat} {key : Key} {cursor : Cursor} {set : EndpointSet}
      (hw : s.watchers[j]? = some ⟨key, .storing cursor set⟩) :
      Transition s (.watcher j)
        ({ s with cache := (s.cache.update key set).2.2 }.setWatcher j
          ⟨key, .notifying cursor (.ofNotification (s.cache.update key set).2.1)⟩) []
  /-- A handler that a watcher calls does an operation. -/
  | relayed {j : Nat} {key : Key} {cursor : Cursor} {d : Delivery false ρ}
      {o : Delivery.Outcome false ρ} (hw : s.watchers[j]? = some ⟨key, .notifying cursor d⟩)
      (ho : d.step s.cache = some o) :
      Transition s (.watcher j)
        ({ s with cache := o.cache }.setWatcher j ⟨key, .notifying cursor o.rest⟩) o.events
  /-- A watcher asks again. -/
  | rearmed {j : Nat} {key : Key} {cursor : Cursor}
      (hw : s.watchers[j]? = some ⟨key, .notifying cursor []⟩) :
      Transition s (.watcher j) (s.setWatcher j ⟨key, .asking cursor⟩) []
  /-- A watcher drops its set and its claim and ends. -/
  | left {j : Nat} {key : Key} {exit : WatchExit}
      (hw : s.watchers[j]? = some ⟨key, .leaving exit⟩) :
      Transition s (.watcher j)
        ({ s with cache := s.cache.release key }.setWatcher j ⟨key, .ended exit⟩) []
  /-- A shutdown is called. -/
  | shutdownCalled :
      Transition s .callShutdown { s with shutdowns := s.shutdowns ++ [.cancelling] } []
  /-- A shutdown requests the cancellation. -/
  | requested {k : Nat} (hk : s.shutdowns[k]? = some .cancelling) :
      Transition s (.shutdown k) ({ s with cancelled := true }.setShutdown k .taking) []
  /-- A shutdown takes the watchers over. -/
  | took {k : Nat} (hk : s.shutdowns[k]? = some .taking) :
      Transition s (.shutdown k)
        ({ s with supervised := [] }.setShutdown k (.joining s.supervised)) []
  /-- A shutdown returns, as all watchers that it took over have ended. -/
  | joined {k : Nat} {watchers : List Nat} (hk : s.shutdowns[k]? = some (.joining watchers))
      (ho : watchers.all s.isOver = true) :
      Transition s (.shutdown k) (s.setShutdown k .returned) []
  /-- A cached set is dropped from outside. -/
  | invalidated (name : String) :
      Transition s (.invalidate name) { s with cache := (s.cache.invalidate (s.key name)).2 } []
  /-- A handler is subscribed from outside. -/
  | subscribed (name : String) (handler : Handler false ρ) :
      Transition s (.subscribe name handler)
        { s with cache := (s.cache.subscribe name handler).2 } []
  /-- A subscription is cancelled from outside. -/
  | unsubscribed (name : String) (id : SubscriptionId) :
      Transition s (.unsubscribe name id) { s with cache := (s.cache.unsubscribe name id).2 } []

private theorem transition_of_stepLookup {s s' : Service ρ} {i : Nat} {l : Lookup ρ}
    {events : List (Event ρ)} (hl : s.lookups[i]? = some l)
    (h : s.stepLookup i l = some (s', events)) : Transition s (.lookup i) s' events := by
  cases l with
  | arriving name =>
    cases h
    cases hc : s.cancelled
    · exact .admitted hl hc
    · exact .refused hl hc
  | reading key =>
    simp only [stepLookup] at h
    cases h
    split
    · next set hs =>
      obtain ⟨hg, hne⟩ := Option.filter_eq_some_iff.1 hs
      exact .served hl hg (by simpa using hne)
    · next hs => exact .missed hl hs
  | asking key => cases h
  | seeding key set index =>
    cases h
    exact .seeded hl
  | notifying key set index claimed d =>
    simp only [stepLookup] at h
    split at h
    · next o ho =>
      cases h
      exact .told hl ho
    · next hd =>
      cases h
      cases Delivery.step_eq_none hd
      cases claimed
      · exact .lost hl
      · exact .won hl
  | spawning key set index =>
    simp only [stepLookup] at h
    split at h
    · next hc =>
      cases h
      exact .withdrawn hl hc
    · next hc =>
      cases h
      exact .spawned hl (by simpa using hc)
  | finished result => cases h

private theorem transition_of_answerLookup {s s' : Service ρ} {i : Nat} {l : Lookup ρ}
    {result : Except Failure Answer} {events : List (Event ρ)} (hl : s.lookups[i]? = some l)
    (h : s.answerLookup i result l = some (s', events)) :
    Transition s (.answerLookup i result) s' events := by
  cases l with
  | asking key =>
    simp only [answerLookup, Lookup.answer, Option.map_some] at h
    cases h
    cases hr : key.found s.registry result with
    | ok found => exact .found hl hr
    | error f => exact .failed hl hr
  | _ => cases h

private theorem transition_of_stepWatcher {s s' : Service ρ} {j : Nat} {w : Watcher ρ}
    {events : List (Event ρ)} (hw : s.watchers[j]? = some w)
    (h : s.stepWatcher j w = some (s', events)) : Transition s (.watcher j) s' events := by
  obtain ⟨key, stage⟩ := w
  cases stage with
  | storing cursor set =>
    cases h
    exact .stored hw
  | notifying cursor d =>
    simp only [stepWatcher, Watcher.advance] at h
    split at h
    · next o ho =>
      cases h
      exact .relayed hw ho
    · next hd =>
      cases h
      cases Delivery.step_eq_none hd
      exact .rearmed hw
  | leaving exit =>
    cases h
    exact .left hw
  | _ => cases h

private theorem transition_of_answerWatcher {s : Service ρ} {j : Nat} {w w' : Watcher ρ}
    {result : Except Failure Answer} (hw : s.watchers[j]? = some w)
    (h : w.answer s.watch.retryCeiling (Answer.observed result) = some w') :
    Transition s (.answerWatcher j result) (s.setWatcher j w') [] := by
  obtain ⟨key, stage⟩ := w
  cases stage with
  | asking cursor =>
    cases h
    cases hr : Answer.observed result with
    | ok found => exact .observed hw hr
    | error f =>
      simp only [Watcher.failed]
      split
      · next hc => exact .gaveUp hw hr hc
      · next hc => exact .stumbled hw hr (by simpa using hc)
  | _ => cases h

private theorem transition_of_cancel {s : Service ρ} {j : Nat} {w w' : Watcher ρ}
    (hw : s.watchers[j]? = some w) (hc : s.cancelled = true) (h : w.cancel = some w') :
    Transition s (.cancel j) (s.setWatcher j w') [] := by
  obtain ⟨key, stage⟩ := w
  cases stage with
  | asking cursor =>
    cases h
    exact .recalled hw hc
  | pausing cursor =>
    cases h
    exact .roused hw hc
  | _ => cases h

private theorem transition_of_stepShutdown {s s' : Service ρ} {k : Nat} {d : Shutdown}
    {events : List (Event ρ)} (hk : s.shutdowns[k]? = some d)
    (h : s.stepShutdown k d = some (s', events)) : Transition s (.shutdown k) s' events := by
  cases d with
  | cancelling =>
    cases h
    exact .requested hk
  | taking =>
    cases h
    exact .took hk
  | joining watchers =>
    simp only [stepShutdown] at h
    split at h
    · next ho =>
      cases h
      exact .joined hk ho
    · cases h
  | returned => cases h

/-- Every step is one of the transitions. -/
theorem transition_of_step {s s' : Service ρ} {a : Action ρ} {events : List (Event ρ)}
    (h : s.step a = some (s', events)) : Transition s a s' events := by
  cases a with
  | resolve name =>
    cases h
    exact .called name
  | lookup i =>
    obtain ⟨l, hl, h⟩ := Option.bind_eq_some_iff.1 h
    exact transition_of_stepLookup hl h
  | answerLookup i result =>
    obtain ⟨l, hl, h⟩ := Option.bind_eq_some_iff.1 h
    exact transition_of_answerLookup hl h
  | watcher j =>
    obtain ⟨w, hw, h⟩ := Option.bind_eq_some_iff.1 h
    exact transition_of_stepWatcher hw h
  | answerWatcher j result =>
    obtain ⟨w, hw, h⟩ := Option.bind_eq_some_iff.1 h
    obtain ⟨w', hw', h⟩ := Option.bind_eq_some_iff.1 h
    cases h
    exact transition_of_answerWatcher hw hw'
  | resume j =>
    obtain ⟨⟨key, stage⟩, hw, h⟩ := Option.bind_eq_some_iff.1 h
    obtain ⟨w', hw', h⟩ := Option.bind_eq_some_iff.1 h
    cases h
    cases stage with
    | pausing cursor =>
      cases hw'
      exact .resumed hw
    | _ => cases hw'
  | cancel j =>
    obtain ⟨w, hw, h⟩ := Option.bind_eq_some_iff.1 h
    simp only at h
    split at h
    · next hc =>
      obtain ⟨w', hw', h⟩ := Option.bind_eq_some_iff.1 h
      cases h
      exact transition_of_cancel hw hc hw'
    · cases h
  | crash j =>
    obtain ⟨⟨key, stage⟩, hw, h⟩ := Option.bind_eq_some_iff.1 h
    obtain ⟨w', hw', h⟩ := Option.bind_eq_some_iff.1 h
    cases h
    cases stage with
    | asking cursor =>
      cases hw'
      exact .crashed hw
    | _ => cases hw'
  | callShutdown =>
    cases h
    exact .shutdownCalled
  | shutdown k =>
    obtain ⟨d, hk, h⟩ := Option.bind_eq_some_iff.1 h
    exact transition_of_stepShutdown hk h
  | invalidate name =>
    cases h
    exact .invalidated name
  | subscribe name handler =>
    cases h
    exact .subscribed name handler
  | unsubscribe name id =>
    cases h
    exact .unsubscribed name id

/-- Every transition is a step. -/
theorem step_of_transition {s s' : Service ρ} {a : Action ρ} {events : List (Event ρ)}
    (h : Transition s a s' events) : s.step a = some (s', events) := by
  cases h with
  | called | shutdownCalled | invalidated | subscribed | unsubscribed => rfl
  | refused hl hc | admitted hl hc | withdrawn hl hc | spawned hl hc =>
    simp [step, hl, stepLookup, hc]
  | served hl hs hne =>
    have hs' : (s.cache.get? _).filter (fun set => !set.isEmpty) = some _ :=
      Option.filter_eq_some_iff.2 ⟨hs, by simpa using hne⟩
    simp [step, hl, stepLookup, hs']
  | missed hl hs => simp [step, hl, stepLookup, hs]
  | found hl hr | failed hl hr => simp [step, hl, answerLookup, Lookup.answer, hr]
  | seeded hl => simp [step, hl, stepLookup, Cache.seed]
  | told hl ho => simp [step, hl, stepLookup, ho]
  | won hl | lost hl => simp [step, hl, stepLookup, Delivery.step]
  | observed hw hr => simp [step, hw, Watcher.answer, hr]
  | stumbled hw hr hc | gaveUp hw hr hc => simp [step, hw, Watcher.answer, Watcher.failed, hr, hc]
  | resumed hw => simp [step, hw, Watcher.resume]
  | recalled hw hc | roused hw hc => simp [step, hw, Watcher.cancel, hc]
  | crashed hw => simp [step, hw, Watcher.crash]
  | stored hw | left hw => simp [step, hw, stepWatcher, Watcher.advance]
  | relayed hw ho => simp [step, hw, stepWatcher, Watcher.advance, ho]
  | rearmed hw => simp [step, hw, stepWatcher, Watcher.advance, Delivery.step]
  | requested hk | took hk => simp [step, hk, stepShutdown]
  | joined hk ho => simp [step, hk, stepShutdown, ho]

/-- No transition changes the settings of the watchers. -/
theorem watch_of_transition {s s' : Service ρ} {a : Action ρ} {events : List (Event ρ)}
    (h : Transition s a s' events) : s'.watch = s.watch := by
  cases h <;> rfl

/-- The services that actions lead to from a start, as long as no query breaks down. -/
inductive Reached : Service ρ → Prop
  /-- A service has just been started. -/
  | start (registry : String) (agent : Agent) (watch : WatchConfig) :
      Reached (.start registry agent watch)
  /-- An action follows. -/
  | step {s s' : Service ρ} {a : Action ρ} {events : List (Event ρ)} (h : Reached s)
      (ha : ∀ j, a ≠ .crash j) (hs : s.step a = some (s', events)) : Reached s'

/-- A run of several actions is a step of the first and a run of the others. -/
theorem step_of_run_cons {s s' : Service ρ} {a : Action ρ} {rest : List (Action ρ)}
    {events : List (Event ρ)} (h : s.run (a :: rest) = some (s', events)) :
    ∃ t first later, s.step a = some (t, first) ∧ t.run rest = some (s', later) ∧
      events = first ++ later := by
  obtain ⟨⟨t, first⟩, hs, h⟩ := Option.bind_eq_some_iff.1 h
  obtain ⟨⟨u, later⟩, ht, he⟩ := Option.bind_eq_some_iff.1 h
  cases he
  exact ⟨t, first, later, hs, ht, rfl⟩

/-- What every transition keeps holds after a run if it holds before. -/
theorem run_invariant {P : Service ρ → Prop}
    (hP : ∀ s a s' events, Transition s a s' events → P s → P s') {s s' : Service ρ}
    {actions : List (Action ρ)} {events : List (Event ρ)} (h : P s)
    (hr : s.run actions = some (s', events)) : P s' := by
  induction actions generalizing s events with
  | nil =>
    cases hr
    exact h
  | cons a rest ih =>
    obtain ⟨t, first, later, hs, ht, -⟩ := step_of_run_cons hr
    exact ih (hP _ _ _ _ (transition_of_step hs) h) ht

/-- A run without a breakdown leads from a reached service to a reached one. -/
theorem Reached.run {s s' : Service ρ} {actions : List (Action ρ)} {events : List (Event ρ)}
    (h : s.Reached) (ha : ∀ a ∈ actions, ∀ j, a ≠ .crash j)
    (hr : s.run actions = some (s', events)) : s'.Reached := by
  induction actions generalizing s events with
  | nil =>
    cases hr
    exact h
  | cons a rest ih =>
    obtain ⟨t, first, later, hs, ht, -⟩ := step_of_run_cons hr
    have hreached : t.Reached := .step h (ha a List.mem_cons_self) hs
    exact ih hreached (fun b hb => ha b (List.mem_cons_of_mem a hb)) ht

end Service

end ServiceDiscovery
