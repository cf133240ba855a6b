import ServiceDiscovery.Proofs.Service.Breakdown

/-!
# Handlers that are called late

Who still calls handlers when a service is shut down. A handler is called by a watcher or by a
lookup. The shutdown waits for the watchers, and nobody starts one after the cancellation, so none
calls a handler once the only shutdown call has returned. It does not wait for the lookups. One that
was admitted before the cancellation may still wait for its answer then; it stores the answer and
has it delivered, and only afterwards finds that the service is closed.
-/

namespace ServiceDiscovery

/-- Whether a lookup was admitted and has not yet returned. -/
def Lookup.isUnderWay {ρ : Type} : Lookup ρ → Bool
  | .arriving _ | .finished _ => false
  | .reading _ | .asking _ | .seeding _ _ _ | .notifying _ _ _ _ _ | .spawning _ _ _ => true

namespace Service

variable {ρ : Type} {s s' : Service ρ} {a : Action ρ} {events : List (Event ρ)}

/-- Whether a lookup was admitted and has not yet returned; one that does not exist is not. -/
def isUnderWay (s : Service ρ) (i : Nat) : Bool := (s.lookups[i]?).any Lookup.isUnderWay

/-- Handlers are called, and do what they do, in the steps of lookups under way and of watchers that
have not ended. -/
theorem caller_of_transition (h : Transition s a s' events) (he : events ≠ []) :
    (∃ i, a = .lookup i ∧ s.isUnderWay i = true) ∨ ∃ j, a = .watcher j ∧ s.isOver j = false := by
  cases h with
  | @told i _ _ _ _ _ _ hl _ => exact Or.inl ⟨i, rfl, by simp [isUnderWay, hl, Lookup.isUnderWay]⟩
  | @relayed j _ _ _ _ hw _ => exact Or.inr ⟨j, rfl, by simp [isOver, hw, Watcher.isOver]⟩
  | _ => exact absurd rfl he

private theorem isUnderWay_of_setLookup {i k : Nat} {old l : Lookup ρ}
    (hl : s.lookups[i]? = some old) (ho : l.isUnderWay = true → old.isUnderWay = true)
    (hk : (s.setLookup i l).isUnderWay k = true) : s.isUnderWay k = true := by
  by_cases he : i = k
  · subst he
    have hi : i < s.lookups.length := (List.getElem?_eq_some_iff.1 hl).1
    rw [isUnderWay, setLookup, List.getElem?_set_self hi] at hk
    rw [isUnderWay, hl]
    exact ho hk
  · rwa [isUnderWay, setLookup, List.getElem?_set_ne he] at hk

/-- After the cancellation no lookup is admitted. -/
theorem isUnderWay_of_transition (h : Transition s a s' events) (hc : s.cancelled = true) {k : Nat}
    (hk : s'.isUnderWay k = true) : s.isUnderWay k = true := by
  cases h with
  | called name =>
    rw [isUnderWay, List.getElem?_append] at hk
    split at hk
    · exact hk
    · rw [List.getElem?_singleton] at hk
      split at hk <;> cases hk
  | admitted _ hn | spawned _ hn =>
    rw [hn] at hc
    cases hc
  | refused hl _ => exact isUnderWay_of_setLookup hl (fun hu => by cases hu) hk
  | served hl _ _ | missed hl _ | found hl _ | failed hl _ | won hl | lost hl =>
    exact isUnderWay_of_setLookup hl (fun _ => rfl) hk
  | seeded hl | told hl _ | withdrawn hl _ =>
    exact isUnderWay_of_setLookup (s := { s with cache := _ }) hl (fun _ => rfl) hk
  | _ => exact hk

/-- When no watcher is alive after the cancellation, none ever is again. -/
theorem isOver_of_transition (h : Transition s a s' events) (hc : s.cancelled = true)
    (ho : ∀ j, s.isOver j = true) (j : Nat) : s'.isOver j = true := by
  cases h with
  | spawned _ hn =>
    rw [hn] at hc
    cases hc
  | @observed k _ _ _ _ _ hw _ | @stumbled k _ _ _ _ hw _ _ | @gaveUp k _ _ _ _ hw _ _
  | @resumed k _ _ hw | @recalled k _ _ hw _ | @roused k _ _ hw _ | @crashed k _ _ hw
  | @stored k _ _ _ hw | @relayed k _ _ _ _ hw _ | @rearmed k _ _ hw | @left k _ _ hw =>
    have hk := ho k
    simp [isOver, hw, Watcher.isOver] at hk
  | _ => exact ho j

-- The service is closed: the cancellation was requested, no watcher is alive, and of the lookups
-- only the given ones may be under way.
private structure Closed (underWay : Nat → Bool) (s : Service ρ) : Prop where
  cancelled : s.cancelled = true
  ended : ∀ j, s.isOver j = true
  lookups : ∀ i, s.isUnderWay i = true → underWay i = true

private theorem Closed.of_transition {underWay : Nat → Bool} (hs : Closed underWay s)
    (h : Transition s a s' events) : Closed underWay s' :=
  ⟨(cancelled_of_transition h hs.cancelled).1, isOver_of_transition h hs.cancelled hs.ended,
    fun i hi => hs.lookups i (isUnderWay_of_transition h hs.cancelled hi)⟩

private theorem Closed.run {underWay : Nat → Bool} (hs : Closed underWay s)
    {actions : List (Action ρ)} (hr : s.run actions = some (s', events)) : Closed underWay s' :=
  run_invariant (fun _ _ _ _ h hc => Closed.of_transition hc h) hs hr

private theorem Closed.caller {underWay : Nat → Bool} (hs : Closed underWay s)
    (h : Transition s a s' events) (he : events ≠ []) : ∃ i, a = .lookup i ∧ underWay i = true := by
  rcases caller_of_transition h he with ⟨i, ha, hi⟩ | ⟨j, -, hj⟩
  · exact ⟨i, ha, hs.lookups i hi⟩
  · rw [hs.ended j] at hj
    cases hj

private theorem Closed.silent (hs : Closed (fun _ => false) s) {actions : List (Action ρ)}
    (hr : s.run actions = some (s', events)) : events = [] := by
  induction actions generalizing s events with
  | nil =>
    cases hr
    rfl
  | cons a rest ih =>
    obtain ⟨t, first, later, hstep, hrun, rfl⟩ := step_of_run_cons hr
    have ht := transition_of_step hstep
    have hfirst : first = [] := by
      refine Decidable.not_not.1 fun hne => ?_
      obtain ⟨i, -, hi⟩ := hs.caller ht hne
      cases hi
    rw [hfirst, ih (hs.of_transition ht) hrun]
    rfl

private theorem Attained.closed_of_returned (h : s.Attained) (hs : s.shutdowns = [.returned]) :
    Closed s.isUnderWay s := by
  have hmem : Shutdown.returned ∈ s.shutdowns := hs ▸ List.mem_cons_self
  exact ⟨h.supervised.cancelled _ hmem nofun, h.supervised.isOver_of_returned hs, fun _ hi => hi⟩

/-- Whatever is under way after a cancellation was so when it was requested. Once the only shutdown
call has returned, every handler is called by a lookup that was under way at that moment, in every
run that follows; no watcher calls one. If there is no such lookup, no handler is ever called. -/
theorem late_callers (h : s.Attained) :
    (s.cancelled = true → ∀ actions s' events, s.run actions = some (s', events) →
      ∀ i, s'.isUnderWay i = true → s.isUnderWay i = true) ∧
    (s.shutdowns = [.returned] →
      s.cancelled = true ∧
      (∀ actions s' before a s'' events, s.run actions = some (s', before) →
        s'.step a = some (s'', events) → events ≠ [] →
        ∃ i, a = .lookup i ∧ s.isUnderWay i = true) ∧
      ((∀ i, s.isUnderWay i = false) → ∀ actions s' events,
        s.run actions = some (s', events) → events = [])) := by
  refine ⟨fun hc actions s' events hr => ?_, fun hs => ?_⟩
  · refine (run_invariant (P := fun t => t.cancelled = true ∧
      ∀ i, t.isUnderWay i = true → s.isUnderWay i = true) ?_ ⟨hc, fun _ hi => hi⟩ hr).2
    intro t a t' events ht ⟨hct, hi⟩
    exact ⟨(cancelled_of_transition ht hct).1,
      fun i hi' => hi i (isUnderWay_of_transition ht hct hi')⟩
  · have hclosed := h.closed_of_returned hs
    refine ⟨hclosed.cancelled, ?_, ?_⟩
    · intro actions s' before a s'' events hr hstep he
      exact (hclosed.run hr).caller (transition_of_step hstep) he
    · intro hn actions s' events hr
      have hquiet : Closed (fun _ => false) s :=
        ⟨hclosed.cancelled, hclosed.ended, fun i hi => absurd hi (by simp [hn i])⟩
      exact hquiet.silent hr

/-- A lookup that waits for its answer while the service is shut down. -/
def overtaking : List (Action Unit) :=
  [.subscribe "api" fun _ _ => .done, .resolve "api", .lookup 0, .lookup 0, .callShutdown,
    .shutdown 0, .shutdown 0, .shutdown 0]

/-- The service after the shutdown, when the lookup still waits. -/
def overtaken : Service Unit :=
  (((start "registry" default .standard).run overtaking).getD
    (start "registry" default .standard, [])).1

/-- The shutdown leads to a reached service. -/
theorem reached_overtaken : overtaken.Reached := by
  have hr : (start "registry" default .standard).run overtaking = some (overtaken, []) := rfl
  exact (Reached.start "registry" default .standard).run (by simp [overtaking]) hr

/-- The lookup's answer arrives after the shutdown, and the lookup goes on to its end. -/
def outrun : List (Action Unit) :=
  [.answerLookup 0 (.ok ⟨[.ofAddress "api" "10.0.0.1" 80], 5⟩), .lookup 0, .lookup 0, .lookup 0,
    .lookup 0, .lookup 0, .lookup 0]

/-- The service when the lookup has returned, and what was seen of it. -/
def outran : Outcome Unit := (overtaken.run outrun).getD (overtaken, [])

/-- The lookup goes on to its end. -/
theorem run_outrun : overtaken.run outrun = some outran := rfl

/-- A handler may be called after the only shutdown call has returned. -/
theorem called_after_shutdown :
    ¬ ∀ s : Service Unit, s.Reached → s.shutdowns = [.returned] →
      ∀ actions s' events, Action.callShutdown ∉ actions → s.run actions = some (s', events) →
        ∀ id set, Event.called id set ∉ events := by
  intro h
  obtain ⟨id, set, hseen⟩ : ∃ id set, outran.2 = [.called id set] := ⟨_, _, rfl⟩
  refine h overtaken reached_overtaken rfl outrun outran.1 outran.2 (by simp [outrun]) run_outrun
    id set ?_
  rw [hseen]
  exact List.mem_cons_self

/-- The lookup that was overtaken is the only one that can call handlers after the shutdown, and it
does. When it has returned, refused and without a claim, no handler is called any more. -/
theorem late_callers_overtaken :
    overtaken.Attained ∧ overtaken.cancelled = true ∧ overtaken.shutdowns = [.returned] ∧
      (∀ actions s' before a s'' events, overtaken.run actions = some (s', before) →
        s'.step a = some (s'', events) → events ≠ [] → a = .lookup 0) ∧
      overtaken.run outrun = some outran ∧ outran.2 ≠ [] ∧
      outran.1.lookups[0]?.bind Lookup.result? = some (.error .shuttingDown) ∧
      outran.1.cache.watching = [] ∧
      ∀ actions s' events, outran.1.run actions = some (s', events) → events = [] := by
  have hnow : overtaken.Attained := reached_overtaken.attained
  have hlater : outran.1.Attained := hnow.run run_outrun
  obtain ⟨-, hreturned⟩ := late_callers hnow
  obtain ⟨hc, hcaller, -⟩ := hreturned rfl
  obtain ⟨-, hreturned'⟩ := late_callers hlater
  obtain ⟨-, -, hsilent⟩ := hreturned' rfl
  refine ⟨hnow, hc, rfl, ?_, run_outrun, nofun, rfl, rfl, hsilent ?_⟩
  · intro actions s' before a s'' events hr hstep he
    obtain ⟨i, ha, hi⟩ := hcaller actions s' before a s'' events hr hstep he
    cases i with
    | zero => exact ha
    | succ i => cases hi
  · intro i
    cases i with
    | zero => rfl
    | succ i => rfl

end Service

end ServiceDiscovery
