import ServiceDiscovery.Proofs.Service.Shutdown

/-!
# Departures

That a shutdown can always come to its end. Once the cancellation was requested, a live watcher gets
to its end by steps of its own, whatever it is doing: what it has in hand is stored, the delivery of
it ends as handlers of a service store nothing, and where it would wait it notices the cancellation.
So the watchers that a shutdown call waits for can all end, with no answer of the registry, and the
call can return.
-/

namespace ServiceDiscovery.Service

variable {ρ : Type} {s s' t : Service ρ} {j : Nat} {key : Key}

/-- What a watcher does by itself once it is cancelled. -/
def IsDeparting (j : Nat) (a : Action ρ) : Prop := a = .watcher j ∨ a = .cancel j

/-- Steps of its own lead a watcher to its end, and set and claim of its key are gone then. -/
def Departs (s : Service ρ) (j : Nat) (key : Key) (s' : Service ρ) : Prop :=
  ∃ actions events exit, (∀ a ∈ actions, IsDeparting j a) ∧ s.run actions = some (s', events) ∧
    s'.watchers[j]? = some ⟨key, .ended exit⟩ ∧ key ∉ s'.cache.watching ∧
    s'.cache.get? key = none

/-- A run of one step more. -/
theorem run_cons {a : Action ρ} {first : List (Event ρ)} (hs : s.step a = some (t, first))
    {rest : List (Action ρ)} {later : List (Event ρ)} (hr : t.run rest = some (s', later)) :
    s.run (a :: rest) = some (s', first ++ later) := by
  simp [run, hs, hr]

/-- A run after a run. -/
theorem run_append {before rest : List (Action ρ)} {first later : List (Event ρ)}
    (hs : s.run before = some (t, first)) (hr : t.run rest = some (s', later)) :
    s.run (before ++ rest) = some (s', first ++ later) := by
  induction before generalizing s first with
  | nil =>
    cases hs
    exact hr
  | cons a before ih =>
    obtain ⟨u, now, afterwards, hstep, hrun, rfl⟩ := step_of_run_cons hs
    rw [List.append_assoc]
    exact run_cons hstep (ih hrun)

/-- A departure may have one step more. -/
theorem Departs.cons {a : Action ρ} {first : List (Event ρ)} (h : t.Departs j key s')
    (ha : IsDeparting j a) (hs : s.step a = some (t, first)) : s.Departs j key s' := by
  obtain ⟨actions, later, exit, hall, hr, hend⟩ := h
  refine ⟨a :: actions, first ++ later, exit, ?_, run_cons hs hr, hend⟩
  intro b hb
  rcases List.mem_cons.1 hb with rfl | hb
  · exact ha
  · exact hall b hb

/-- A watcher that is leaving departs. -/
theorem departs_leaving {exit : WatchExit} (hw : s.watchers[j]? = some ⟨key, .leaving exit⟩) :
    ∃ s', s.Departs j key s' := by
  obtain ⟨s', hs, hend, hk, hg, -⟩ := leave_of_leaving hw
  exact ⟨s', [.watcher j], [], exit, by simp [IsDeparting], run_cons hs rfl, hend, hk, hg⟩

/-- A cancelled watcher whose query is out departs. -/
theorem departs_asking {cursor : Cursor} (hc : s.cancelled = true)
    (hw : s.watchers[j]? = some ⟨key, .asking cursor⟩) : ∃ s', s.Departs j key s' := by
  obtain ⟨s', h⟩ := departs_leaving (watchers_setWatcher (w := ⟨key, .leaving .cancelled⟩) hw)
  exact ⟨s', h.cons (Or.inr rfl) (step_of_transition (.recalled hw hc))⟩

private theorem departs_pausing {cursor : Cursor} (hc : s.cancelled = true)
    (hw : s.watchers[j]? = some ⟨key, .pausing cursor⟩) : ∃ s', s.Departs j key s' := by
  obtain ⟨s', h⟩ := departs_leaving (watchers_setWatcher (w := ⟨key, .leaving .cancelled⟩) hw)
  exact ⟨s', h.cons (Or.inr rfl) (step_of_transition (.roused hw hc))⟩

private theorem departs_notifying {cursor : Cursor} {d : Delivery false ρ} (hc : s.cancelled = true)
    (hw : s.watchers[j]? = some ⟨key, .notifying cursor d⟩) : ∃ s', s.Departs j key s' := by
  induction d using Delivery.wellFounded_follows.induction generalizing s with
  | _ d ih =>
    cases hd : d.step s.cache with
    | none =>
      cases Delivery.step_eq_none hd
      obtain ⟨s', h⟩ := departs_asking (by exact hc)
        (watchers_setWatcher (w := ⟨key, .asking cursor⟩) hw)
      exact ⟨s', h.cons (Or.inl rfl) (step_of_transition (.rearmed hw))⟩
    | some o =>
      obtain ⟨s', h⟩ := ih o.rest ⟨s.cache, o, hd, rfl⟩ (s := { s with cache := o.cache }.setWatcher
        j ⟨key, .notifying cursor o.rest⟩) hc (watchers_setWatcher (by exact hw))
      exact ⟨s', h.cons (Or.inl rfl) (step_of_transition (.relayed hw hd))⟩

/-- Once the cancellation was requested, every live watcher can get to its end by its own steps. -/
theorem exists_departure (hc : s.cancelled = true) {x : Watcher ρ} (hw : s.watchers[j]? = some x)
    (ho : x.isOver = false) : ∃ s', s.Departs j x.key s' := by
  obtain ⟨key, stage⟩ := x
  cases stage with
  | asking cursor => exact departs_asking hc hw
  | pausing cursor => exact departs_pausing hc hw
  | leaving exit => exact departs_leaving hw
  | notifying cursor d => exact departs_notifying hc hw
  | storing cursor set =>
    obtain ⟨s', h⟩ := departs_notifying
      (s := { s with cache := (s.cache.update key set).2.2 }.setWatcher j
        ⟨key, .notifying cursor (.ofNotification (s.cache.update key set).2.1)⟩) hc
      (watchers_setWatcher (by exact hw))
    exact ⟨s', h.cons (Or.inl rfl) (step_of_transition (.stored hw))⟩
  | ended exit | crashed => cases ho

/-! ### The end of a shutdown -/

/-- A shutdown call returns after some steps of its own and of the watchers. -/
def Returns (k : Nat) (s : Service ρ) : Prop :=
  ∃ actions events t, (∀ a ∈ actions, a.IsOwn) ∧ s.run actions = some (t, events) ∧
    t.shutdowns[k]? = some .returned

private theorem Returns.cons {k : Nat} {events : List (Event ρ)}
    (hs : s.step (.shutdown k) = some (t, events)) (h : Returns k t) : Returns k s := by
  obtain ⟨actions, later, u, hall, hr, hend⟩ := h
  exact ⟨.shutdown k :: actions, events ++ later, u,
    List.forall_mem_cons.2 ⟨Or.inr ⟨k, rfl⟩, hall⟩, run_cons hs hr, hend⟩

end ServiceDiscovery.Service
