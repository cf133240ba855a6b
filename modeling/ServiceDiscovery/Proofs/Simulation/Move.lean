import ServiceDiscovery.Proofs.Service.Task
import ServiceDiscovery.Simulation.World

/-!
# Moves over any registry

What a move of a lookup or of a watcher does to a world, whatever the registry is: the task does a
step of its own, asks the registry, is answered, or begins or ends a pause. What is noted of a move
is left open.
-/

namespace ServiceDiscovery.World

variable {σ ρ : Type} [Registry σ] {w w' : World σ ρ}

/-- Notes were added, and no query is among them. -/
def Noted (w : World σ ρ) (notes : List (Nat × Note ρ)) : Prop :=
  ∃ news, notes = news ++ w.notes ∧ ∀ n ∈ news, ∀ q, n.2 ≠ .asked q

/-- What a move of a lookup does to a world. -/
inductive LookupMove (w : World σ ρ) (i : Nat) : World σ ρ → Prop
  /-- The lookup does a step of its own. -/
  | acted {s : Service ρ} {events : List (Event ρ)} {notes : List (Nat × Note ρ)}
      (hs : w.service.step (.lookup i) = some (s, events)) :
      LookupMove w i { w with service := s, notes := notes }
  /-- The lookup asks the registry. -/
  | asked {key : Key} {notes : List (Nat × Note ρ)}
      (hl : w.service.lookups[i]? = some (.asking key)) (hq : w.lookupQueries.get? i = none) :
      LookupMove w i
        { w with
          registry := (Registry.query w.now (.immediate w.tag key) w.registry).2
          lookupQueries := w.lookupQueries.insert i
            (Registry.query w.now (.immediate w.tag key) w.registry).1
          notes := notes }
  /-- The registry answers the lookup. -/
  | answered {p : Pending} {result : Except Failure Answer} {s : Service ρ}
      {events : List (Event ρ)} {notes : List (Nat × Note ρ)}
      (hq : w.lookupQueries.get? i = some p)
      (ha : Registry.answer? w.now p w.registry = some result)
      (hs : w.service.step (.answerLookup i result) = some (s, events)) :
      LookupMove w i
        { w with service := s, lookupQueries := w.lookupQueries.erase i, notes := notes }

/-- What a move of a watcher does to a world. -/
inductive WatcherMove (w : World σ ρ) (j : Nat) : World σ ρ → Prop
  /-- The watcher does a step of its own. -/
  | acted {s : Service ρ} {events : List (Event ρ)} {notes : List (Nat × Note ρ)}
      (hs : w.service.step (.watcher j) = some (s, events)) (hn : w.Noted notes) :
      WatcherMove w j { w with service := s, notes := notes }
  /-- The watcher asks the registry. -/
  | asked {key : Key} {cursor : Cursor}
      (hw : w.service.watchers[j]? = some ⟨key, .asking cursor⟩)
      (hc : w.service.cancelled = false) (hq : w.watchQueries.get? j = none) :
      WatcherMove w j
        { w with
          registry := (Registry.query w.now
            (.blocking w.tag key cursor.waitIndex w.service.watch.waitTime) w.registry).2
          watchQueries := w.watchQueries.insert j (Registry.query w.now
            (.blocking w.tag key cursor.waitIndex w.service.watch.waitTime) w.registry).1
          notes := (w.now, .asked (.blocking w.tag key cursor.waitIndex
            w.service.watch.waitTime)) :: w.notes }
  /-- The registry answers the watcher. -/
  | answered {key : Key} {cursor : Cursor} {p : Pending} {result : Except Failure Answer}
      {s : Service ρ} {events : List (Event ρ)} {notes : List (Nat × Note ρ)}
      (hw : w.service.watchers[j]? = some ⟨key, .asking cursor⟩)
      (hc : w.service.cancelled = false) (hq : w.watchQueries.get? j = some p)
      (ha : Registry.answer? w.now p w.registry = some result)
      (hs : w.service.step (.answerWatcher j result) = some (s, events)) (hn : w.Noted notes) :
      WatcherMove w j
        { w with service := s, watchQueries := w.watchQueries.erase j, notes := notes }
  /-- The registry breaks down under the watcher's query. -/
  | broke {key : Key} {cursor : Cursor} {s : Service ρ} {events : List (Event ρ)}
      {notes : List (Nat × Note ρ)} (hw : w.service.watchers[j]? = some ⟨key, .asking cursor⟩)
      (hc : w.service.cancelled = false) (hq : w.watchQueries.get? j = some .broken)
      (hs : w.service.step (.crash j) = some (s, events)) (hn : w.Noted notes) :
      WatcherMove w j { w with service := s, notes := notes }
  /-- The watcher notices the cancellation while its query is out. -/
  | recalled {key : Key} {cursor : Cursor} {s : Service ρ} {events : List (Event ρ)}
      {notes : List (Nat × Note ρ)} (hw : w.service.watchers[j]? = some ⟨key, .asking cursor⟩)
      (hc : w.service.cancelled = true) (hs : w.service.step (.cancel j) = some (s, events))
      (hn : w.Noted notes) :
      WatcherMove w j
        { w with service := s, watchQueries := w.watchQueries.erase j, notes := notes }
  /-- The watcher notices the cancellation while it pauses. -/
  | roused {key : Key} {cursor : Cursor} {s : Service ρ} {events : List (Event ρ)}
      {notes : List (Nat × Note ρ)} (hw : w.service.watchers[j]? = some ⟨key, .pausing cursor⟩)
      (hc : w.service.cancelled = true) (hs : w.service.step (.cancel j) = some (s, events))
      (hn : w.Noted notes) :
      WatcherMove w j { w with service := s, pauses := w.pauses.erase j, notes := notes }
  /-- The watcher's pause begins. -/
  | pauseBegun {key : Key} {cursor : Cursor}
      (hw : w.service.watchers[j]? = some ⟨key, .pausing cursor⟩)
      (hc : w.service.cancelled = false) (hp : w.pauses.get? j = none) :
      WatcherMove w j
        { w with
          pauses := w.pauses.insert j (w.now + w.service.watch.retryDelay.toMillisUp) }
  /-- The watcher's pause is over. -/
  | pauseEnded {key : Key} {cursor : Cursor} {time : Nat} {s : Service ρ}
      {events : List (Event ρ)} {notes : List (Nat × Note ρ)}
      (hw : w.service.watchers[j]? = some ⟨key, .pausing cursor⟩)
      (hc : w.service.cancelled = false) (hp : w.pauses.get? j = some time) (ht : time ≤ w.now)
      (hs : w.service.step (.resume j) = some (s, events)) (hn : w.Noted notes) :
      WatcherMove w j { w with service := s, pauses := w.pauses.erase j, notes := notes }

omit [Registry σ] in
private theorem foldl_note (notes : List (Note ρ)) (w : World σ ρ) :
    notes.foldl (fun w n => w.note n) w =
      { w with notes := (notes.map fun n => (w.now, n)).reverse ++ w.notes } := by
  induction notes generalizing w with
  | nil => rfl
  | cons n rest ih =>
    rw [List.foldl_cons, ih]
    simp [note]

omit [Registry σ] in
private theorem ended_ne_asked {s : Service ρ} {a : Action ρ} {n : Note ρ} (h : n ∈ ended s a)
    (q : HealthQuery) : n ≠ .asked q := by
  rintro rfl
  cases a with
  | watcher j =>
    simp only [ended] at h
    split at h <;> simp at h
  | lookup _ | answerLookup _ _ =>
    rw [ended, Option.mem_toList] at h
    obtain ⟨result, -, hr⟩ := Option.map_eq_some_iff.1 h
    cases hr
  | shutdown _ => simp [ended] at h
  | _ => cases h

omit [Registry σ] in
/-- An action changes the service of a world and notes what happened. -/
theorem step_of_act? {a : Action ρ} (h : w.act? a = some w') :
    ∃ s events notes, w.service.step a = some (s, events) ∧ w.Noted notes ∧
      w' = { w with service := s, notes := notes } := by
  obtain ⟨⟨s, events⟩, hs, rfl⟩ := Option.map_eq_some_iff.1 h
  refine ⟨s, events, _, hs, ⟨_, rfl, fun n hn q => ?_⟩,
    foldl_note (events.map Note.event ++ ended s a) { w with service := s }⟩
  obtain ⟨m, hm, rfl⟩ := List.mem_map.1 (List.mem_reverse.1 hn)
  rcases List.mem_append.1 hm with hm | hm
  · obtain ⟨e, -, rfl⟩ := List.mem_map.1 hm
    exact nofun
  · exact ended_ne_asked hm q

omit [Registry σ] in
/-- An action that is possible changes the service of a world and notes what happened. -/
theorem step_of_act {a : Action ρ} (h : (w.service.step a).isSome) :
    ∃ s events notes, w.service.step a = some (s, events) ∧ w.Noted notes ∧
      w.act a = { w with service := s, notes := notes } := by
  obtain ⟨o, ho⟩ := Option.isSome_iff_exists.1 h
  have hsome : (w.act? a).isSome := by simp [act?, ho]
  obtain ⟨w', hw⟩ := Option.isSome_iff_exists.1 hsome
  obtain ⟨s, events, notes, hs, hn, he⟩ := step_of_act? hw
  exact ⟨s, events, notes, hs, hn, by rw [act, hw, Option.getD_some, he]⟩

/-- Every move of a lookup does one of these things. -/
theorem lookupMove_of_moveLookup {i : Nat} {l : Lookup ρ} (hl : w.service.lookups[i]? = some l)
    (h : w.moveLookup i l = some w') : LookupMove w i w' := by
  cases l with
  | asking key =>
    simp only [moveLookup] at h
    split at h
    · next hq =>
      cases h
      exact .asked hl hq
    · next p hq =>
      obtain ⟨result, ha, rfl⟩ := Option.map_eq_some_iff.1 h
      have hp : (w.service.step (.answerLookup i result)).isSome := by
        simp [Service.step, hl, Service.answerLookup, Lookup.answer]
      obtain ⟨s, events, notes, hs, -, he⟩ :=
        step_of_act (w := { w with lookupQueries := w.lookupQueries.erase i }) hp
      exact he ▸ .answered hq ha hs
  | _ =>
    obtain ⟨s, events, notes, hs, -, rfl⟩ := step_of_act? h
    exact .acted hs

private theorem watcherMove_of_moveAsking {j : Nat} {key : Key} {cursor : Cursor}
    (hw : w.service.watchers[j]? = some ⟨key, .asking cursor⟩) (hc : w.service.cancelled = false)
    (h : w.moveAsking j key cursor = some w') : WatcherMove w j w' := by
  simp only [moveAsking] at h
  split at h
  · next hq =>
    cases h
    exact .asked hw hc hq
  · next hq =>
    obtain ⟨s, events, notes, hs, hn, rfl⟩ := step_of_act? h
    exact .broke hw hc hq hs hn
  · next p _ hq =>
    obtain ⟨result, ha, rfl⟩ := Option.map_eq_some_iff.1 h
    have hp : (w.service.step (.answerWatcher j result)).isSome := by
      simp [Service.step, hw, Watcher.answer]
    obtain ⟨s, events, notes, hs, hn, he⟩ :=
      step_of_act (w := { w with watchQueries := w.watchQueries.erase j }) hp
    exact he ▸ .answered hw hc hq ha hs hn

omit [Registry σ] in
private theorem step_cancel_isSome {j : Nat} {x : Watcher ρ} (hw : w.service.watchers[j]? = some x)
    (hc : w.service.cancelled = true) (hx : x.cancel.isSome) :
    (w.service.step (.cancel j)).isSome := by
  obtain ⟨y, hy⟩ := Option.isSome_iff_exists.1 hx
  simp [Service.step, hw, hc, hy]

private theorem watcherMove_of_movePausing {j : Nat} {key : Key} {cursor : Cursor}
    (hw : w.service.watchers[j]? = some ⟨key, .pausing cursor⟩) (hc : w.service.cancelled = false)
    (h : w.movePausing j = some w') : WatcherMove w j w' := by
  simp only [movePausing] at h
  split at h
  · next hp =>
    cases h
    exact .pauseBegun hw hc hp
  · next time hp =>
    split at h
    · next ht =>
      cases h
      have hstep : (w.service.step (.resume j)).isSome := by
        simp [Service.step, hw, Watcher.resume]
      obtain ⟨s, events, notes, hs, hn, he⟩ :=
        step_of_act (w := { w with pauses := w.pauses.erase j }) hstep
      exact he ▸ .pauseEnded hw hc hp ht hs hn
    · cases h

/-- Every move of a watcher does one of these things. -/
theorem watcherMove_of_moveWatcher {j : Nat} {x : Watcher ρ}
    (hw : w.service.watchers[j]? = some x) (h : w.moveWatcher j x = some w') :
    WatcherMove w j w' := by
  obtain ⟨key, stage⟩ := x
  cases stage with
  | asking cursor =>
    simp only [moveWatcher] at h
    split at h
    · next hc =>
      cases h
      obtain ⟨s, events, notes, hs, hn, he⟩ := step_of_act
        (w := { w with watchQueries := w.watchQueries.erase j }) (step_cancel_isSome hw hc rfl)
      exact he ▸ .recalled hw hc hs hn
    · next hc => exact watcherMove_of_moveAsking hw (by simpa using hc) h
  | pausing cursor =>
    simp only [moveWatcher] at h
    split at h
    · next hc =>
      cases h
      obtain ⟨s, events, notes, hs, hn, he⟩ := step_of_act
        (w := { w with pauses := w.pauses.erase j }) (step_cancel_isSome hw hc rfl)
      exact he ▸ .roused hw hc hs hn
    · next hc => exact watcherMove_of_movePausing hw (by simpa using hc) h
  | _ =>
    obtain ⟨s, events, notes, hs, hn, rfl⟩ := step_of_act? h
    exact .acted hs hn

/-- A move of a watcher is a step of it at most, and a breakdown only if its query broke down. -/
theorem WatcherMove.service {j : Nat} (h : WatcherMove w j w') :
    w'.service = w.service ∨ ∃ a events, w.service.step a = some (w'.service, events) ∧
      a.task? = some (.watcher j) ∧ (a = .crash j → w.watchQueries.get? j = some .broken) := by
  cases h with
  | acted hs _ | answered _ _ _ _ hs _ | pauseEnded _ _ _ _ hs _ | recalled _ _ hs _
  | roused _ _ hs _ =>
    exact Or.inr ⟨_, _, hs, rfl, nofun⟩
  | broke _ _ hq hs _ => exact Or.inr ⟨_, _, hs, rfl, fun _ => hq⟩
  | asked _ _ _ | pauseBegun _ _ _ => exact Or.inl rfl

/-- A move of a watcher is no business of the others. -/
theorem WatcherMove.elsewhere {j k : Nat} (h : WatcherMove w k w') (hj : k ≠ j) :
    w'.watchQueries.get? j = w.watchQueries.get? j ∧ w'.pauses.get? j = w.pauses.get? j ∧
      w'.tag = w.tag := by
  cases h with
  | acted _ _ | broke _ _ _ _ _ => exact ⟨rfl, rfl, rfl⟩
  | asked _ _ _ => exact ⟨Table.get?_insert_of_ne _ _ hj, rfl, rfl⟩
  | answered _ _ _ _ _ _ | recalled _ _ _ _ => exact ⟨Table.get?_erase_of_ne _ hj, rfl, rfl⟩
  | pauseBegun _ _ _ => exact ⟨rfl, Table.get?_insert_of_ne _ _ hj, rfl⟩
  | pauseEnded _ _ _ _ _ _ | roused _ _ _ _ => exact ⟨rfl, Table.get?_erase_of_ne _ hj, rfl⟩

/-- No move of a watcher takes time. -/
theorem WatcherMove.now {j : Nat} (h : WatcherMove w j w') : w'.now = w.now := by
  cases h <;> rfl

omit [Registry σ] in
private theorem act?_ne_none {a : Action ρ} (h : (w.service.step a).isSome = true) :
    w.act? a ≠ none := by
  simpa [act?, ← Option.isSome_iff_ne_none] using h

/-- A watcher that cannot move has ended, waits for the answer to its query, or pauses. -/
theorem waits_of_moveWatcher {j : Nat} {x : Watcher ρ} (hw : w.service.watchers[j]? = some x)
    (h : w.moveWatcher j x = none) : x.isOver = true ∨
      w.service.cancelled = false ∧
        ((∃ cursor p, x.stage = .asking cursor ∧ w.watchQueries.get? j = some p ∧
          p ≠ .broken ∧ Registry.answer? w.now p w.registry = none) ∨
        ∃ cursor time, x.stage = .pausing cursor ∧ w.pauses.get? j = some time ∧
          w.now < time) := by
  obtain ⟨key, stage⟩ := x
  cases stage with
  | ended exit | crashed => exact Or.inl rfl
  | storing cursor set | leaving exit =>
    refine absurd h (act?_ne_none ?_)
    simp [Service.step, hw, Service.stepWatcher, Watcher.advance]
  | notifying cursor d =>
    refine absurd h (act?_ne_none ?_)
    simp only [Service.step, hw, Option.bind_some, Service.stepWatcher, Watcher.advance]
    split <;> rfl
  | asking cursor =>
    simp only [moveWatcher, moveAsking] at h
    split at h
    · cases h
    · next hc =>
      refine Or.inr ⟨by simpa using hc, Or.inl ?_⟩
      split at h
      · cases h
      · exact absurd h (act?_ne_none (by simp [Service.step, hw, Watcher.crash]))
      · next p hp hq => exact ⟨cursor, p, rfl, hq, hp, Option.map_eq_none_iff.1 h⟩
  | pausing cursor =>
    simp only [moveWatcher, movePausing] at h
    split at h
    · cases h
    · next hc =>
      refine Or.inr ⟨by simpa using hc, Or.inr ?_⟩
      split at h
      · cases h
      · next time hp =>
        split at h
        · cases h
        · next ht => exact ⟨cursor, time, rfl, hp, Nat.lt_of_not_le ht⟩

/-- The move of a watcher whose query breaks down. -/
theorem moveWatcher_of_broken {j : Nat} {key : Key} {cursor : Cursor}
    (hc : w.service.cancelled = false) (hq : w.watchQueries.get? j = some .broken) :
    w.moveWatcher j ⟨key, .asking cursor⟩ = w.act? (.crash j) := by
  simp [moveWatcher, moveAsking, hc, hq]

/-- The move of a watcher whose query is not yet out. -/
theorem moveWatcher_of_none {j : Nat} (key : Key) (cursor : Cursor)
    (hc : w.service.cancelled = false) (hq : w.watchQueries.get? j = none) :
    ∃ u, w.moveWatcher j ⟨key, .asking cursor⟩ = some u ∧ u.service = w.service ∧
      u.watchQueries.get? j = some (Registry.query w.now
        (.blocking w.tag key cursor.waitIndex w.service.watch.waitTime) w.registry).1 := by
  let asked := w.ask (.blocking w.tag key cursor.waitIndex w.service.watch.waitTime)
  refine ⟨{ asked.2 with watchQueries := asked.2.watchQueries.insert j asked.1 }, ?_, rfl, ?_⟩
  · simp [moveWatcher, moveAsking, hc, hq, asked]
  · exact Table.get?_insert_self _ _ _

/-- The move of a watcher whose pause is over. -/
theorem moveWatcher_of_pause {j : Nat} {key : Key} {cursor : Cursor} {time : Nat}
    (hw : w.service.watchers[j]? = some ⟨key, .pausing cursor⟩) (hc : w.service.cancelled = false)
    (hp : w.pauses.get? j = some time) (ht : time ≤ w.now) :
    ∃ u, w.moveWatcher j ⟨key, .pausing cursor⟩ = some u ∧
      u.service = w.service.setWatcher j ⟨key, .asking cursor⟩ := by
  have hstep := Service.step_of_transition (.resumed hw)
  obtain ⟨s, events, notes, hs, -, he⟩ := step_of_act
    (w := { w with pauses := w.pauses.erase j }) (a := .resume j) (by simp [hstep])
  cases hstep.symm.trans hs
  refine ⟨{ w with pauses := w.pauses.erase j }.act (.resume j), ?_, congrArg _ he⟩
  simp [moveWatcher, movePausing, hc, hp, ht]

omit [Registry σ] in
/-- An action that the service can do is one of its world. -/
theorem act?_of_transition {s : Service ρ} {a : Action ρ} {events : List (Event ρ)}
    (h : Service.Transition w.service a s events) :
    ∃ u, w.act? a = some u ∧ u.service = s ∧ u.watchQueries = w.watchQueries := by
  have hstep := Service.step_of_transition h
  obtain ⟨u, hu⟩ := Option.isSome_iff_exists.1 (show (w.act? a).isSome by simp [act?, hstep])
  obtain ⟨s', events', notes, hs, -, rfl⟩ := step_of_act? hu
  cases hstep.symm.trans hs
  exact ⟨_, hu, rfl, rfl⟩

/-! ### The order in which a world lets its tasks move -/

omit [Registry σ] in
private theorem exists_of_firstMove {τ : Type} {move : Nat → τ → Option (World σ ρ)}
    {tasks : List τ} (h : firstMove move tasks = some w') :
    ∃ (i : Nat) (t : τ), tasks[i]? = some t ∧ move i t = some w' := by
  obtain ⟨⟨t, i⟩, ht, hm⟩ := List.exists_of_findSome?_eq_some h
  exact ⟨i, t, List.mem_zipIdx_iff_getElem?.1 ht, hm⟩

/-- The next move of all tasks is a move of a lookup, of a watcher or of a shutdown. -/
theorem exists_of_move? (h : w.move? = some w') :
    (∃ (i : Nat) (l : Lookup ρ), w.service.lookups[i]? = some l ∧ w.moveLookup i l = some w') ∨
      (∃ (j : Nat) (x : Watcher ρ), w.service.watchers[j]? = some x ∧
        w.moveWatcher j x = some w') ∨ ∃ k, w.act? (.shutdown k) = some w' := by
  rw [move?, Option.or_eq_some_iff] at h
  rcases h with h | ⟨-, h⟩
  · exact Or.inl (exists_of_firstMove h)
  rw [Option.or_eq_some_iff] at h
  rcases h with h | ⟨-, h⟩
  · exact Or.inr (Or.inl (exists_of_firstMove h))
  · obtain ⟨k, d, -, hm⟩ := exists_of_firstMove h
    exact Or.inr (Or.inr ⟨k, hm⟩)

end ServiceDiscovery.World
