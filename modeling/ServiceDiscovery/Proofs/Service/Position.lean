import ServiceDiscovery.Proofs.Service.CachedSets

/-!
# Positions

Up to which index of the registry a task knows its key. The lookup that won a claim has a position
from the seeding on and leaves it to the watcher that it starts; a watcher moves on with each
answer. Positions and what tasks have in hand come from answers only.
-/

namespace ServiceDiscovery

/-- The key that a lookup is about to have watched, and the index it was found at. -/
def Lookup.position? {ρ : Type} : Lookup ρ → Option (Key × Nat)
  | .notifying key _ index true _ | .spawning key _ index => some (key, index)
  | _ => none

/-- While a set is delivered, the lookup that won the claim has a position. -/
theorem Lookup.position?_notifying {ρ : Type} (key : Key) (set : EndpointSet) (index : Nat)
    (claimed : Bool) (d : Delivery false ρ) :
    (Lookup.notifying key set index claimed d).position? =
      if claimed then some (key, index) else none := by
  cases claimed <;> rfl

/-- The key of a watcher, and the index that its next query waits after. -/
def Watcher.position? {ρ : Type} (w : Watcher ρ) : Option (Key × Nat) :=
  match w.stage with
  | .asking cursor | .storing cursor _ | .notifying cursor _ | .pausing cursor =>
    some (w.key, cursor.waitIndex)
  | .leaving _ | .ended _ | .crashed => none

namespace Service

variable {ρ : Type}

/-- The position of a task. -/
def position? : Service ρ → Task → Option (Key × Nat) :=
  observe Lookup.position? Watcher.position?

/-- Where a position after an action comes from. -/
inductive PositionSource (s : Service ρ) (a : Action ρ) (t : Task) (key : Key) (n : Nat) : Prop
  /-- The task was there before. -/
  | kept (h : s.position? t = some (key, n))
  /-- The task has seeded a key that was not watched. -/
  | seeded {set : EndpointSet} (ha : a = t.action) (hx : s.inHand? t = some ⟨key, set, n⟩)
      (hk : key ∉ s.cache.watching)
  /-- The task is a watcher that a lookup has started. -/
  | spawned {i index : Nat} (ha : a = .lookup i) (hp : s.position? (.lookup i) = some (key, index))
      (hx : s.inHand? (.lookup i) = none) (hn : n = max index 1)
  /-- The task is a watcher that was answered. -/
  | answered {j : Nat} {cursor : Cursor} {answer : Answer} (ht : t = .watcher j)
      (ha : a = .answerWatcher j (.ok answer)) (hw : s.watchers[j]? = some ⟨key, .asking cursor⟩)
      (hn : n = (cursor.recordSuccess answer.index).waitIndex)

/-- Where something in hand after an action comes from. -/
inductive FindingSource (s : Service ρ) (a : Action ρ) (t : Task) (x : Finding) : Prop
  /-- The task had it in hand before. -/
  | kept (h : s.inHand? t = some x)
  /-- The task is a lookup that was answered. -/
  | found {i : Nat} {answer : Answer} (ht : t = .lookup i)
      (ha : a = .answerLookup i (.ok answer)) (hl : s.lookups[i]? = some (.asking x.key))
      (he : answer.endpoints = (x.set, x.index))
  /-- The task is a watcher that was answered. -/
  | observed {j : Nat} {cursor : Cursor} {answer : Answer} (ht : t = .watcher j)
      (ha : a = .answerWatcher j (.ok answer)) (hw : s.watchers[j]? = some ⟨x.key, .asking cursor⟩)
      (hs : x.set = healthyEndpoints answer.entries)
      (hn : x.index = (cursor.recordSuccess answer.index).waitIndex)

/-- An answer that shows a set is a list of entries. -/
theorem answer_of_observed {result : Except Failure Answer} {set : EndpointSet} {index : Nat}
    (h : Answer.observed result = .ok (set, index)) :
    ∃ answer, result = .ok answer ∧ set = healthyEndpoints answer.entries ∧
      index = answer.index := by
  cases result with
  | error f => cases h
  | ok answer =>
    cases h
    exact ⟨answer, rfl, rfl, rfl⟩

/-- An answer with endpoints for a lookup is a list of entries. -/
theorem answer_of_found {key : Key} {registry : String} {result : Except Failure Answer}
    {set : EndpointSet} {index : Nat} (h : key.found registry result = .ok (set, index)) :
    ∃ answer, result = .ok answer ∧ answer.endpoints = (set, index) := by
  cases result with
  | error f => cases h
  | ok answer =>
    simp only [Key.found] at h
    split at h
    · cases h
    · exact ⟨answer, rfl, Except.ok.inj h⟩

/-- Every position after a transition has one of the four sources. -/
theorem positionSource_of_transition {s s' : Service ρ} {a : Action ρ} {events : List (Event ρ)}
    (h : Transition s a s' events) {t : Task} {key : Key} {n : Nat}
    (hp : s'.position? t = some (key, n)) : PositionSource s a t key n := by
  cases h with
  | called name =>
    refine .kept ?_
    rw [position?, observe_called] at hp
    split at hp
    · cases hp
    · exact hp
  | @seeded i key' set index hl =>
    rw [position?, observe_setLookup (by exact hl), Lookup.position?_notifying] at hp
    split at hp
    · next ht =>
      subst ht
      split at hp
      · next hc =>
        cases hp
        have hx : s.inHand? (.lookup i) = some ⟨key, set, n⟩ := by
          simp [inHand?, observe, hl, Lookup.inHand?]
        exact .seeded rfl hx (by simpa [Cache.isWatched] using hc)
      · cases hp
    · exact .kept hp
  | @spawned i key' set index hl _ =>
    rw [position?, observe_setLookup (by exact hl), observe_spawn] at hp
    split at hp
    · cases hp
    · split at hp
      · cases hp
        refine .spawned rfl ?_ ?_ rfl
        · simp [position?, observe, hl, Lookup.position?, Watcher.start]
        · simp [inHand?, observe, hl, Lookup.inHand?]
      · exact .kept hp
  | @withdrawn i key' set index hl _ =>
    rw [position?, observe_setLookup (by exact hl)] at hp
    split at hp
    · cases hp
    · exact .kept hp
  | @observed j key' cursor result set index hw hr =>
    rw [position?, observe_setWatcher (by exact hw)] at hp
    split at hp
    · next ht =>
      obtain ⟨answer, rfl, -, rfl⟩ := answer_of_observed hr
      cases hp
      exact .answered ht rfl hw rfl
    · exact .kept hp
  | gaveUp hw _ _ | recalled hw _ | roused hw _ | crashed hw | left hw =>
    rw [position?, observe_setWatcher (by exact hw)] at hp
    split at hp
    · cases hp
    · exact .kept hp
  | refused hl _ | admitted hl _ | served hl _ _ | missed hl _ | found hl _ | failed hl _ | won hl
  | lost hl =>
    refine .kept (.trans (Eq.symm (observe_setLookup_of_eq (by exact hl) ?_ t)) hp)
    rfl
  | told hl ho =>
    refine .kept (.trans (Eq.symm (observe_setLookup_of_eq (by exact hl) ?_ t)) hp)
    rw [Lookup.position?_notifying, Lookup.position?_notifying]
  | stumbled hw _ _ | resumed hw | rearmed hw | stored hw | relayed hw _ =>
    refine .kept (.trans (Eq.symm (observe_setWatcher_of_eq (by exact hw) ?_ t)) hp)
    rfl
  | shutdownCalled | requested _ | took _ | joined _ _ | invalidated _ | subscribed _ _
  | unsubscribed _ _ => exact .kept hp

/-- Everything in hand after a transition has one of the three sources. -/
theorem findingSource_of_transition {s s' : Service ρ} {a : Action ρ} {events : List (Event ρ)}
    (h : Transition s a s' events) {t : Task} {x : Finding} (hx : s'.inHand? t = some x) :
    FindingSource s a t x := by
  cases h with
  | called name =>
    refine .kept ?_
    rw [inHand?, observe_called] at hx
    split at hx
    · cases hx
    · exact hx
  | @found i key result set index hl hr =>
    rw [inHand?, observe_setLookup hl] at hx
    split at hx
    · next ht =>
      obtain ⟨answer, rfl, he⟩ := answer_of_found hr
      cases hx
      exact .found ht rfl hl he
    · exact .kept hx
  | @observed j key cursor result set index hw hr =>
    rw [inHand?, observe_setWatcher hw] at hx
    split at hx
    · next ht =>
      obtain ⟨answer, rfl, hs, rfl⟩ := answer_of_observed hr
      cases hx
      exact .observed ht rfl hw hs rfl
    · exact .kept hx
  | @spawned i key set index hl _ =>
    rw [inHand?, observe_setLookup (by exact hl), observe_spawn] at hx
    split at hx
    · cases hx
    · split at hx
      · cases hx
      · exact .kept hx
  | seeded hl | refused hl _ | admitted hl _ | served hl _ _ | missed hl _ | failed hl _ | told hl _
  | won hl | lost hl | withdrawn hl _ =>
    rw [inHand?, observe_setLookup (by exact hl)] at hx
    split at hx
    · cases hx
    · exact .kept hx
  | stumbled hw _ _ | gaveUp hw _ _ | resumed hw | recalled hw _ | roused hw _ | crashed hw
  | stored hw | relayed hw _ | rearmed hw | left hw =>
    rw [inHand?, observe_setWatcher (by exact hw)] at hx
    split at hx
    · cases hx
    · exact .kept hx
  | shutdownCalled | requested _ | took _ | joined _ _ | invalidated _ | subscribed _ _
  | unsubscribed _ _ => exact .kept hx

/-- What is in hand is given up by storing it, and in no other way. -/
theorem action_of_inHand? {s s' : Service ρ} {a : Action ρ} {events : List (Event ρ)}
    (h : Transition s a s' events) {t : Task} {x : Finding} (hx : s.inHand? t = some x)
    (hx' : s'.inHand? t = none) : a = t.action := by
  have ha : a.task? = some t := Decidable.byContradiction fun hne => by
    rw [inHand?, observe_of_task_ne h hne hx] at hx'
    cases hx'
  exact (stored_of_inHand? h ha hx).1

/-- Whoever has a position of a key holds its claim. -/
theorem held?_of_position? {s : Service ρ} {t : Task} {key : Key} {n : Nat}
    (h : s.position? t = some (key, n)) : s.held? t = some key := by
  cases t with
  | lookup i =>
    obtain ⟨l, hl, hp⟩ := Option.bind_eq_some_iff.1 h
    cases l with
    | notifying k set index claimed d =>
      rw [Lookup.position?_notifying] at hp
      split at hp
      · next hc =>
        cases hp
        simp [held?, observe, hl, Lookup.held?, hc]
      · cases hp
    | spawning k set index =>
      cases hp
      simp [held?, observe, hl, Lookup.held?]
    | _ => cases hp
  | watcher j =>
    obtain ⟨⟨k, stage⟩, hw, hp⟩ := Option.bind_eq_some_iff.1 h
    cases stage with
    | asking cursor | storing cursor _ | notifying cursor _ | pausing cursor =>
      cases hp
      simp [held?, observe, hw, Watcher.held?, Watcher.isOver]
    | _ => cases hp

/-- A watcher whose query is out stands at the index that the query waits after. -/
theorem position?_of_asking {s : Service ρ} {j : Nat} {key : Key} {cursor : Cursor}
    (hw : s.watchers[j]? = some ⟨key, .asking cursor⟩) :
    s.position? (.watcher j) = some (key, cursor.waitIndex) := by
  simp [position?, observe, hw, Watcher.position?]

/-- A watcher with something in hand stands at its index; a lookup has no position yet. -/
theorem position?_of_inHand? {s : Service ρ} {t : Task} {x : Finding}
    (hx : s.inHand? t = some x) :
    s.position? t = match t with
      | .lookup _ => none
      | .watcher _ => some (x.key, x.index) := by
  cases t with
  | lookup i => simp [position?, observe, lookup_of_inHand? hx, Lookup.position?]
  | watcher j =>
    obtain ⟨cursor, hw, hi⟩ := watcher_of_inHand? hx
    simp [position?, observe, hw, Watcher.position?, hi]

/-- A task that stores what it has in hand stands at its index, unless it is a lookup that does not
win the claim. -/
theorem position?_of_stored {s s' : Service ρ} {t : Task} {x : Finding} {events : List (Event ρ)}
    (h : Transition s t.action s' events) (hx : s.inHand? t = some x)
    (hk : ∀ i, t = .lookup i → x.key ∉ s.cache.watching) :
    s'.position? t = some (x.key, x.index) := by
  cases t with
  | lookup i =>
    have hl := lookup_of_inHand? hx
    have hc : s.cache.isWatched x.key = false := by simpa [Cache.isWatched] using hk i rfl
    rw [seeded_of_inHand? h hx, position?, observe_setLookup (by exact hl), if_pos rfl,
      Lookup.position?_notifying, hc]
    rfl
  | watcher j =>
    obtain ⟨cursor, hw, hi, rfl⟩ := updated_of_inHand? h hx
    rw [position?, observe_setWatcher (by exact hw), if_pos rfl, ← hi]
    rfl

/-- A watcher that was answered has something in hand. -/
theorem inHand?_of_answered {s s' : Service ρ} {j : Nat} {answer : Answer}
    {events : List (Event ρ)} (h : Transition s (.answerWatcher j (.ok answer)) s' events) :
    s'.inHand? (.watcher j) ≠ none := by
  cases h with
  | observed hw _ =>
    rw [inHand?, observe_setWatcher hw, if_pos rfl]
    exact Option.some_ne_none _
  | stumbled _ hr _ | gaveUp _ hr _ => cases hr

/-- A position of a key that is not stored was there before, up to the watcher that a lookup
starts. -/
theorem position_source {s s' : Service ρ} {a : Action ρ} {events : List (Event ρ)}
    (h : Transition s a s' events) {t : Task} {key : Key} {n : Nat}
    (hp : s'.position? t = some (key, n)) (hx : s'.inHand? t = none)
    (hn : ∀ u x, a = u.action → s.inHand? u = some x → x.key ≠ key) :
    ∃ u m, s.position? u = some (key, m) ∧ s.inHand? u = none ∧ (n = m ∨ n = max m 1) := by
  cases positionSource_of_transition h hp with
  | kept hp' =>
    cases hy : s.inHand? t with
    | none => exact ⟨t, n, hp', hy, Or.inl rfl⟩
    | some y =>
      have hy' := position?_of_inHand? hy
      rw [hp'] at hy'
      cases t with
      | lookup i => cases hy'
      | watcher j =>
        cases hy'
        exact absurd rfl (hn _ y (action_of_inHand? h hy hx) hy)
  | seeded ha hx' _ => exact absurd rfl (hn t _ ha hx')
  | @spawned i index ha hp' hx' hn' => exact ⟨.lookup i, index, hp', hx', Or.inr hn'⟩
  | answered ht ha _ _ =>
    subst ht ha
    exact absurd hx (inHand?_of_answered h)

end Service

end ServiceDiscovery
