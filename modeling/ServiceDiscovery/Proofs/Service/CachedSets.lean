import ServiceDiscovery.Proofs.Service.Claims

/-!
# Cached sets

Where the sets in the cache of a service come from and when they go. A task that was answered has
the answer in hand until its next step stores it; nothing else puts a set into the cache. Whoever
stores a set holds the claim of its key or takes it in the same step, and a claim is given back
together with the set, so a cached set never outlives the watching of its key.
-/

namespace ServiceDiscovery

/-- What a task has learnt of a key and not yet stored. -/
structure Finding where
  key : Key
  set : EndpointSet
  /-- The index that the task goes on from. -/
  index : Nat

/-- What a lookup has in hand. -/
def Lookup.inHand? {ρ : Type} : Lookup ρ → Option Finding
  | .seeding key set index => some ⟨key, set, index⟩
  | _ => none

/-- What a watcher has in hand. -/
def Watcher.inHand? {ρ : Type} (w : Watcher ρ) : Option Finding :=
  match w.stage with
  | .storing cursor set => some ⟨w.key, set, cursor.waitIndex⟩
  | _ => none

namespace Service

variable {ρ : Type}

/-- What a task has in hand. -/
def inHand? : Service ρ → Task → Option Finding := observe Lookup.inHand? Watcher.inHand?

/-- A lookup with something in hand is about to seed the cache with it. -/
theorem lookup_of_inHand? {s : Service ρ} {i : Nat} {x : Finding}
    (h : s.inHand? (.lookup i) = some x) :
    s.lookups[i]? = some (.seeding x.key x.set x.index) := by
  obtain ⟨l, hl, hx⟩ := Option.bind_eq_some_iff.1 h
  cases l with
  | seeding key set index =>
    cases hx
    exact hl
  | _ => cases hx

/-- A watcher with something in hand is about to store it. -/
theorem watcher_of_inHand? {s : Service ρ} {j : Nat} {x : Finding}
    (h : s.inHand? (.watcher j) = some x) :
    ∃ cursor, s.watchers[j]? = some ⟨x.key, .storing cursor x.set⟩ ∧
      cursor.waitIndex = x.index := by
  obtain ⟨⟨key, stage⟩, hw, hx⟩ := Option.bind_eq_some_iff.1 h
  cases stage with
  | storing cursor set =>
    cases hx
    exact ⟨cursor, hw, rfl⟩
  | _ => cases hx

/-- A lookup with something in hand seeds the cache with it. -/
theorem seeded_of_inHand? {s s' : Service ρ} {i : Nat} {x : Finding} {events : List (Event ρ)}
    (h : Transition s (.lookup i) s' events) (hx : s.inHand? (.lookup i) = some x) :
    s' = { s with cache := (s.cache.seed x.key x.set).2.2 }.setLookup i
      (.notifying x.key x.set x.index (!s.cache.isWatched x.key)
        (.ofNotification (s.cache.seed x.key x.set).2.1)) := by
  have hl := lookup_of_inHand? hx
  cases h with
  | seeded hl' =>
    rw [hl'] at hl
    cases hl
    rfl
  | refused hl' _ | admitted hl' _ | served hl' _ _ | missed hl' _ | told hl' _ | won hl'
  | lost hl' | withdrawn hl' _ | spawned hl' _ =>
    rw [hl'] at hl
    cases hl

/-- A watcher with something in hand stores it. -/
theorem updated_of_inHand? {s s' : Service ρ} {j : Nat} {x : Finding} {events : List (Event ρ)}
    (h : Transition s (.watcher j) s' events) (hx : s.inHand? (.watcher j) = some x) :
    ∃ cursor, s.watchers[j]? = some ⟨x.key, .storing cursor x.set⟩ ∧ cursor.waitIndex = x.index ∧
      s' = { s with cache := (s.cache.update x.key x.set).2.2 }.setWatcher j
        ⟨x.key, .notifying cursor (.ofNotification (s.cache.update x.key x.set).2.1)⟩ := by
  obtain ⟨cursor, hw, hi⟩ := watcher_of_inHand? hx
  refine ⟨cursor, hw, hi, ?_⟩
  cases h with
  | stored hw' =>
    rw [hw'] at hw
    cases hw
    rfl
  | relayed hw' _ | rearmed hw' | left hw' =>
    rw [hw'] at hw
    cases hw

/-- What an action does to the cached sets. -/
inductive CacheChange (s : Service ρ) (a : Action ρ) (s' : Service ρ) : Prop
  /-- The acting task stores what it has in hand. -/
  | stored (t : Task) (x : Finding) (ha : a = t.action) (hx : s.inHand? t = some x)
      (hg : ∀ key, s'.cache.get? key = if x.key = key then some x.set else s.cache.get? key)
  /-- Nothing is stored. -/
  | dropped (hn : ∀ t, a.task? = some t → s.inHand? t = none)
      (hg : ∀ key, s'.cache.get? key = s.cache.get? key ∨ s'.cache.get? key = none)

private theorem inHand?_lookup_eq_none {s : Service ρ} {i : Nat} {l : Lookup ρ}
    (hl : s.lookups[i]? = some l) (hn : l.inHand? = none) {a : Action ρ}
    (ha : a.task? = some (.lookup i)) (t : Task) (ht : a.task? = some t) : s.inHand? t = none := by
  rw [ha] at ht
  cases ht
  simp [inHand?, observe, hl, hn]

private theorem inHand?_watcher_eq_none {s : Service ρ} {j : Nat} {w : Watcher ρ}
    (hw : s.watchers[j]? = some w) (hn : w.inHand? = none) {a : Action ρ}
    (ha : a.task? = some (.watcher j)) (t : Task) (ht : a.task? = some t) : s.inHand? t = none := by
  rw [ha] at ht
  cases ht
  simp [inHand?, observe, hw, hn]

/-- Every transition changes the cached sets in one of the two ways. -/
theorem cacheChange_of_transition {s s' : Service ρ} {a : Action ρ} {events : List (Event ρ)}
    (h : Transition s a s' events) : CacheChange s a s' := by
  cases h with
  | @seeded i key set index hl =>
    refine .stored (.lookup i) ⟨key, set, index⟩ rfl ?_ fun k => Cache.get?_seed s.cache key k set
    simp [inHand?, observe, hl, Lookup.inHand?]
  | @stored j key cursor set hw =>
    refine .stored (.watcher j) ⟨key, set, cursor.waitIndex⟩ rfl ?_ fun k =>
      Cache.get?_store s.cache key k set
    simp [inHand?, observe, hw, Watcher.inHand?]
  | refused hl _ | admitted hl _ | served hl _ _ | missed hl _ | found hl _ | failed hl _ | won hl
  | lost hl | spawned hl _ =>
    exact .dropped (inHand?_lookup_eq_none hl rfl rfl) fun key => Or.inl rfl
  | told hl ho => exact .dropped (inHand?_lookup_eq_none hl rfl rfl) (Delivery.get?_step ho)
  | withdrawn hl _ =>
    exact .dropped (inHand?_lookup_eq_none hl rfl rfl) (s.cache.get?_release_or _)
  | observed hw _ | stumbled hw _ _ | gaveUp hw _ _ | resumed hw | recalled hw _ | roused hw _
  | crashed hw | rearmed hw =>
    exact .dropped (inHand?_watcher_eq_none hw rfl rfl) fun key => Or.inl rfl
  | relayed hw ho => exact .dropped (inHand?_watcher_eq_none hw rfl rfl) (Delivery.get?_step ho)
  | left hw => exact .dropped (inHand?_watcher_eq_none hw rfl rfl) (s.cache.get?_release_or _)
  | invalidated name => exact .dropped (fun t ht => by cases ht) (s.cache.get?_invalidate_or _)
  | called _ | shutdownCalled | requested _ | took _ | joined _ _ | subscribed _ _
  | unsubscribed _ _ => exact .dropped (fun t ht => by cases ht) fun key => Or.inl rfl

/-- The next step of a task with something in hand stores it, and does nothing else to the cache. -/
theorem stored_of_inHand? {s s' : Service ρ} {a : Action ρ} {events : List (Event ρ)}
    (h : Transition s a s' events) {t : Task} {x : Finding} (ha : a.task? = some t)
    (hx : s.inHand? t = some x) :
    a = t.action ∧
      ∀ key, s'.cache.get? key = if x.key = key then some x.set else s.cache.get? key := by
  cases cacheChange_of_transition h with
  | stored u y hu hy hget =>
    rw [hu, Task.task?_action] at ha
    cases ha
    rw [hx] at hy
    cases hy
    exact ⟨hu, hget⟩
  | dropped hn _ =>
    rw [hn t ha] at hx
    cases hx

/-- A set that is cached after a transition is stored by it, or was cached before and its key is not
stored. -/
theorem cached_source {s s' : Service ρ} {a : Action ρ} {events : List (Event ρ)}
    (h : Transition s a s' events) {key : Key} {set : EndpointSet}
    (hg : s'.cache.get? key = some set) :
    (∃ t n, a = t.action ∧ s.inHand? t = some ⟨key, set, n⟩) ∨
      (∀ t x, a = t.action → s.inHand? t = some x → x.key ≠ key) ∧
        s.cache.get? key = some set := by
  cases cacheChange_of_transition h with
  | stored t x ha hx hget =>
    rw [hget] at hg
    split at hg
    · next hk =>
      subst hk
      cases hg
      exact Or.inl ⟨t, x.index, ha, hx⟩
    · next hk =>
      refine Or.inr ⟨fun u y hu hy => ?_, hg⟩
      cases Task.action_inj (ha.symm.trans hu)
      rw [hx] at hy
      cases hy
      exact hk
  | dropped hn hget =>
    refine Or.inr ⟨fun t x ha hx => ?_, ?_⟩
    · rw [hn t (ha ▸ Task.task?_action t)] at hx
      cases hx
    · rcases hget key with hsame | hnone
      · exact hsame.symm.trans hg
      · rw [hnone] at hg
        cases hg

/-- Whoever stores a set holds the claim of its key afterwards, or somebody else does. -/
theorem mem_watching_of_inHand? {s s' : Service ρ} {t : Task} {x : Finding}
    {events : List (Event ρ)} (hs : s.Accounted) (h : Transition s t.action s' events)
    (hx : s.inHand? t = some x) : x.key ∈ s'.cache.watching := by
  cases t with
  | lookup i =>
    rw [seeded_of_inHand? h hx]
    exact Cache.mem_watching_seed.2 (Or.inl rfl)
  | watcher j =>
    obtain ⟨cursor, hw, -, rfl⟩ := updated_of_inHand? h hx
    have hheld : s.held? (.watcher j) = some x.key := by
      simp [held?, observe, hw, Watcher.held?, Watcher.isOver]
    exact (Cache.watching_store s.cache x.key x.set) ▸ hs.watched _ _ hheld

/-- A key stays watched while its set stays cached. -/
theorem ClaimChange.mem_watching {s s' : Service ρ} {a : Action ρ} (hc : ClaimChange s a s')
    {key : Key} (hk : key ∈ s.cache.watching) {set : EndpointSet}
    (hg : s'.cache.get? key = some set) : key ∈ s'.cache.watching := by
  cases hc with
  | kept hw _ => exact hw ▸ hk
  | taken _ _ _ _ _ hw _ => exact hw ▸ List.mem_append_left _ hk
  | passed _ _ _ _ hw _ => exact hw ▸ hk
  | given _ released _ _ hw hn _ =>
    refine hw ▸ List.mem_filter.2 ⟨hk, decide_eq_true fun he => ?_⟩
    rw [he, hn] at hg
    cases hg

/-- In every reached service, a key with a cached set is watched. -/
theorem Reached.mem_watching_of_get? {s : Service ρ} (h : s.Reached) {key : Key}
    {set : EndpointSet} (hg : s.cache.get? key = some set) : key ∈ s.cache.watching := by
  induction h generalizing set with
  | start registry agent watch => cases hg
  | @step s s' a events hs ha hstep ih =>
    have ht := transition_of_step hstep
    have hc := claimChange_of_transition ha ht
    cases cacheChange_of_transition ht with
    | stored t x he hx hget =>
      by_cases hk : x.key = key
      · exact hk ▸ mem_watching_of_inHand? hs.accounted (he ▸ ht) hx
      · rw [hget, if_neg hk] at hg
        exact hc.mem_watching (ih hg) ((hget key).trans ((if_neg hk).trans hg))
    | dropped _ hget =>
      rcases hget key with hsame | hnone
      · exact hc.mem_watching (ih (hsame.symm.trans hg)) hg
      · rw [hnone] at hg
        cases hg

/-- What a step of a leaving watcher does: claim and set of its key go together, and nothing else
changes. -/
theorem leave_of_leaving {s : Service ρ} {j : Nat} {key : Key} {exit : WatchExit}
    (hw : s.watchers[j]? = some ⟨key, .leaving exit⟩) :
    ∃ s', s.step (.watcher j) = some (s', []) ∧ s'.watchers[j]? = some ⟨key, .ended exit⟩ ∧
      key ∉ s'.cache.watching ∧ s'.cache.get? key = none ∧
      ∀ other, other ≠ key → (other ∈ s'.cache.watching ↔ other ∈ s.cache.watching) ∧
        s'.cache.get? other = s.cache.get? other := by
  have hj : j < s.watchers.length := (List.getElem?_eq_some_iff.1 hw).1
  refine ⟨{ s with cache := s.cache.release key }.setWatcher j ⟨key, .ended exit⟩,
    ?_, ?_, ?_, ?_, ?_⟩
  · simp [step, hw, stepWatcher, Watcher.advance]
  · simp [setWatcher, hj]
  · exact fun hk => (Cache.mem_watching_release.1 hk).2 rfl
  · exact (Cache.get?_release s.cache key key).trans (if_pos rfl)
  · intro other ho
    constructor
    · exact Cache.mem_watching_release.trans (and_iff_left ho)
    · exact (Cache.get?_release s.cache key other).trans (if_neg (Ne.symm ho))

/-- A key whose set is cached, empty or not, is watched and has a task that holds its claim; so has
the key of every set that a lookup returns from the cache. A claim never goes without the set, and a
watcher that leaves drops both of its key in one step. -/
theorem cached_watched {s : Service ρ} (h : s.Reached) :
    (∀ key set, s.cache.get? key = some set →
      key ∈ s.cache.watching ∧ ∃ t, s.held? t = some key) ∧
    (∀ i key, s.lookups[i]? = some (.reading key) →
      ∀ s' events set, s.step (.lookup i) = some (s', events) →
        s'.lookups[i]? = some (.finished (.ok set)) →
        s.cache.get? key = some set ∧ ∃ t, s.held? t = some key) ∧
    (∀ a s' events, (∀ j, a ≠ .crash j) → s.step a = some (s', events) →
      ∀ key ∈ s.cache.watching, key ∉ s'.cache.watching → s'.cache.get? key = none) ∧
    (∀ j key exit, s.watchers[j]? = some ⟨key, .leaving exit⟩ →
      key ∈ s.cache.watching ∧
      ∃ s', s.step (.watcher j) = some (s', []) ∧ s'.watchers[j]? = some ⟨key, .ended exit⟩ ∧
        key ∉ s'.cache.watching ∧ s'.cache.get? key = none ∧
        ∀ other, other ≠ key → (other ∈ s'.cache.watching ↔ other ∈ s.cache.watching) ∧
          s'.cache.get? other = s.cache.get? other) := by
  have hheld {key : Key} {set : EndpointSet} (hg : s.cache.get? key = some set) :
      key ∈ s.cache.watching ∧ ∃ t, s.held? t = some key := by
    have hk := h.mem_watching_of_get? hg
    exact ⟨hk, h.accounted.holder key hk⟩
  refine ⟨fun key set => hheld, ?_, ?_, ?_⟩
  · intro i key hl s' events set hstep hl'
    have hi : i < s.lookups.length := (List.getElem?_eq_some_iff.1 hl).1
    cases transition_of_step hstep with
    | served hl'' hs hne =>
      rw [hl] at hl''
      cases hl''
      simp only [setLookup, List.getElem?_set_self hi] at hl'
      cases hl'
      exact ⟨hs, (hheld hs).2⟩
    | missed hl'' _ =>
      simp only [setLookup, List.getElem?_set_self hi] at hl'
      cases hl'
    | refused hl'' _ | admitted hl'' _ | seeded hl'' | told hl'' _ | won hl'' | lost hl''
    | withdrawn hl'' _ | spawned hl'' _ =>
      rw [hl] at hl''
      cases hl''
  · intro a s' events ha hstep key hk hk'
    have hc := claimChange_of_transition ha (transition_of_step hstep)
    cases hg : s'.cache.get? key with
    | none => rfl
    | some set => exact absurd (hc.mem_watching hk hg) hk'
  · intro j key exit hw
    have hj : s.held? (.watcher j) = some key := by
      simp [held?, observe, hw, Watcher.held?, Watcher.isOver]
    exact ⟨h.accounted.watched _ _ hj, leave_of_leaving hw⟩

/-- The contested service after its watcher has noticed a shutdown. -/
def recalled : Service Unit :=
  ((contested.run [.callShutdown, .shutdown 0, .cancel 0]).getD (contested, [])).1

/-- The shutdown leads to a reached service. -/
theorem reached_recalled : recalled.Reached := by
  have hr : contested.run [.callShutdown, .shutdown 0, .cancel 0] = some (recalled, []) := rfl
  exact reached_contested.run (by simp) hr

/-- The set of the contested key is cached while its watcher leaves, and goes with the claim. -/
theorem cached_recalled :
    recalled.Reached ∧ (recalled.cache.get? (.ofName "api")).isSome ∧
      Key.ofName "api" ∈ recalled.cache.watching ∧
      ∃ s', recalled.step (.watcher 0) = some (s', []) ∧
        Key.ofName "api" ∉ s'.cache.watching ∧ s'.cache.get? (.ofName "api") = none := by
  have hw : recalled.watchers[0]? = some ⟨.ofName "api", .leaving .cancelled⟩ := rfl
  obtain ⟨-, -, -, hleave⟩ := cached_watched reached_recalled
  obtain ⟨hk, s', hs, -, hn, hg, -⟩ := hleave 0 _ _ hw
  exact ⟨reached_recalled, by decide, hk, s', hs, hn, hg⟩

end Service

end ServiceDiscovery
