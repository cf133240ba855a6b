import ServiceDiscovery.Proofs.Service.Task
import ServiceDiscovery.Proofs.Subscription.Log

/-!
# Watch claims

Who holds the claim of a watched key. A lookup holds it from the step in which it won the claim
until it has started the watcher or given the claim back; a watcher holds it from its start until it
has dropped set and claim. The watched keys are the keys that are held, each by one task, whatever
the order of the tasks' steps is; so a key has one live watcher at most.
-/

namespace ServiceDiscovery

namespace Delivery

variable {ρ : Type}

/-- Handlers of a service do not touch the watch claims. -/
theorem watching_step {c : HandlerCache false ρ} {d : Delivery false ρ} {o : Outcome false ρ}
    (h : d.step c = some o) : o.cache.watching = c.watching := by
  cases d with
  | nil => cases h
  | cons frame rest =>
    cases frame with
    | call set handlers => cases handlers <;> cases h <;> rfl
    | run script =>
      cases script with
      | write allowed => cases allowed
      | _ => cases h; rfl

/-- Handlers of a service can drop cached sets and cannot store any. -/
theorem get?_step {c : HandlerCache false ρ} {d : Delivery false ρ} {o : Outcome false ρ}
    (h : d.step c = some o) (key : Key) :
    o.cache.get? key = c.get? key ∨ o.cache.get? key = none := by
  rcases content_of_step h key with hg | ⟨hwrites, -⟩
  · exact hg
  · cases hwrites

end Delivery

/-- The key whose claim a lookup holds. -/
def Lookup.held? {ρ : Type} : Lookup ρ → Option Key
  | .notifying key _ _ true _ | .spawning key _ _ => some key
  | _ => none

/-- While a set is delivered, the lookup that won the claim holds it. -/
theorem Lookup.held?_notifying {ρ : Type} (key : Key) (set : EndpointSet) (index : Nat)
    (claimed : Bool) (d : Delivery false ρ) :
    (Lookup.notifying key set index claimed d).held? = if claimed then some key else none := by
  cases claimed <;> rfl

/-- The key whose claim a watcher holds. -/
def Watcher.held? {ρ : Type} (w : Watcher ρ) : Option Key := if w.isOver then none else some w.key

namespace Service

variable {ρ : Type}

/-- The key whose claim a task holds. -/
def held? : Service ρ → Task → Option Key := observe Lookup.held? Watcher.held?

/-- What an action does to the watch claims. -/
inductive ClaimChange (s : Service ρ) (a : Action ρ) (s' : Service ρ) : Prop
  /-- Every claim stays where it is. -/
  | kept (hw : s'.cache.watching = s.cache.watching) (hh : ∀ t, s'.held? t = s.held? t)
  /-- The acting task claims a key that is not watched. -/
  | taken (t : Task) (key : Key) (ha : a.task? = some t) (hn : s.held? t = none)
      (hf : key ∉ s.cache.watching) (hw : s'.cache.watching = s.cache.watching ++ [key])
      (hh : ∀ u, s'.held? u = if u = t then some key else s.held? u)
  /-- The acting task hands its claim to a new watcher. -/
  | passed (t : Task) (key : Key) (ha : a.task? = some t) (ht : s.held? t = some key)
      (hw : s'.cache.watching = s.cache.watching)
      (hh : ∀ u, s'.held? u =
        if u = t then none else if u = .watcher s.watchers.length then some key else s.held? u)
  /-- The acting task gives its claim back and drops the cached set with it. -/
  | given (t : Task) (key : Key) (ha : a.task? = some t) (ht : s.held? t = some key)
      (hw : s'.cache.watching = s.cache.watching.filter (· ≠ key)) (hg : s'.cache.get? key = none)
      (hh : ∀ u, s'.held? u = if u = t then none else s.held? u)

private theorem claimChange_seeded {s : Service ρ} {i : Nat} {key : Key} {set : EndpointSet}
    {index : Nat} (hl : s.lookups[i]? = some (.seeding key set index)) :
    ClaimChange s (.lookup i)
      ({ s with cache := (s.cache.seed key set).2.2 }.setLookup i
        (.notifying key set index (!s.cache.isWatched key)
          (.ofNotification (s.cache.seed key set).2.1))) := by
  have hw := Cache.watching_seed s.cache key set
  by_cases hk : key ∈ s.cache.watching
  · have hc : s.cache.isWatched key = true := by simpa [Cache.isWatched] using hk
    refine .kept ?_ ?_
    · exact hw.trans (by simp [Cache.claim, hk])
    · refine observe_setLookup_of_eq (by exact hl) ?_
      simp [Lookup.held?, hc]
  · have hc : s.cache.isWatched key = false := by simpa [Cache.isWatched] using hk
    refine .taken (.lookup i) key rfl ?_ hk ?_ ?_
    · simp [held?, observe, hl, Lookup.held?]
    · exact hw.trans (by simp [Cache.claim, hk])
    · intro u
      refine (observe_setLookup (by exact hl) _ u).trans ?_
      simp [held?, hc, Lookup.held?]

private theorem claimChange_spawned {s : Service ρ} {i : Nat} {key : Key} {set : EndpointSet}
    {index : Nat} (hl : s.lookups[i]? = some (.spawning key set index)) :
    ClaimChange s (.lookup i) ((s.spawn key index).setLookup i (.finished (.ok set))) := by
  refine .passed (.lookup i) key rfl ?_ rfl ?_
  · simp [held?, observe, hl, Lookup.held?]
  · intro u
    refine (observe_setLookup (by exact hl) _ u).trans ?_
    rw [observe_spawn]
    rfl

private theorem claimChange_withdrawn {s : Service ρ} {i : Nat} {key : Key} {set : EndpointSet}
    {index : Nat} (hl : s.lookups[i]? = some (.spawning key set index)) :
    ClaimChange s (.lookup i)
      ({ s with cache := s.cache.release key }.setLookup i (.finished (.error .shuttingDown))) := by
  refine .given (.lookup i) key rfl ?_ rfl ?_ ?_
  · simp [held?, observe, hl, Lookup.held?]
  · exact (Cache.get?_release s.cache key key).trans (if_pos rfl)
  · exact observe_setLookup (by exact hl) _

private theorem claimChange_left {s : Service ρ} {j : Nat} {key : Key} {exit : WatchExit}
    (hw : s.watchers[j]? = some ⟨key, .leaving exit⟩) :
    ClaimChange s (.watcher j)
      ({ s with cache := s.cache.release key }.setWatcher j ⟨key, .ended exit⟩) := by
  refine .given (.watcher j) key rfl ?_ rfl ?_ ?_
  · simp [held?, observe, hw, Watcher.held?, Watcher.isOver]
  · exact (Cache.get?_release s.cache key key).trans (if_pos rfl)
  · exact observe_setWatcher (by exact hw) _

/-- Without a breakdown, every transition changes the claims in one of the four ways. -/
theorem claimChange_of_transition {s s' : Service ρ} {a : Action ρ} {events : List (Event ρ)}
    (ha : ∀ j, a ≠ .crash j) (h : Transition s a s' events) : ClaimChange s a s' := by
  cases h with
  | called name =>
    refine .kept rfl fun t => ?_
    refine (observe_called s name t).trans ?_
    split
    · next ht => rw [ht, held?, observe_next_lookup]; rfl
    · rfl
  | seeded hl => exact claimChange_seeded hl
  | spawned hl _ => exact claimChange_spawned hl
  | withdrawn hl _ => exact claimChange_withdrawn hl
  | left hw => exact claimChange_left hw
  | crashed hw => exact absurd rfl (ha _)
  | refused hl _ | admitted hl _ | served hl _ _ | missed hl _ | found hl _ | failed hl _ | won hl
  | lost hl => exact .kept rfl (observe_setLookup_of_eq hl rfl)
  | told hl ho =>
    refine .kept (Delivery.watching_step ho) (observe_setLookup_of_eq (by exact hl) ?_)
    rw [Lookup.held?_notifying, Lookup.held?_notifying]
  | observed hw _ | stumbled hw _ _ | gaveUp hw _ _ | resumed hw | recalled hw _ | roused hw _
  | rearmed hw => exact .kept rfl (observe_setWatcher_of_eq hw rfl)
  | stored hw =>
    refine .kept (Cache.watching_store s.cache _ _) (observe_setWatcher_of_eq (by exact hw) ?_)
    rfl
  | relayed hw ho =>
    refine .kept (Delivery.watching_step ho) (observe_setWatcher_of_eq (by exact hw) ?_)
    rfl
  | shutdownCalled | requested _ | took _ | joined _ _ | invalidated _ | subscribed _ _
  | unsubscribed _ _ => exact .kept rfl fun t => rfl

/-- Every watched key is held by one task, and whoever holds a key has it watched. -/
structure Accounted (s : Service ρ) : Prop where
  nodup : s.cache.watching.Nodup
  holder : ∀ key ∈ s.cache.watching, ∃ t, s.held? t = some key
  watched : ∀ t key, s.held? t = some key → key ∈ s.cache.watching
  unique : ∀ t u key, s.held? t = some key → s.held? u = some key → t = u

/-- A service without tasks is accounted for. -/
theorem accounted_start (registry : String) (agent : Agent) (watch : WatchConfig) :
    (start registry agent watch : Service ρ).Accounted := by
  have hh (t : Task) : (start registry agent watch : Service ρ).held? t = none := by
    cases t <;> rfl
  constructor
  · exact .nil
  · intro key hk
    cases hk
  · intro t key ht
    rw [hh] at ht
    cases ht
  · intro t u key ht
    rw [hh] at ht
    cases ht

private theorem accounted_taken {s s' : Service ρ} (h : s.Accounted) {t : Task} {key : Key}
    (hn : s.held? t = none) (hf : key ∉ s.cache.watching)
    (hw : s'.cache.watching = s.cache.watching ++ [key])
    (hh : ∀ u, s'.held? u = if u = t then some key else s.held? u) : s'.Accounted := by
  have hold {u : Task} {k : Key} (hu : s'.held? u = some k) :
      (u = t ∧ k = key) ∨ (u ≠ t ∧ s.held? u = some k) := by
    rw [hh] at hu
    split at hu
    · next he => exact Or.inl ⟨he, (Option.some.inj hu).symm⟩
    · next he => exact Or.inr ⟨he, hu⟩
  have hfree {u : Task} (hu : s.held? u = some key) : False := hf (h.watched u key hu)
  constructor
  · rw [hw, List.nodup_append]
    refine ⟨h.nodup, by simp, ?_⟩
    intro a ha b hb he
    rw [List.mem_singleton] at hb
    exact hf (hb ▸ he ▸ ha)
  · intro k hk
    rw [hw, List.mem_append, List.mem_singleton] at hk
    rcases hk with hk | rfl
    · obtain ⟨u, hu⟩ := h.holder k hk
      refine ⟨u, ?_⟩
      rw [hh, if_neg, hu]
      intro he
      rw [he, hn] at hu
      cases hu
    · exact ⟨t, by rw [hh, if_pos rfl]⟩
  · intro u k hu
    rw [hw, List.mem_append, List.mem_singleton]
    rcases hold hu with ⟨-, hk⟩ | ⟨-, hs⟩
    · exact Or.inr hk
    · exact Or.inl (h.watched u k hs)
  · intro u v k hu hv
    rcases hold hu with ⟨rfl, rfl⟩ | ⟨-, hsu⟩ <;> rcases hold hv with ⟨rfl, hk⟩ | ⟨-, hsv⟩
    · rfl
    · exact (hfree hsv).elim
    · exact (hfree (hk ▸ hsu)).elim
    · exact h.unique u v k hsu hsv

private theorem accounted_passed {s s' : Service ρ} (h : s.Accounted) {t : Task} {key : Key}
    (ht : s.held? t = some key) (hw : s'.cache.watching = s.cache.watching)
    (hh : ∀ u, s'.held? u =
      if u = t then none else if u = .watcher s.watchers.length then some key else s.held? u) :
    s'.Accounted := by
  have hnew : Task.watcher s.watchers.length ≠ t := by
    intro he
    rw [← he, held?, observe_next_watcher] at ht
    cases ht
  have hold {u : Task} {k : Key} (hu : s'.held? u = some k) :
      (u = .watcher s.watchers.length ∧ k = key) ∨ (u ≠ t ∧ s.held? u = some k) := by
    rw [hh] at hu
    split at hu
    · cases hu
    · next hne =>
      split at hu
      · next he => exact Or.inl ⟨he, (Option.some.inj hu).symm⟩
      · exact Or.inr ⟨hne, hu⟩
  have hother {u : Task} (hne : u ≠ t) (hu : s.held? u = some key) : False :=
    hne (h.unique u t key hu ht)
  constructor
  · exact hw ▸ h.nodup
  · intro k hk
    rw [hw] at hk
    obtain ⟨u, hu⟩ := h.holder k hk
    by_cases he : u = t
    · rw [he, ht] at hu
      refine ⟨.watcher s.watchers.length, ?_⟩
      rw [hh, if_neg hnew, if_pos rfl, hu]
    · refine ⟨u, ?_⟩
      rw [hh, if_neg he, if_neg, hu]
      intro hu'
      rw [hu', held?, observe_next_watcher] at hu
      cases hu
  · intro u k hu
    rw [hw]
    rcases hold hu with ⟨-, rfl⟩ | ⟨-, hs⟩
    · exact h.watched t k ht
    · exact h.watched u k hs
  · intro u v k hu hv
    rcases hold hu with ⟨rfl, rfl⟩ | ⟨hne, hsu⟩ <;> rcases hold hv with ⟨rfl, hk⟩ | ⟨hne', hsv⟩
    · rfl
    · exact (hother hne' hsv).elim
    · exact (hother hne (hk ▸ hsu)).elim
    · exact h.unique u v k hsu hsv

private theorem accounted_given {s s' : Service ρ} (h : s.Accounted) {t : Task} {key : Key}
    (ht : s.held? t = some key)
    (hw : s'.cache.watching = s.cache.watching.filter (· ≠ key))
    (hh : ∀ u, s'.held? u = if u = t then none else s.held? u) : s'.Accounted := by
  have hold {u : Task} {k : Key} (hu : s'.held? u = some k) : u ≠ t ∧ s.held? u = some k := by
    rw [hh] at hu
    split at hu
    · cases hu
    · next he => exact ⟨he, hu⟩
  constructor
  · exact hw ▸ h.nodup.filter _
  · intro k hk
    rw [hw, List.mem_filter] at hk
    obtain ⟨u, hu⟩ := h.holder k hk.1
    refine ⟨u, ?_⟩
    rw [hh, if_neg, hu]
    intro he
    rw [he, ht] at hu
    exact of_decide_eq_true hk.2 (Option.some.inj hu).symm
  · intro u k hu
    obtain ⟨hne, hs⟩ := hold hu
    rw [hw, List.mem_filter]
    refine ⟨h.watched u k hs, decide_eq_true fun he => ?_⟩
    exact hne (h.unique u t k hs (he ▸ ht))
  · intro u v k hu hv
    exact h.unique u v k (hold hu).2 (hold hv).2

/-- Claims that were accounted for still are after an action. -/
theorem ClaimChange.accounted {s s' : Service ρ} {a : Action ρ} (hc : ClaimChange s a s')
    (h : s.Accounted) : s'.Accounted := by
  cases hc with
  | kept hw hh =>
    constructor
    · exact hw ▸ h.nodup
    · intro key hk
      obtain ⟨t, ht⟩ := h.holder key (hw ▸ hk)
      exact ⟨t, (hh t).trans ht⟩
    · intro t key ht
      exact hw ▸ h.watched t key ((hh t).symm.trans ht)
    · intro t u key ht hu
      exact h.unique t u key ((hh t).symm.trans ht) ((hh u).symm.trans hu)
  | taken t key _ hn hf hw hh => exact accounted_taken h hn hf hw hh
  | passed t key _ ht hw hh => exact accounted_passed h ht hw hh
  | given t key _ ht hw _ hh => exact accounted_given h ht hw hh

/-- In every reached service the watch claims are accounted for. -/
theorem Reached.accounted {s : Service ρ} (h : s.Reached) : s.Accounted := by
  induction h with
  | start registry agent watch => exact accounted_start registry agent watch
  | step _ ha hs ih => exact (claimChange_of_transition ha (transition_of_step hs)).accounted ih

/-- A claim that another task holds survives an action. -/
theorem ClaimChange.held_of_task_ne {s s' : Service ρ} {a : Action ρ} (hc : ClaimChange s a s')
    {t : Task} {key : Key} (ht : s.held? t = some key) (hne : a.task? ≠ some t) :
    s'.held? t = some key := by
  have hother {u : Task} (hu : a.task? = some u) : t ≠ u := fun he => hne (he ▸ hu)
  cases hc with
  | kept _ hh => exact (hh t).trans ht
  | taken u _ ha _ _ _ hh => rw [hh, if_neg (hother ha), ht]
  | passed u _ ha _ _ hh =>
    rw [hh, if_neg (hother ha), if_neg, ht]
    intro he
    rw [he, held?, observe_next_watcher] at ht
    cases ht
  | given u _ ha _ _ _ hh => rw [hh, if_neg (hother ha), ht]

/-- A claim is given back by its holder and by nobody else. -/
theorem ClaimChange.holder_of_not_mem {s s' : Service ρ} {a : Action ρ} (hc : ClaimChange s a s')
    {key : Key} (hk : key ∈ s.cache.watching) (hk' : key ∉ s'.cache.watching) :
    ∃ t, a.task? = some t ∧ s.held? t = some key := by
  cases hc with
  | kept hw _ => exact absurd (hw ▸ hk) hk'
  | taken _ _ _ _ _ hw _ => exact absurd (hw ▸ List.mem_append_left _ hk) hk'
  | passed _ _ _ _ hw _ => exact absurd (hw ▸ hk) hk'
  | given t given ha ht hw _ _ =>
    by_cases he : key = given
    · exact ⟨t, ha, he ▸ ht⟩
    · exact absurd (hw ▸ List.mem_filter.2 ⟨hk, decide_eq_true he⟩) hk'

/-- The watched keys are exactly the keys that are held, by a lookup that won the claim and has not
yet passed it on or by a watcher that has not yet given it back. Each has one holder, so no key has
two live watchers, and no action takes a claim away from a task other than its own. -/
theorem watched_iff_held {s : Service ρ} (h : s.Reached) :
    s.cache.watching.Nodup ∧
    (∀ key, key ∈ s.cache.watching ↔ ∃ t, s.held? t = some key) ∧
    (∀ t u key, s.held? t = some key → s.held? u = some key → t = u) ∧
    (∀ (j k : Nat) (v w : Watcher ρ), s.watchers[j]? = some v → s.watchers[k]? = some w →
      v.isOver = false → w.isOver = false → v.key = w.key → j = k) ∧
    (∀ a s' events, (∀ j, a ≠ .crash j) → s.step a = some (s', events) →
      (∀ t key, s.held? t = some key → a.task? ≠ some t →
        s'.held? t = some key ∧ key ∈ s'.cache.watching) ∧
      (∀ key ∈ s.cache.watching, key ∉ s'.cache.watching →
        ∃ t, a.task? = some t ∧ s.held? t = some key)) := by
  have hs := h.accounted
  refine ⟨hs.nodup, ?_, hs.unique, ?_, ?_⟩
  · intro key
    constructor
    · exact hs.holder key
    · rintro ⟨t, ht⟩
      exact hs.watched t key ht
  · intro j k v w hv hw hvo hwo he
    have hj : s.held? (.watcher j) = some v.key := by simp [held?, observe, hv, Watcher.held?, hvo]
    have hk : s.held? (.watcher k) = some v.key := by
      simp [held?, observe, hw, Watcher.held?, hwo, he]
    exact Task.watcher.inj (hs.unique _ _ _ hj hk)
  · intro a s' events ha hstep
    have hc := claimChange_of_transition ha (transition_of_step hstep)
    refine ⟨?_, fun key hk hk' => hc.holder_of_not_mem hk hk'⟩
    intro t key ht hne
    have ht' := hc.held_of_task_ne ht hne
    exact ⟨ht', (hc.accounted hs).watched t key ht'⟩

/-- Two lookups of a name that both miss, and of which the one that asked first wins the claim and
starts the watcher. -/
def contest : List (Action Unit) :=
  [.resolve "api", .resolve "api", .lookup 0, .lookup 0, .lookup 1, .lookup 1,
    .answerLookup 0 (.ok ⟨[.ofAddress "api" "10.0.0.1" 80], 3⟩),
    .answerLookup 1 (.ok ⟨[.ofAddress "api" "10.0.0.2" 80], 4⟩),
    .lookup 0, .lookup 1, .lookup 1, .lookup 0, .lookup 0]

/-- The service after the contest. -/
def contested : Service Unit :=
  (((start "registry" default .standard).run contest).getD
    (start "registry" default .standard, [])).1

/-- The contest leads to a reached service. -/
theorem reached_contested : contested.Reached := by
  have hr : (start "registry" default .standard).run contest = some (contested, []) := rfl
  exact (Reached.start "registry" default .standard).run (by simp [contest]) hr

/-- After the contest the key is watched, and its watcher is the only holder. -/
theorem watched_contested :
    contested.Reached ∧ Key.ofName "api" ∈ contested.cache.watching ∧
      ∀ t, contested.held? t = some (.ofName "api") → t = .watcher 0 := by
  have hk : contested.held? (.watcher 0) = some (.ofName "api") := by decide
  obtain ⟨-, hwatched, hunique, -⟩ := watched_iff_held reached_contested
  exact ⟨reached_contested, (hwatched _).2 ⟨_, hk⟩, fun t ht => hunique t _ _ ht hk⟩

end Service

end ServiceDiscovery
