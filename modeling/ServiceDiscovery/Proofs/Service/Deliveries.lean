import ServiceDiscovery.Proofs.Service.Task
import ServiceDiscovery.Proofs.Subscription.Sharing

/-!
# Deliveries of a service

Lookups and watchers are tasks that share the cache of their service. A lookup does one operation of
the cache when it has its answer, a watcher does one after every query, and each of them delivers
what its operation gave before it goes on. Callers from outside do operations that give nothing to
deliver. So every run of a service is a run of tasks that share a cache, and what holds of all these
holds of it.
-/

namespace ServiceDiscovery

variable {ρ : Type}

/-- What a lookup has still to deliver. -/
def Lookup.pending : Lookup ρ → Delivery false ρ
  | .notifying _ _ _ _ delivery => delivery
  | _ => []

/-- What a watcher has still to deliver. -/
def Watcher.pending (w : Watcher ρ) : Delivery false ρ :=
  match w.stage with
  | .notifying _ delivery => delivery
  | _ => []

namespace Service

variable {s s' : Service ρ} {a : Action ρ} {events : List (Event ρ)}

/-- What a task has still to deliver; a caller from outside has nothing to deliver. -/
def pending (s : Service ρ) : Option Task → Delivery false ρ
  | some t => (s.observe (fun l => some l.pending) (fun w => some w.pending) t).getD []
  | none => []

/-- The cache of a service with the tasks that share it, and with the callers from outside as one
more task. -/
def sharing (s : Service ρ) : Sharing (Option Task) false ρ := ⟨s.cache, s.pending⟩

/-- What a lookup has still to deliver is what its stage says. -/
theorem pending_lookup {i : Nat} {l : Lookup ρ} (h : s.lookups[i]? = some l) :
    s.pending (some (.lookup i)) = l.pending := by
  simp [pending, observe, h]

/-- What a watcher has still to deliver is what its stage says. -/
theorem pending_watcher {j : Nat} {w : Watcher ρ} (h : s.watchers[j]? = some w) :
    s.pending (some (.watcher j)) = w.pending := by
  simp [pending, observe, h]

/-- A new stage of a lookup says what that lookup has to deliver. -/
theorem pending_setLookup {i : Nat} {old : Lookup ρ} (h : s.lookups[i]? = some old)
    (l : Lookup ρ) :
    (s.setLookup i l).pending = Function.update s.pending (some (.lookup i)) l.pending := by
  funext t
  cases t with
  | none => rfl
  | some t =>
    rw [Function.update_apply, pending, observe_setLookup h]
    simp only [Option.some.injEq]
    split
    · rfl
    · rfl

/-- A new stage of a watcher says what that watcher has to deliver. -/
theorem pending_setWatcher {j : Nat} {old : Watcher ρ} (h : s.watchers[j]? = some old)
    (w : Watcher ρ) :
    (s.setWatcher j w).pending = Function.update s.pending (some (.watcher j)) w.pending := by
  funext t
  cases t with
  | none => rfl
  | some t =>
    rw [Function.update_apply, pending, observe_setWatcher h]
    simp only [Option.some.injEq]
    split
    · rfl
    · rfl

private theorem pending_called (s : Service ρ) (name : String) :
    { s with lookups := s.lookups ++ [Lookup.arriving name] }.pending = s.pending := by
  funext t
  cases t with
  | none => rfl
  | some t =>
    rw [pending, observe_called]
    split
    · next ht =>
      rw [ht, pending, observe_next_lookup]
      rfl
    · rfl

private theorem pending_spawn (s : Service ρ) (key : Key) (index : Nat) :
    (s.spawn key index).pending = s.pending := by
  funext t
  cases t with
  | none => rfl
  | some t =>
    rw [pending, observe_spawn]
    split
    · next ht =>
      rw [ht, pending, observe_next_watcher]
      rfl
    · rfl

/-- What a step of a service is to the tasks that share its cache: nothing, or a step of one of
them. -/
inductive Shares (s : Service ρ) (events : List (Event ρ)) (s' : Service ρ) : Prop
  /-- Neither the cache nor a delivery is concerned. -/
  | idle (hn : events = []) (hs : s'.sharing = s.sharing)
  /-- A task goes on. -/
  | step (t : Option Task) (h : Sharing.Step ⟨s.sharing, t, events, s'.sharing⟩)

/-- A step of a lookup is seen in the cache and in what the lookup has to deliver. -/
theorem sharing_setLookup {i : Nat} {old : Lookup ρ} (h : s.lookups[i]? = some old)
    (c : HandlerCache false ρ) (l : Lookup ρ) :
    ({ s with cache := c }.setLookup i l).sharing =
      ⟨c, Function.update s.pending (some (.lookup i)) l.pending⟩ := by
  rw [sharing, pending_setLookup (by exact h)]
  rfl

/-- A step of a watcher is seen in the cache and in what the watcher has to deliver. -/
theorem sharing_setWatcher {j : Nat} {old : Watcher ρ} (h : s.watchers[j]? = some old)
    (c : HandlerCache false ρ) (w : Watcher ρ) :
    ({ s with cache := c }.setWatcher j w).sharing =
      ⟨c, Function.update s.pending (some (.watcher j)) w.pending⟩ := by
  rw [sharing, pending_setWatcher (by exact h)]
  rfl

private theorem sharing_setLookup_of_eq {i : Nat} {old l : Lookup ρ} (h : s.lookups[i]? = some old)
    (hl : l.pending = old.pending) : (s.setLookup i l).sharing = s.sharing := by
  refine (sharing_setLookup h s.cache l).trans ?_
  rw [hl, ← pending_lookup h, Function.update_eq_self]
  rfl

private theorem sharing_setWatcher_of_eq {j : Nat} {old w : Watcher ρ}
    (h : s.watchers[j]? = some old)
    (hw : w.pending = old.pending) : (s.setWatcher j w).sharing = s.sharing := by
  refine (sharing_setWatcher h s.cache w).trans ?_
  rw [hw, ← pending_watcher h, Function.update_eq_self]
  rfl

private theorem shares_lookup_operated {i : Nat} {old l : Lookup ρ} (h : s.lookups[i]? = some old)
    (hold : old.pending = []) (o : Cache.Operation false ρ)
    (hl : l.pending = .ofNotification (o.apply s.cache).1) :
    Shares s [] ({ s with cache := (o.apply s.cache).2 }.setLookup i l) := by
  refine .step (some (.lookup i)) ?_
  rw [sharing_setLookup h, hl]
  exact .operated s.sharing _ o ((pending_lookup h).trans hold)

private theorem shares_watcher_operated {j : Nat} {old w : Watcher ρ}
    (h : s.watchers[j]? = some old) (hold : old.pending = []) (o : Cache.Operation false ρ)
    (hw : w.pending = .ofNotification (o.apply s.cache).1) :
    Shares s [] ({ s with cache := (o.apply s.cache).2 }.setWatcher j w) := by
  refine .step (some (.watcher j)) ?_
  rw [sharing_setWatcher h, hw]
  exact .operated s.sharing _ o ((pending_watcher h).trans hold)

private theorem shares_outside (o : Cache.Operation false ρ) (ho : o.offer? = none) :
    Shares s [] { s with cache := (o.apply s.cache).2 } := by
  have hstep := Sharing.Step.operated s.sharing none o rfl
  have hsame : Function.update s.pending none (.ofNotification (o.apply s.cache).1) =
      s.pending := by
    rw [Cache.Operation.apply_quiet ho]
    exact Function.update_eq_self none s.pending
  refine .step none ?_
  rw [show s.sharing.pending = s.pending from rfl, show s.sharing.cache = s.cache from rfl,
    hsame] at hstep
  exact hstep

/-- Every transition of a service is a step of the tasks that share its cache, or none of theirs. -/
theorem shares_of_transition (h : Transition s a s' events) : Shares s events s' := by
  cases h with
  | called name => exact .idle rfl (by rw [sharing, pending_called]; rfl)
  | refused hl _ | admitted hl _ | served hl _ _ | missed hl _ | found hl _ | failed hl _
  | won hl | lost hl => exact .idle rfl (sharing_setLookup_of_eq hl rfl)
  | @seeded i key set index hl => exact shares_lookup_operated hl rfl (.seed key set) rfl
  | @withdrawn i key set index hl _ => exact shares_lookup_operated hl rfl (.release key) rfl
  | @told i key set index claimed d o hl ho =>
    refine .step (some (.lookup i)) ?_
    rw [sharing_setLookup hl]
    exact .delivered s.sharing _ ((congrArg (Delivery.step s.cache) (pending_lookup hl)).trans ho)
  | @spawned i key set index hl _ =>
    have hlater : (s.spawn key index).lookups[i]? = some (.spawning key set index) := hl
    have hspawned : (s.spawn key index).sharing = s.sharing := by
      rw [sharing, pending_spawn]
      rfl
    refine .idle rfl (Eq.trans ?_ hspawned)
    exact sharing_setLookup_of_eq hlater rfl
  | observed hw _ | stumbled hw _ _ | gaveUp hw _ _ | resumed hw | recalled hw _ | roused hw _
  | crashed hw | rearmed hw =>
    exact .idle rfl (sharing_setWatcher_of_eq hw rfl)
  | @stored j key cursor set hw => exact shares_watcher_operated hw rfl (.update key set) rfl
  | @relayed j key cursor d o hw ho =>
    refine .step (some (.watcher j)) ?_
    rw [sharing_setWatcher hw]
    exact .delivered s.sharing _ ((congrArg (Delivery.step s.cache) (pending_watcher hw)).trans ho)
  | @left j key exit hw => exact shares_watcher_operated hw rfl (.release key) rfl
  | shutdownCalled | requested _ | took _ | joined _ _ => exact .idle rfl rfl
  | invalidated name => exact shares_outside (.invalidate (s.key name)) rfl
  | subscribed name handler => exact shares_outside (.subscribe name handler) rfl
  | unsubscribed name id => exact shares_outside (.unsubscribe name id) rfl

/-- Every run of a service is a run of the tasks that share its cache, and the same is seen. -/
theorem shares_of_run {actions : List (Action ρ)} (h : s.run actions = some (s', events)) :
    ∃ trail, Sharing.Run s.sharing trail s'.sharing ∧
      trail.flatMap Sharing.Moment.events = events := by
  induction actions generalizing s events with
  | nil =>
    cases h
    exact ⟨[], .nil _, rfl⟩
  | cons a actions ih =>
    obtain ⟨t, first, later, hstep, hrun, rfl⟩ := step_of_run_cons h
    obtain ⟨trail, htrail, rfl⟩ := ih hrun
    cases shares_of_transition (transition_of_step hstep) with
    | idle hn hs =>
      subst hn
      rw [hs] at htrail
      exact ⟨trail, htrail, rfl⟩
    | step i hm => exact ⟨_, .cons hm htrail, rfl⟩

end Service

end ServiceDiscovery
