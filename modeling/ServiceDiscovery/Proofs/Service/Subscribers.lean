import ServiceDiscovery.Proofs.Service.Deliveries
import ServiceDiscovery.Proofs.Service.LateCalls
import ServiceDiscovery.Proofs.Service.Departure
import ServiceDiscovery.Proofs.Service.Subjects

/-!
# Subscribers of a name

Which handlers a task of a service calls for a set that it stores. Lookups read the name that they
are called with, subscriptions stand under the name as it is given. So a handler that is subscribed
to the name of a service is called for every set that is stored for it, in every interleaving, and
a handler that is subscribed to a qualified name is not called for the key that this name denotes.
-/

namespace ServiceDiscovery

private theorem Cache.hub_seed {η : Type} (c : Cache η) (key : Key) (set : EndpointSet) :
    (c.seed key set).2.2.hub = c.hub := by
  show ((c.store key set).2.2.claim key).hub = c.hub
  rw [claim, ← Cache.hub_store c key set]
  split <;> rfl

namespace Service

variable {ρ : Type} {s s' u : Service ρ} {a : Action ρ} {events : List (Event ρ)} {t : Task}
  {key : Key} {id : SubscriptionId} {set : EndpointSet}

/-- In a run of actions, a step of a task calls a subscription with a set. -/
inductive CalledBy (t : Task) (id : SubscriptionId) (set : EndpointSet) :
    Service ρ → List (Action ρ) → Prop
  /-- The first action does. -/
  | now {s s' : Service ρ} {a : Action ρ} {rest : List (Action ρ)} {events : List (Event ρ)}
      (ha : a.task? = some t) (hs : s.step a = some (s', events))
      (hc : .called id set ∈ events) : CalledBy t id set s (a :: rest)
  /-- A later one does. -/
  | later {s s' : Service ρ} {a : Action ρ} {rest : List (Action ρ)} {events : List (Event ρ)}
      (hs : s.step a = some (s', events)) (h : CalledBy t id set s' rest) :
      CalledBy t id set s (a :: rest)

/-! ### Subscriptions -/

/-- An action changes the subscriptions by one operation at most. -/
theorem change_of_transition (h : Transition s a s' events) :
    s.cache.hub.Change s'.cache.hub := by
  cases h with
  | @seeded i key set index hl =>
    show s.cache.hub.Change (s.cache.seed key set).2.2.hub
    rw [Cache.hub_seed]
    exact .same
  | @stored j key cursor set hw =>
    show s.cache.hub.Change (s.cache.store key set).2.2.hub
    rw [Cache.hub_store]
    exact .same
  | told hl ho | relayed hl ho => exact Delivery.change_of_step ho
  | subscribed name handler => exact .subscribed name handler
  | unsubscribed name id => exact .unsubscribed name id
  | _ => exact .same

/-- In every service a subscription's number stands under one name. -/
theorem Attained.numbered (h : s.Attained) : s.cache.hub.Numbered := by
  induction h with
  | start registry agent watch => exact Hub.numbered_empty
  | step _ hs ih => exact ih.of_change (change_of_transition (transition_of_step hs))

/-! ### Sets that are owed -/

/-- A task that is not at work keeps what it has to deliver. -/
theorem pending_of_task_ne (h : Transition s a s' events) (ha : a.task? ≠ some t)
    (ht : (s.observe (fun l => some l.pending) (fun w => some w.pending) t).isSome) :
    s'.pending (some t) = s.pending (some t) := by
  obtain ⟨d, hd⟩ := Option.isSome_iff_exists.1 ht
  rw [pending, pending, hd, observe_of_task_ne h ha hd]

private theorem isSome_of_owes (h : (s.pending (some t)).Owes id set) :
    (s.observe (fun l => some l.pending) (fun w => some w.pending) t).isSome := by
  cases ho : s.observe (fun l => some l.pending) (fun w => some w.pending) t with
  | some d => rfl
  | none =>
    have hnil : s.pending (some t) = [] := by
      rw [pending, ho]
      rfl
    exact absurd hnil h.ne_nil

/-- A task that has something to deliver goes on with it. -/
theorem delivers_of_transition (h : Transition s a s' events) (ha : a.task? = some t)
    (hp : s.pending (some t) ≠ []) :
    ∃ o, (s.pending (some t)).step s.cache = some o ∧ s'.pending (some t) = o.rest ∧
      events = o.events := by
  cases h with
  | @told i key set index claimed d o hl ho =>
    cases ha
    refine ⟨o, (congrArg (Delivery.step s.cache) (pending_lookup hl)).trans ho, ?_, rfl⟩
    rw [pending_setLookup (by exact hl), Function.update_self]
    rfl
  | @relayed j key cursor d o hw ho =>
    cases ha
    refine ⟨o, (congrArg (Delivery.step s.cache) (pending_watcher hw)).trans ho, ?_, rfl⟩
    rw [pending_setWatcher (by exact hw), Function.update_self]
    rfl
  | refused hl _ | admitted hl _ | served hl _ _ | missed hl _ | found hl _ | failed hl _
  | seeded hl | won hl | lost hl | withdrawn hl _ | spawned hl _ =>
    cases ha
    exact absurd (pending_lookup hl) hp
  | observed hw _ | stumbled hw _ _ | gaveUp hw _ _ | resumed hw | recalled hw _ | roused hw _
  | crashed hw | stored hw | rearmed hw | left hw =>
    cases ha
    exact absurd (pending_watcher hw) hp
  | _ => cases ha

private theorem exists_delivery_step (hp : s.pending (some t) ≠ []) :
    ∃ s' o, (s.pending (some t)).step s.cache = some o ∧
      s.step t.action = some (s', o.events) ∧ s'.pending (some t) = o.rest := by
  have goes {d : Delivery false ρ} (hd : d ≠ []) : ∃ o, d.step s.cache = some o :=
    Option.ne_none_iff_exists'.1 fun hn => hd (Delivery.step_eq_none hn)
  obtain ⟨s', events, hs⟩ : ∃ s' events, s.step t.action = some (s', events) := by
    cases t with
    | lookup i =>
      cases hl : s.lookups[i]? with
      | none => simp [pending, observe, hl] at hp
      | some l =>
        rw [pending_lookup hl] at hp
        cases l with
        | notifying k x index claimed d =>
          obtain ⟨o, ho⟩ := goes hp
          exact ⟨_, _, step_of_transition (.told hl ho)⟩
        | _ => exact absurd rfl hp
    | watcher j =>
      cases hw : s.watchers[j]? with
      | none => simp [pending, observe, hw] at hp
      | some w =>
        rw [pending_watcher hw] at hp
        obtain ⟨k, stage⟩ := w
        cases stage with
        | notifying cursor d =>
          obtain ⟨o, ho⟩ := goes hp
          exact ⟨_, _, step_of_transition (.relayed hw ho)⟩
        | _ => exact absurd rfl hp
  obtain ⟨o, ho, hrest, rfl⟩ := delivers_of_transition (transition_of_step hs) t.task?_action hp
  exact ⟨s', o, ho, hs, hrest⟩

/-- A task comes to the end of what it has to deliver by steps of its own. -/
theorem exists_delivered (s : Service ρ) (t : Task) :
    ∃ actions u seen, (∀ b ∈ actions, b = t.action) ∧ s.run actions = some (u, seen) ∧
      u.pending (some t) = [] := by
  generalize hd : s.pending (some t) = d
  induction d using Delivery.wellFounded_follows.induction generalizing s with
  | _ d ih =>
    subst hd
    by_cases hp : s.pending (some t) = []
    · exact ⟨[], s, [], nofun, rfl, hp⟩
    · obtain ⟨s', o, ho, hs, hrest⟩ := exists_delivery_step hp
      obtain ⟨actions, u, seen, hall, hr, hu⟩ := ih o.rest ⟨s.cache, o, ho, rfl⟩ s' hrest
      exact ⟨t.action :: actions, u, _, List.forall_mem_cons.2 ⟨rfl, hall⟩, run_cons hs hr, hu⟩

private theorem calledBy_of_owes (h : (s.pending (some t)).Owes id set) {actions : List (Action ρ)}
    {seen : List (Event ρ)} (hr : s.run actions = some (u, seen)) (hu : u.pending (some t) = []) :
    CalledBy t id set s actions := by
  induction actions generalizing s seen with
  | nil =>
    cases hr
    exact absurd hu h.ne_nil
  | cons a rest ih =>
    obtain ⟨s', first, later, hs, hrun, -⟩ := step_of_run_cons hr
    have ht := transition_of_step hs
    by_cases ha : a.task? = some t
    · obtain ⟨o, ho, hrest, rfl⟩ := delivers_of_transition ht ha h.ne_nil
      rcases Delivery.owes_of_step ho h with hlater | hcalled
      · exact .later hs (ih (hrest ▸ hlater) hrun)
      · exact .now ha hs hcalled
    · have hsame := pending_of_task_ne ht ha (isSome_of_owes h)
      exact .later hs (ih (hsame ▸ h) hrun)

/-! ### What a task is about -/

/-- A task is about a key, or is a lookup that has returned. -/
def IsAbout (s : Service ρ) (key : Key) : Task → Prop
  | .lookup i => ∃ l, s.lookups[i]? = some l ∧ ∀ k, l.key? s.key = some k → k = key
  | .watcher j => ∃ w, s.watchers[j]? = some w ∧ w.key = key

private theorem isAbout_setLookup {i : Nat} {old l : Lookup ρ} {c : HandlerCache false ρ}
    (hl : s.lookups[i]? = some old) (h : s.IsAbout key (.lookup i))
    (hk : ∀ k, l.key? s.key = some k → old.key? s.key = some k) :
    ({ s with cache := c }.setLookup i l).IsAbout key (.lookup i) := by
  obtain ⟨x, hx, hkey⟩ := h
  rw [hl] at hx
  cases hx
  exact ⟨l, lookups_setLookup (by exact hl), fun k hl => hkey k (hk k hl)⟩

private theorem isAbout_setWatcher {j : Nat} {k : Key} {stage next : WatchStage ρ}
    {c : HandlerCache false ρ} (hw : s.watchers[j]? = some ⟨k, stage⟩)
    (h : s.IsAbout key (.watcher j)) :
    ({ s with cache := c }.setWatcher j ⟨k, next⟩).IsAbout key (.watcher j) := by
  obtain ⟨x, hx, hkey⟩ := h
  rw [hw] at hx
  cases hx
  exact ⟨_, watchers_setWatcher (by exact hw), hkey⟩

/-- A task stays with its key. -/
theorem IsAbout.of_transition (h : s.IsAbout key t) (ht : Transition s a s' events) :
    s'.IsAbout key t := by
  have hagent : s'.key = s.key := by
    funext name
    rw [Service.key, agent_of_transition ht]
    rfl
  by_cases ha : a.task? = some t
  · cases ht with
    | refused hl _ | served hl _ _ | failed hl _ | lost hl | withdrawn hl _ =>
      cases ha
      exact isAbout_setLookup hl h nofun
    | admitted hl _ | missed hl _ | found hl _ | seeded hl | told hl _ | won hl =>
      cases ha
      exact isAbout_setLookup hl h fun k hk => hk
    | @spawned i k x index hl _ =>
      cases ha
      exact isAbout_setLookup (s := s.spawn k index) hl h nofun
    | observed hw _ | stumbled hw _ _ | gaveUp hw _ _ | resumed hw | recalled hw _ | roused hw _
    | crashed hw | stored hw | relayed hw _ | rearmed hw | left hw =>
      cases ha
      exact isAbout_setWatcher hw h
    | _ => cases ha
  · cases t with
    | lookup i =>
      obtain ⟨l, hl, hk⟩ := h
      exact ⟨l, lookup_of_task_ne ht ha hl, by rwa [hagent]⟩
    | watcher j =>
      obtain ⟨w, hw, hk⟩ := h
      exact ⟨w, watcher_of_task_ne ht ha hw, hk⟩

private theorem IsAbout.key_of_inHand? (h : s.IsAbout key t) {x : Finding}
    (hx : s.inHand? t = some x) :
    x.key = key := by
  cases t with
  | lookup i =>
    obtain ⟨l, hl, hk⟩ := h
    rw [lookup_of_inHand? hx] at hl
    cases hl
    exact hk x.key rfl
  | watcher j =>
    obtain ⟨w, hw, hk⟩ := h
    obtain ⟨cursor, hw', -⟩ := watcher_of_inHand? hx
    rw [hw'] at hw
    cases hw
    exact hk

/-! ### Who is never called -/

private theorem owes_source (h : Transition s a s' events) (ha : a.task? = some t)
    (ho : (s'.pending (some t)).Owes id set) :
    (s.pending (some t)).Owes id set ∨
      ∃ x, s.inHand? t = some x ∧ id ∈ s.cache.hub.numbers x.key.name := by
  have store {k : Key} {x : EndpointSet}
      (hn : (Delivery.ofNotification (s.cache.store k x).2.1).Owes id set) :
      id ∈ s.cache.hub.numbers k.name := by
    by_cases hg : s.cache.get? k = some x
    · rw [Cache.store_of_eq hg] at hn
      exact absurd rfl hn.ne_nil
    · rw [Cache.store_of_ne hg] at hn
      exact (Delivery.owes_ofNotification.1 hn).2
  cases h with
  | @seeded i k x index hl =>
    cases ha
    rw [pending_setLookup (by exact hl), Function.update_self] at ho
    exact Or.inr ⟨⟨k, x, index⟩, by simp [inHand?, observe, hl, Lookup.inHand?], store ho⟩
  | @stored j k cursor x hw =>
    cases ha
    rw [pending_setWatcher (by exact hw), Function.update_self] at ho
    exact Or.inr
      ⟨⟨k, x, cursor.waitIndex⟩, by simp [inHand?, observe, hw, Watcher.inHand?], store ho⟩
  | told hl ho' =>
    cases ha
    rw [pending_setLookup (by exact hl), Function.update_self] at ho
    rw [pending_lookup hl]
    exact Or.inl (Delivery.owes_of_rest ho' ho)
  | relayed hw ho' =>
    cases ha
    rw [pending_setWatcher (by exact hw), Function.update_self] at ho
    rw [pending_watcher hw]
    exact Or.inl (Delivery.owes_of_rest ho' ho)
  | refused hl _ | admitted hl _ | served hl _ _ | missed hl _ | found hl _ | failed hl _
  | won hl | lost hl | withdrawn hl _ =>
    cases ha
    rw [pending_setLookup (by exact hl), Function.update_self] at ho
    exact absurd rfl ho.ne_nil
  | @spawned i k x index hl _ =>
    cases ha
    rw [pending_setLookup (s := s.spawn k index) hl, Function.update_self] at ho
    exact absurd rfl ho.ne_nil
  | observed hw _ | stumbled hw _ _ | gaveUp hw _ _ | resumed hw | recalled hw _ | roused hw _
  | crashed hw | rearmed hw | left hw =>
    cases ha
    rw [pending_setWatcher (by exact hw), Function.update_self] at ho
    exact absurd rfl ho.ne_nil
  | _ => cases ha

private theorem owes_of_calling (h : Transition s a s' events) (ha : a.task? = some t)
    (hc : .called id set ∈ events) : (s.pending (some t)).Owes id set := by
  cases h with
  | told hl ho =>
    cases ha
    rw [pending_lookup hl]
    exact Delivery.owes_of_called ho hc
  | relayed hw ho =>
    cases ha
    rw [pending_watcher hw]
    exact Delivery.owes_of_called ho hc
  | _ => cases hc

/-- A task that is about a key owes nothing to a subscription that stands under another name. -/
structure Overlooks (s : Service ρ) (key : Key) (t : Task) (id : SubscriptionId) : Prop where
  about : s.IsAbout key t
  issued : id.number ≤ s.cache.hub.issued
  elsewhere : id ∉ s.cache.hub.numbers key.name
  nothing : ∀ set, ¬ (s.pending (some t)).Owes id set

private theorem IsAbout.isSome (h : s.IsAbout key t) :
    (s.observe (fun l => some l.pending) (fun w => some w.pending) t).isSome := by
  cases t with
  | lookup i =>
    obtain ⟨l, hl, -⟩ := h
    simp [observe, hl]
  | watcher j =>
    obtain ⟨w, hw, -⟩ := h
    simp [observe, hw]

/-- A subscription that a task overlooks is overlooked for ever. -/
theorem Overlooks.of_transition (h : s.Overlooks key t id) (ht : Transition s a s' events) :
    s'.Overlooks key t id := by
  have hc := change_of_transition ht
  refine ⟨h.about.of_transition ht, Nat.le_trans h.issued hc.issued_le,
    fun hm => h.elsewhere (hc.mem_numbers h.issued hm), fun set ho => ?_⟩
  by_cases ha : a.task? = some t
  · rcases owes_source ht ha ho with hbefore | ⟨x, hx, hid⟩
    · exact h.nothing set hbefore
    · rw [h.about.key_of_inHand? hx] at hid
      exact h.elsewhere hid
  · rw [pending_of_task_ne ht ha h.about.isSome] at ho
    exact h.nothing set ho

private theorem Overlooks.not_calledBy (h : s.Overlooks key t id) (set : EndpointSet)
    (actions : List (Action ρ)) : ¬ CalledBy t id set s actions := by
  intro hc
  induction hc with
  | now ha hs hc => exact h.nothing set (owes_of_calling (transition_of_step hs) ha hc)
  | later hs _ ih => exact ih (h.of_transition (transition_of_step hs))

/-! ### Names as they are subscribed to -/

/-- Whoever brings a key to another set is a task that is about the key, and has to deliver the set
to the subscribers of the key's name. -/
theorem delivers_accepted (h : Transition s a s' events) (hne : s.cache.get? key ≠ some set)
    (hset : s'.cache.get? key = some set) :
    ∃ t : Task, a = t.action ∧ s'.IsAbout key t ∧
      s'.pending (some t) = .ofNotification (s.cache.hub.notification key.name set) := by
  cases cacheChange_of_transition h with
  | dropped _ hg =>
    rcases hg key with hsame | hnone
    · exact absurd (hsame.symm.trans hset) hne
    · exact absurd (hnone.symm.trans hset) nofun
  | stored t x ha hx hg =>
    have hkey : x.key = key := by
      by_contra hk
      exact hne ((if_neg hk).symm.trans ((hg key).symm.trans hset))
    have hxset : x.set = set := by
      have hgk := hg key
      rw [if_pos hkey, hset] at hgk
      exact (Option.some.inj hgk).symm
    subst hkey hxset ha
    refine ⟨t, rfl, ?_⟩
    cases t with
    | lookup i =>
      have hl := lookup_of_inHand? hx
      rw [seeded_of_inHand? h hx]
      refine ⟨⟨_, lookups_setLookup (by exact hl), ?_⟩, ?_⟩
      · intro k hk
        exact (Option.some.inj hk).symm
      · rw [pending_setLookup (by exact hl), Function.update_self]
        show Delivery.ofNotification (s.cache.store x.key x.set).2.1 = _
        rw [Cache.store_of_ne hne]
    | watcher j =>
      obtain ⟨cursor, hw, -, hs'⟩ := updated_of_inHand? h hx
      rw [hs']
      refine ⟨⟨_, watchers_setWatcher (by exact hw), rfl⟩, ?_⟩
      rw [pending_setWatcher (by exact hw), Function.update_self]
      show Delivery.ofNotification (s.cache.store x.key x.set).2.1 = _
      rw [Cache.store_of_ne hne]

/-- A task that has to deliver to the subscribers of its key's name overlooks every subscription of
another name. -/
theorem Attained.overlooks (hs : s.Attained) (ht : Transition s a s' events)
    (habout : s'.IsAbout key t)
    (hpending : s'.pending (some t) = .ofNotification (s.cache.hub.notification key.name set))
    {name : String} (hid : id ∈ s.cache.subscribed name) (hother : key.name ≠ name) :
    s'.Overlooks key t id := by
  have hn := hs.numbered
  have hc := change_of_transition ht
  have hissued : id.number ≤ s.cache.hub.issued := hn.issued name id hid
  have helsewhere : id ∉ s.cache.hub.numbers key.name := fun hm =>
    hother (hn.once key.name name id hm hid)
  refine ⟨habout, Nat.le_trans hissued hc.issued_le,
    fun hm => helsewhere (hc.mem_numbers hissued hm), fun x hx => ?_⟩
  rw [hpending, Delivery.owes_ofNotification] at hx
  exact helsewhere hx.2

/-- A handler is subscribed to a name when a task brings the key that this name denotes to another
set. The task can deliver the set by steps of its own. If the name is not qualified, the task has
called the handler with the set whenever it has delivered everything, whatever goes on beside it. If
the name is qualified, the task never calls the handler. -/
theorem told_iff_not_qualified (hs : s.Attained) (hstep : s.step a = some (s', events))
    {name : String} (hid : id ∈ s.cache.subscribed name) (hne : s.cached name ≠ some set)
    (hset : s'.cached name = some set) :
    ∃ t : Task, a = t.action ∧ s'.IsAbout (s.key name) t ∧
      (∃ actions u seen, (∀ b ∈ actions, b = t.action) ∧ s'.run actions = some (u, seen) ∧
        u.pending (some t) = []) ∧
      ∀ actions u seen, s'.run actions = some (u, seen) →
        (Key.qualified? name.toList s.agent.domain.toList = none →
          u.pending (some t) = [] → CalledBy t id set s' actions) ∧
        (Key.qualified? name.toList s.agent.domain.toList ≠ none →
          ∀ x, ¬ CalledBy t id x s' actions) := by
  have ht := transition_of_step hstep
  have hkey : s'.key name = s.key name := by
    rw [Service.key, agent_of_transition ht]
    rfl
  have hname : (s.key name).name = name ↔
      Key.qualified? name.toList s.agent.domain.toList = none := Key.name_parse_eq_iff
  rw [cached, hkey] at hset
  obtain ⟨t, ha, habout, hpending⟩ := delivers_accepted ht hne hset
  refine ⟨t, ha, habout, exists_delivered s' t, fun actions u seen hr => ⟨?_, ?_⟩⟩
  · intro hbare hu
    refine calledBy_of_owes ?_ hr hu
    rw [hpending, Delivery.owes_ofNotification, hname.2 hbare]
    exact ⟨rfl, hid⟩
  · intro hqualified x
    have hother : (s.key name).name ≠ name := fun he => hqualified (hname.1 he)
    exact (hs.overlooks ht habout hpending hid hother).not_calledBy x actions

/-- A handler that does nothing. -/
def idle : Handler false Unit := fun _ _ => .done

/-- A handler is subscribed to the name of a service, and another one to the qualified name that a
lookup is called with and has an answer for. -/
def expecting : List (Action Unit) :=
  [.subscribe "api" idle, .subscribe "api.service.consul" idle, .resolve "api.service.consul",
    .lookup 0, .lookup 0, .answerLookup 0 (.ok ⟨[.ofAddress "api" "10.0.0.1" 80], 1⟩)]

/-- The service that nobody has called, in the domain of the names. -/
def untouched : Service Unit :=
  .start "registry" { (default : Agent) with domain := "consul" } .standard

/-- The service before the lookup stores what it has found. -/
def expected : Service Unit := ((untouched.run expecting).map Prod.fst).getD untouched

/-- The service after the lookup has stored it. -/
def accepted : Service Unit := ((expected.step (.lookup 0)).map Prod.fst).getD expected

/-- The set that the lookup has found. -/
def foundSet : EndpointSet := .ofList [⟨"10.0.0.1", 80⟩]

/-- The lookup calls the handler of the service's name, and not the handler of the qualified name
that it was called with itself. -/
theorem told_iff_not_qualified_found :
    expected.Attained ∧ expected.step (.lookup 0) = some (accepted, []) ∧
      (⟨1⟩ : SubscriptionId) ∈ expected.cache.subscribed "api" ∧
      (⟨2⟩ : SubscriptionId) ∈ expected.cache.subscribed "api.service.consul" ∧
      expected.cached "api" ≠ some foundSet ∧ accepted.cached "api" = some foundSet ∧
      expected.cached "api.service.consul" ≠ some foundSet ∧
      accepted.cached "api.service.consul" = some foundSet ∧
      (∃ u seen, accepted.run (List.replicate 5 (.lookup 0)) = some (u, seen)) ∧
      CalledBy (.lookup 0) ⟨1⟩ foundSet accepted (List.replicate 5 (.lookup 0)) ∧
      ∀ actions u seen, accepted.run actions = some (u, seen) →
        ∀ x, ¬ CalledBy (.lookup 0) ⟨2⟩ x accepted actions := by
  have hs : expected.Attained := by
    have hr : untouched.run expecting = some (expected, []) := rfl
    exact (Attained.start _ _ _).run hr
  have hstep : expected.step (.lookup 0) = some (accepted, []) := rfl
  have hbare : (⟨1⟩ : SubscriptionId) ∈ expected.cache.subscribed "api" := by decide
  have hqualified : (⟨2⟩ : SubscriptionId) ∈ expected.cache.subscribed "api.service.consul" := by
    decide
  have hne : expected.cached "api" ≠ some foundSet := by decide
  have hset : accepted.cached "api" = some foundSet := by decide
  have hne' : expected.cached "api.service.consul" ≠ some foundSet := by decide
  have hset' : accepted.cached "api.service.consul" = some foundSet := by decide
  obtain ⟨u, seen, hr, hu⟩ : ∃ u seen, accepted.run (List.replicate 5 (.lookup 0)) =
      some (u, seen) ∧ u.pending (some (.lookup 0)) = [] := ⟨_, _, rfl, rfl⟩
  refine ⟨hs, hstep, hbare, hqualified, hne, hset, hne', hset', ⟨u, seen, hr⟩, ?_, ?_⟩
  · obtain ⟨t, ha, -, -, htold⟩ := told_iff_not_qualified hs hstep hbare hne hset
    cases Task.action_inj (t := .lookup 0) (u := t) ha
    exact (htold _ u seen hr).1 (by decide) hu
  · intro actions u seen hr x
    obtain ⟨t, ha, -, -, htold⟩ := told_iff_not_qualified hs hstep hqualified hne' hset'
    cases Task.action_inj (t := .lookup 0) (u := t) ha
    exact (htold actions u seen hr).2 (by decide) x

end Service

end ServiceDiscovery
