import ServiceDiscovery.Proofs.Service.Breakdown
import ServiceDiscovery.Proofs.Service.Departure
import ServiceDiscovery.Proofs.Service.Subjects
import ServiceDiscovery.Service.Choice

/-!
# What a lookup leaves behind

A lookup that returns a set returns one with endpoints, so one of them can always be chosen. A
lookup that fails leaves nothing behind. Most failures come before anything is written. The only one
that comes later is the refusal of a lookup that has stored its set and won the claim, and finds the
service cancelled when it is about to start the watcher. It takes both back then, and as a key that
nobody claims has no set (`Attained.mem_watching_of_get?`), this restores what was there. What
handlers drop while the set is delivered to them stays dropped.
-/

namespace ServiceDiscovery

/-- A choice from what a lookup returned is a member, if the set has any. -/
theorem Choice.exists_oneOf {set : EndpointSet} (hne : set.isEmpty = false)
    (registry name : String) (draw : Nat) (b : Balancer) :
    ∃ e b', oneOf registry name draw (.ok set) b = (.ok e, b') ∧ e ∈ set := by
  obtain ⟨e, b', hpick, hmem⟩ := b.exists_pick hne draw
  exact ⟨e, b', by rw [oneOf, one, hpick], hmem⟩

namespace Delivery

variable {ρ : Type}

/-- The key whose set the next operation drops, as a handler asks for. -/
def dropping? : Delivery false ρ → Option Key
  | .run (.invalidate key _) :: _ => some key
  | _ => none

private theorem get?_step_eq {c : HandlerCache false ρ} {d : Delivery false ρ} {o : Outcome false ρ}
    (h : d.step c = some o) (key : Key) :
    o.cache.get? key = if d.dropping? = some key then none else c.get? key := by
  cases d with
  | nil => cases h
  | cons frame rest =>
    cases frame with
    | call set handlers => cases handlers <;> cases h <;> rfl
    | run script =>
      cases script with
      | write allowed => cases allowed
      | invalidate dropped next =>
        cases h
        simp only [runScript, dropping?, Option.some.injEq]
        exact Cache.get?_invalidate c dropped key
      | _ => cases h; rfl

end Delivery

namespace Lookup

variable {ρ : Type}

/-- Whether a lookup has still to write, if it ever does. -/
def isUnwritten : Lookup ρ → Bool
  | .arriving _ | .reading _ | .asking _ | .seeding _ _ _ => true
  | .notifying _ _ _ _ _ | .spawning _ _ _ | .finished _ => false

/-- The key that a lookup has stored a set for and whether it won the claim, until it returns. -/
def written? : Lookup ρ → Option (Key × Bool)
  | .notifying key _ _ claimed _ => some (key, claimed)
  | .spawning key _ _ => some (key, true)
  | _ => none

/-- A lookup that has written has not still to. -/
theorem isUnwritten_of_written? {l : Lookup ρ} {p : Key × Bool} (h : l.written? = some p) :
    l.isUnwritten = false := by
  cases l <;> first | rfl | cases h

/-- The key whose set the next step of a lookup drops, as the handler that it calls asks for. -/
def dropping? : Lookup ρ → Option Key
  | .notifying _ _ _ _ d => d.dropping?
  | _ => none

end Lookup

namespace Service

variable {ρ : Type} {s s' t t' : Service ρ} {a : Action ρ} {actions : List (Action ρ)}
  {events : List (Event ρ)} {i : Nat} {key : Key} {claimed : Bool} {f : Failure}

/-! ### One step of a lookup -/

/-- What a step of a lookup does to the cache and the watchers, by how far the lookup has come. -/
inductive Advance (s : Service ρ) (i : Nat) (a : Action ρ) (s' : Service ρ) : Prop
  /-- Nothing has been written, and nothing is. -/
  | unwritten {l l' : Lookup ρ} (hl : s.lookups[i]? = some l) (hu : l.isUnwritten = true)
      (hl' : s'.lookups[i]? = some l')
      (hu' : l'.isUnwritten = true ∨ ∃ result, l' = .finished result)
      (hc : s'.cache = s.cache) (hw : s'.watchers = s.watchers)
  /-- A set is stored, and its key claimed if nobody has claimed it. -/
  | wrote {key : Key} {set : EndpointSet} {index : Nat} {l' : Lookup ρ} (ha : a = .lookup i)
      (hl : s.lookups[i]? = some (.seeding key set index)) (hl' : s'.lookups[i]? = some l')
      (hn : l'.written? = some (key, !s.cache.isWatched key))
      (hc : s'.cache = (s.cache.seed key set).2.2) (hw : s'.watchers = s.watchers)
  /-- Handlers are told of the set, or have been. -/
  | delivered {l l' : Lookup ρ} {key : Key} {claimed : Bool} (hl : s.lookups[i]? = some l)
      (hn : l.written? = some (key, claimed)) (hl' : s'.lookups[i]? = some l')
      (hn' : l'.written? = some (key, claimed)) (hc : s'.cache.watching = s.cache.watching)
      (hg : ∀ k, s'.cache.get? k = if l.dropping? = some k then none else s.cache.get? k)
      (hw : s'.watchers = s.watchers)
  /-- The set and the claim are taken back. -/
  | withdrawn {key : Key} {set : EndpointSet} {index : Nat} (ha : a = .lookup i)
      (hl : s.lookups[i]? = some (.spawning key set index))
      (hl' : s'.lookups[i]? = some (.finished (.error .shuttingDown)))
      (hc : s'.cache = s.cache.release key) (hw : s'.watchers = s.watchers)
  /-- The lookup returns a set that it has written. -/
  | returned {l : Lookup ρ} {key : Key} {claimed : Bool} {set : EndpointSet}
      (hl : s.lookups[i]? = some l) (hn : l.written? = some (key, claimed))
      (hl' : s'.lookups[i]? = some (.finished (.ok set)))

/-- Every step of a lookup is one of these. -/
theorem advance_of_transition (h : Transition s a s' events) (ha : a.task? = some (.lookup i)) :
    s.Advance i a s' := by
  cases h with
  | refused hl _ | served hl _ _ | failed hl _ =>
    cases ha
    exact .unwritten hl rfl (lookups_setLookup hl) (Or.inr ⟨_, rfl⟩) rfl rfl
  | admitted hl _ | missed hl _ | found hl _ =>
    cases ha
    exact .unwritten hl rfl (lookups_setLookup hl) (Or.inl rfl) rfl rfl
  | seeded hl =>
    cases ha
    exact .wrote rfl hl (lookups_setLookup (by exact hl)) rfl rfl rfl
  | told hl ho =>
    cases ha
    exact .delivered hl rfl (lookups_setLookup (by exact hl)) rfl (Delivery.watching_step ho)
      (Delivery.get?_step_eq ho) rfl
  | won hl =>
    cases ha
    exact .delivered hl rfl (lookups_setLookup hl) rfl rfl (fun _ => rfl) rfl
  | lost hl | spawned hl _ =>
    cases ha
    exact .returned hl rfl (lookups_setLookup (by exact hl))
  | withdrawn hl _ =>
    cases ha
    exact .withdrawn rfl hl (lookups_setLookup (by exact hl)) rfl rfl
  | _ => cases ha

private theorem not_finished_of_transition (h : Transition s a s' events)
    (ha : a.task? = some (.lookup i)) {result : Except Failure EndpointSet} :
    s.lookups[i]? ≠ some (.finished result) := by
  intro hl
  cases advance_of_transition h ha with
  | unwritten hl' hu _ _ _ _ =>
    cases hl.symm.trans hl'
    cases hu
  | wrote _ hl' _ _ _ _ | withdrawn _ hl' _ _ _ => cases hl.symm.trans hl'
  | delivered hl' hn _ _ _ _ _ | returned hl' hn _ =>
    cases hl.symm.trans hl'
    cases hn

/-- A step starts no watcher unless the lookup returns a set with it. -/
theorem Advance.watchers (h : s.Advance i a s')
    (hn : ∀ set, s'.lookups[i]? ≠ some (.finished (.ok set))) : s'.watchers = s.watchers := by
  cases h with
  | unwritten _ _ _ _ _ hw | wrote _ _ _ _ _ hw | delivered _ _ _ _ _ _ hw
  | withdrawn _ _ _ _ hw => exact hw
  | returned _ _ hl' => exact absurd hl' (hn _)

private theorem isUnwritten_of_task_ne (h : Transition s a s' events)
    (ha : a.task? ≠ some (.lookup i)) (hu : (s.lookups[i]?).all Lookup.isUnwritten = true) :
    (s'.lookups[i]?).all Lookup.isUnwritten = true := by
  cases hl : s.lookups[i]? with
  | some l => rwa [lookup_of_task_ne h ha hl, ← hl]
  | none =>
    have hlength := List.getElem?_eq_none_iff.1 hl
    by_cases hcalled : ∃ name, a = .resolve name
    · obtain ⟨name, rfl⟩ := hcalled
      cases h
      rw [List.getElem?_append_right hlength, List.getElem?_singleton]
      split <;> rfl
    · have hsame := length_lookups_of_transition h fun name hname => hcalled ⟨name, hname⟩
      rw [List.getElem?_eq_none (hsame ▸ hlength)]
      rfl

/-! ### The steps of one lookup in a run -/

/-- Each step that a lookup does in a run leads from a service to one that is related to it. -/
def Steps (i : Nat) (P : Service ρ → Service ρ → Prop) : Service ρ → List (Action ρ) → Prop
  | _, [] => True
  | s, a :: rest => ∀ t events, s.step a = some (t, events) →
      (a.task? = some (.lookup i) → P s t) ∧ Steps i P t rest

/-- The keys whose sets a lookup drops in a run, as the handlers that it calls ask for. -/
def dropped (i : Nat) : Service ρ → List (Action ρ) → List Key
  | _, [] => []
  | s, a :: rest =>
    match s.step a with
    | none => []
    | some (t, _) =>
      (if a.task? = some (.lookup i) then (s.lookups[i]?.bind Lookup.dropping?).toList else []) ++
        dropped i t rest

/-- A first step, and the steps that follow it. -/
theorem Steps.cons {P : Service ρ → Service ρ → Prop} {first : List (Event ρ)}
    (hs : s.step a = some (t, first)) (hP : a.task? = some (.lookup i) → P s t)
    (h : Steps i P t actions) : Steps i P s (a :: actions) := by
  intro u now hu
  cases hs.symm.trans hu
  exact ⟨hP, h⟩

private theorem Steps.at {P : Service ρ → Service ρ → Prop} (before : List (Action ρ))
    {after : List (Action ρ)} (h : Steps i P s (before ++ a :: after))
    (hr : s.run before = some (t, events)) (ha : a.task? = some (.lookup i))
    {now : List (Event ρ)} (hs : t.step a = some (t', now)) : P t t' := by
  induction before generalizing s events with
  | nil =>
    cases hr
    exact (h t' now hs).1 ha
  | cons b before ih =>
    obtain ⟨u, first, later, hb, hrun, -⟩ := step_of_run_cons hr
    exact ih (h u first hb).2 hrun

private theorem Steps.of_none {P : Service ρ → Service ρ → Prop}
    (h : ∀ a ∈ actions, a.task? ≠ some (.lookup i)) : Steps i P s actions := by
  induction actions generalizing s with
  | nil => trivial
  | cons a actions ih =>
    intro t now _
    refine ⟨fun ha => absurd ha (h a List.mem_cons_self), ih fun b hb => ?_⟩
    exact h b (List.mem_cons_of_mem a hb)

/-- What the first step drops, and what the steps after it drop. -/
theorem mem_dropped_cons {l : Lookup ρ} {first : List (Event ρ)} (hs : s.step a = some (t, first))
    (ha : a.task? = some (.lookup i)) (hl : s.lookups[i]? = some l) :
    key ∈ dropped i s (a :: actions) ↔ l.dropping? = some key ∨ key ∈ dropped i t actions := by
  simp [dropped, hs, ha, hl]

/-- A lookup that has returned does no step in a run, and stays as it is. -/
theorem no_step_of_finished {result : Except Failure EndpointSet}
    (hl : s.lookups[i]? = some (.finished result)) (hr : s.run actions = some (s', events)) :
    (∀ a ∈ actions, a.task? ≠ some (.lookup i)) ∧ s'.lookups[i]? = some (.finished result) := by
  induction actions generalizing s events with
  | nil =>
    cases hr
    exact ⟨nofun, hl⟩
  | cons a actions ih =>
    obtain ⟨t, first, later, hs, ht, -⟩ := step_of_run_cons hr
    obtain ⟨hrest, hend⟩ := ih (finished_of_transition (transition_of_step hs) hl) ht
    refine ⟨List.forall_mem_cons.2 ⟨fun ha => ?_, hrest⟩, hend⟩
    exact not_finished_of_transition (transition_of_step hs) ha hl

/-- A lookup that fails in the end starts no watcher in any of its steps. -/
theorem watchers_of_failed (hr : s.run actions = some (s', events))
    (hf : s'.lookups[i]? = some (.finished (.error f))) :
    Steps i (fun t t' => t'.watchers = t.watchers) s actions := by
  induction actions generalizing s events with
  | nil => trivial
  | cons a actions ih =>
    obtain ⟨t, first, later, hs, ht, -⟩ := step_of_run_cons hr
    refine Steps.cons hs (fun ha => ?_) (ih ht)
    refine (advance_of_transition (transition_of_step hs) ha).watchers fun set hset => ?_
    cases hf.symm.trans (no_step_of_finished hset ht).2

/-! ### Taking back what was written -/

/-- A lookup that has written and won the claim of a key takes both back in the step that follows a
run. -/
structure Withdraws (i : Nat) (key : Key) (s : Service ρ) (between : List (Action ρ))
    (t : Service ρ) : Prop where
  run : ∃ events, s.run (between ++ [.lookup i]) = some (t, events)
  returned : t.lookups[i]? = some (.finished (.error .shuttingDown))
  watching : (∀ a ∈ between, a.task? = some (.lookup i)) →
    t.cache.watching = s.cache.watching.filter (· ≠ key)
  sets : (∀ a ∈ between, a.task? = some (.lookup i)) → ∀ k, t.cache.get? k =
    if k = key ∨ k ∈ dropped i s between then none else s.cache.get? k

/-- A lookup stores a set and wins the claim in the first step of a run, and takes both back in the
last one. If nobody else does a step in between, the claims are what they were, and so are the sets
but for those that handlers drop. -/
structure TakesBack (i : Nat) (s : Service ρ) (between : List (Action ρ)) (t : Service ρ) :
    Prop where
  run : ∃ events, s.run (.lookup i :: between ++ [.lookup i]) = some (t, events)
  writes : ∃ key set index,
    s.lookups[i]? = some (.seeding key set index) ∧ key ∉ s.cache.watching
  returned : t.lookups[i]? = some (.finished (.error .shuttingDown))
  watching : (∀ a ∈ between, a.task? = some (.lookup i)) → t.cache.watching = s.cache.watching
  sets : (∀ a ∈ between, a.task? = some (.lookup i)) → ∀ k, t.cache.get? k =
    if k ∈ dropped i s (.lookup i :: between) then none else s.cache.get? k

/-- In a run, a lookup writes nothing but what it takes back, and does no step any more then. -/
def Undoes (i : Nat) (s : Service ρ) (actions : List (Action ρ)) : Prop :=
  ∃ before between after t t' seen,
    actions = before ++ .lookup i :: between ++ .lookup i :: after ∧
    s.run before = some (t, seen) ∧ Steps i (fun t t' => t'.cache = t.cache) s before ∧
    TakesBack i t between t' ∧ ∀ a ∈ after, a.task? ≠ some (.lookup i)

private theorem Undoes.cons {first : List (Event ρ)} (h : Undoes i t actions)
    (hs : s.step a = some (t, first)) (hc : a.task? = some (.lookup i) → t.cache = s.cache) :
    Undoes i s (a :: actions) := by
  obtain ⟨before, between, after, u, u', seen, rfl, hrun, hspared, hback, hafter⟩ := h
  exact ⟨a :: before, between, after, u, u', first ++ seen, rfl, run_cons hs hrun,
    hspared.cons hs hc, hback, hafter⟩

private theorem Withdraws.cons {between : List (Action ρ)} {l : Lookup ρ} {first : List (Event ρ)}
    (h : Withdraws i key t between t') (hs : s.step a = some (t, first))
    (hl : s.lookups[i]? = some l)
    (hc : a.task? = some (.lookup i) → t.cache.watching = s.cache.watching)
    (hg : a.task? = some (.lookup i) → ∀ k, t.cache.get? k =
      if l.dropping? = some k then none else s.cache.get? k) :
    Withdraws i key s (a :: between) t' := by
  obtain ⟨⟨later, hrun⟩, hreturned, hwatching, hsets⟩ := h
  refine ⟨⟨first ++ later, run_cons hs hrun⟩, hreturned, fun hown => ?_, fun hown k => ?_⟩
  · obtain ⟨ha, hown⟩ := List.forall_mem_cons.1 hown
    rw [hwatching hown, hc ha]
  · obtain ⟨ha, hown⟩ := List.forall_mem_cons.1 hown
    simp only [hsets hown k, hg ha k, mem_dropped_cons hs ha hl]
    by_cases hk : k = key ∨ k ∈ dropped i t between
    · rw [if_pos hk, if_pos (hk.imp_right Or.inr)]
    · obtain ⟨hother, hkept⟩ := not_or.1 hk
      simp [hother, hkept]

/-- A lookup that has written and fails in the end has won the claim, is refused as the service is
cancelled, and takes both back. -/
theorem withdraws_of_failed {l : Lookup ρ} (hl : s.lookups[i]? = some l)
    (hn : l.written? = some (key, claimed)) (hr : s.run actions = some (s', events))
    (hf : s'.lookups[i]? = some (.finished (.error f))) :
    claimed = true ∧ f = .shuttingDown ∧ ∃ between after t,
      actions = between ++ .lookup i :: after ∧ Withdraws i key s between t ∧
        ∀ a ∈ after, a.task? ≠ some (.lookup i) := by
  induction actions generalizing s l events with
  | nil =>
    cases hr
    cases hl.symm.trans hf
    cases hn
  | cons a actions ih =>
    obtain ⟨t, first, later, hs, ht, -⟩ := step_of_run_cons hr
    by_cases ha : a.task? = some (.lookup i)
    · cases advance_of_transition (transition_of_step hs) ha with
      | unwritten hl' hu _ _ _ _ =>
        cases hl.symm.trans hl'
        rw [Lookup.isUnwritten_of_written? hn] at hu
        cases hu
      | wrote _ hl' _ _ _ _ =>
        cases hl.symm.trans hl'
        cases hn
      | delivered hl' hn' hnext hnext' hc hg _ =>
        cases hl.symm.trans hl'
        cases hn.symm.trans hn'
        obtain ⟨hwon, hrefused, between, after, u, rfl, hu, hafter⟩ := ih hnext hnext' ht
        exact ⟨hwon, hrefused, a :: between, after, u, rfl,
          hu.cons hs hl (fun _ => hc) (fun _ => hg), hafter⟩
      | withdrawn hstep hl' hend hc _ =>
        subst hstep
        cases hl.symm.trans hl'
        cases hn
        obtain ⟨hafter, hstays⟩ := no_step_of_finished hend ht
        cases hf.symm.trans hstays
        refine ⟨rfl, rfl, [], actions, t, rfl,
          ⟨⟨_, run_cons hs rfl⟩, hend, fun _ => ?_, fun _ k => ?_⟩, hafter⟩
        · rw [hc]
          rfl
        · rw [hc, Cache.get?_release]
          simp [dropped, eq_comm]
      | returned _ _ hend => cases hf.symm.trans (no_step_of_finished hend ht).2
    · have hsame := lookup_of_task_ne (transition_of_step hs) ha hl
      obtain ⟨hwon, hrefused, between, after, u, rfl, hu, hafter⟩ := ih hsame hn ht
      exact ⟨hwon, hrefused, a :: between, after, u, rfl,
        hu.cons hs hl (fun h => absurd h ha) (fun h => absurd h ha), hafter⟩

/-- A withdrawal restores what was there before the lookup wrote, as a key that nobody claims has no
set. -/
theorem Attained.takesBack (h : s.Attained) {set : EndpointSet} {index : Nat}
    {between : List (Action ρ)} {first : List (Event ρ)}
    (hl : s.lookups[i]? = some (.seeding key set index))
    (hs : s.step (.lookup i) = some (t, first)) (hc : t.cache = (s.cache.seed key set).2.2)
    (hwon : (!s.cache.isWatched key) = true) (hw : Withdraws i key t between t') :
    TakesBack i s between t' := by
  have hkey : key ∉ s.cache.watching := by simpa [Cache.isWatched] using hwon
  have hnone : s.cache.get? key = none := by
    refine Option.eq_none_iff_forall_ne_some.2 fun old hold => hkey ?_
    exact h.mem_watching_of_get? hold
  obtain ⟨⟨later, hrun⟩, hreturned, hwatching, hsets⟩ := hw
  refine ⟨⟨first ++ later, run_cons hs hrun⟩, ⟨key, set, index, hl, hkey⟩, hreturned,
    fun hown => ?_, fun hown k => ?_⟩
  · rw [hwatching hown, hc, Cache.watching_seed, Cache.filter_watching_claim hkey]
  · simp only [hsets hown k, hc, Cache.get?_seed, mem_dropped_cons hs rfl hl]
    by_cases hk : k = key
    · subst hk
      simp [hnone]
    · simp [hk, Ne.symm hk, Lookup.dropping?]

/-- A lookup that has not written and fails in the end either never writes, or takes back what it
writes. -/
theorem Attained.takesBack_of_failed (h : s.Attained)
    (hu : (s.lookups[i]?).all Lookup.isUnwritten = true)
    (hr : s.run actions = some (s', events))
    (hf : s'.lookups[i]? = some (.finished (.error f))) :
    Steps i (fun t t' => t'.cache = t.cache) s actions ∨
      f = .shuttingDown ∧ Undoes i s actions := by
  induction actions generalizing s events with
  | nil => exact Or.inl trivial
  | cons a actions ih =>
    obtain ⟨t, first, later, hs, ht, -⟩ := step_of_run_cons hr
    -- As long as nothing is written, the rest of the run decides which of the two holds.
    have hgoes (hu' : (t.lookups[i]?).all Lookup.isUnwritten = true)
        (hc : a.task? = some (.lookup i) → t.cache = s.cache) :
        Steps i (fun t t' => t'.cache = t.cache) s (a :: actions) ∨
          f = .shuttingDown ∧ Undoes i s (a :: actions) := by
      rcases ih (h.step hs) hu' ht with hrest | ⟨hrefused, hrest⟩
      · exact Or.inl (Steps.cons hs hc hrest)
      · exact Or.inr ⟨hrefused, hrest.cons hs hc⟩
    by_cases ha : a.task? = some (.lookup i)
    · cases advance_of_transition (transition_of_step hs) ha with
      | unwritten hl _ hl' hu' hc _ =>
        rcases hu' with hu' | ⟨result, rfl⟩
        · exact hgoes (by simpa [hl'] using hu') fun _ => hc
        · exact Or.inl (Steps.cons hs (fun _ => hc) (Steps.of_none (no_step_of_finished hl' ht).1))
      | wrote hstep hl hl' hn hc _ =>
        subst hstep
        obtain ⟨hwon, hrefused, between, after, u, rfl, hback, hafter⟩ :=
          withdraws_of_failed hl' hn ht hf
        exact Or.inr ⟨hrefused, [], between, after, s, u, [], rfl, rfl, trivial,
          h.takesBack hl hs hc hwon hback, hafter⟩
      | delivered hl hn _ _ _ _ _ | returned hl hn _ =>
        rw [hl, Option.all_some, Lookup.isUnwritten_of_written? hn] at hu
        cases hu
      | withdrawn _ hl _ _ _ =>
        rw [hl] at hu
        cases hu
    · exact hgoes (isUnwritten_of_task_ne (transition_of_step hs) ha hu) fun h => absurd h ha

/-- A lookup that has returned a set has not returned the empty one, so that an endpoint of it can
always be chosen. One that has failed started no watcher, and its steps never changed the cache,
except when it was refused after it had stored its set and won the claim. Its last step took both
back then: if nobody else did a step in between, all claims and all sets are those from before its
first write, but for sets that were dropped by handlers it had to tell. -/
theorem failed_leaves_nothing {registry : String} {agent : Agent} {watch : WatchConfig}
    (hr : (start registry agent watch).run actions = some (s, events)) (i : Nat) :
    (∀ set, s.lookups[i]? = some (.finished (.ok set)) → set.isEmpty = false ∧
      ∀ name draw b, ∃ e b',
        Choice.oneOf s.registry name draw (.ok set) b = (.ok e, b') ∧ e ∈ set) ∧
    ∀ f, s.lookups[i]? = some (.finished (.error f)) →
      Steps i (fun t t' => t'.watchers = t.watchers) (start registry agent watch) actions ∧
      (Steps i (fun t t' => t'.cache = t.cache) (start registry agent watch) actions ∨
        f = .shuttingDown ∧ Undoes i (start registry agent watch) actions) := by
  refine ⟨fun set hset => ?_, fun f hf => ⟨watchers_of_failed hr hf, ?_⟩⟩
  · have hstart : (start registry agent watch : Service ρ).Fruitful := fun _ hl => nomatch hl
    have hfruitful : s.Fruitful :=
      run_invariant (fun _ _ _ _ ht hs => Fruitful.of_transition hs ht) hstart hr
    have hne := hfruitful _ (List.mem_of_getElem? hset) set rfl
    exact ⟨hne, fun name draw b => Choice.exists_oneOf hne s.registry name draw b⟩
  · exact (Attained.start registry agent watch).takesBack_of_failed rfl hr hf

/-- A name is resolved and watched, and a second lookup gets its answer after the cancellation. -/
def overdue : List (Action Unit) :=
  [.resolve "db", .lookup 0, .lookup 0,
    .answerLookup 0 (.ok ⟨[.ofAddress "db" "10.0.0.3" 5432], 4⟩), .lookup 0, .lookup 0, .lookup 0,
    .subscribe "api" fun _ _ => .done, .resolve "api", .lookup 1, .lookup 1, .callShutdown,
    .shutdown 0, .answerLookup 1 (.ok ⟨[.ofAddress "api" "10.0.0.1" 80], 5⟩)]

/-- The second lookup goes on to its end. -/
def finishing : List (Action Unit) :=
  [.lookup 1, .lookup 1, .lookup 1, .lookup 1, .lookup 1, .lookup 1]

/-- The first lookup returns a set from which one is chosen. The second stores a set and claims its
key, and is refused then; afterwards the first name is cached and watched as it was, and the second
is not. -/
theorem failed_leaves_nothing_overdue :
    ∃ s events set e b', (start "registry" default .standard).run (overdue ++ finishing) =
        some (s, events) ∧
      s.lookups[0]? = some (.finished (.ok set)) ∧
      Choice.oneOf s.registry "db" 0 (.ok set) (.ofStrategy .first) = (.ok e, b') ∧ e ∈ set ∧
      s.lookups[1]? = some (.finished (.error .shuttingDown)) ∧
      Undoes 1 (start "registry" default .standard) (overdue ++ finishing) ∧
      s.cache.watching = [.ofName "db"] ∧ s.cached "db" = some set ∧ s.cached "api" = none ∧
      s.watchers.length = 1 := by
  obtain ⟨s, events, hrun, hok, hrefused, hrest⟩ : ∃ s events,
      (start "registry" default .standard).run (overdue ++ finishing) = some (s, events) ∧
        s.lookups[0]? = some (.finished (.ok (.ofList [⟨"10.0.0.3", 5432⟩]))) ∧
        s.lookups[1]? = some (.finished (.error .shuttingDown)) ∧
        s.cache.watching = [.ofName "db"] ∧
        s.cached "db" = some (.ofList [⟨"10.0.0.3", 5432⟩]) ∧ s.cached "api" = none ∧
        s.watchers.length = 1 := ⟨_, _, rfl, rfl, rfl, rfl, rfl, rfl, rfl⟩
  obtain ⟨hchosen, -⟩ := failed_leaves_nothing hrun 0
  obtain ⟨e, b', hone, hmem⟩ := (hchosen _ hok).2 "db" 0 (.ofStrategy .first)
  obtain ⟨-, hfailed⟩ := failed_leaves_nothing hrun 1
  obtain ⟨-, hspared | ⟨-, hundone⟩⟩ := hfailed _ hrefused
  · have hsame := hspared.at overdue rfl rfl rfl
    cases congrArg Cache.watching hsame
  · exact ⟨s, events, _, e, b', hrun, hok, hone, hmem, hrefused, hundone, hrest⟩

/-- The same with a handler for the second name that drops the set of the first. -/
def meddled : List (Action Unit) :=
  [.resolve "db", .lookup 0, .lookup 0,
    .answerLookup 0 (.ok ⟨[.ofAddress "db" "10.0.0.3" 5432], 4⟩), .lookup 0, .lookup 0, .lookup 0,
    .subscribe "api" fun _ _ => .invalidate (.ofName "db") fun _ => .done, .resolve "api",
    .lookup 1, .lookup 1, .callShutdown, .shutdown 0,
    .answerLookup 1 (.ok ⟨[.ofAddress "api" "10.0.0.1" 80], 5⟩)]

/-- The second lookup, which is about to write, goes on to its refusal alone. The set of the first
name is gone after it: the handler dropped it while it was told of the set that is taken back. -/
theorem handler_drops_in_failed_lookup :
    ∃ s t events later, (start "registry" default .standard).run meddled = some (s, events) ∧
      s.run (List.replicate 7 (.lookup 1)) = some (t, later) ∧
      s.lookups[1]? = some (.seeding (.ofName "api") (.ofList [⟨"10.0.0.1", 80⟩]) 5) ∧
      t.lookups[1]? = some (.finished (.error .shuttingDown)) ∧
      s.cache.get? (.ofName "db") = some (.ofList [⟨"10.0.0.3", 5432⟩]) ∧
      t.cache.get? (.ofName "db") = none :=
  ⟨_, _, _, _, rfl, rfl, rfl, rfl, rfl, rfl⟩

end Service

end ServiceDiscovery
