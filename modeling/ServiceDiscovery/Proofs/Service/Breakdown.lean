import ServiceDiscovery.Proofs.Service.Shutdown

/-!
# Breakdowns

What a service comes to when the registry breaks down under a watcher's query. To everybody else it
looks as if the query were still out: each service with broken watchers looks like one that was
reached without a breakdown, in which these watchers wait. What holds of the cache there holds here,
so a broken watcher keeps the claim of its key forever.
-/

namespace ServiceDiscovery

/-- A watcher is another one, or has broken down under the other's query. -/
inductive Watcher.Resembles {ρ : Type} : Watcher ρ → Watcher ρ → Prop
  /-- They are the same. -/
  | same (w : Watcher ρ) : Resembles w w
  /-- The query of the second is out, and broke down under the first. -/
  | broken (key : Key) (cursor : Cursor) : Resembles ⟨key, .crashed⟩ ⟨key, .asking cursor⟩

/-- Two lists of watchers each of which resembles the one at its place. -/
structure Watcher.Resembling {ρ : Type} (watchers others : List (Watcher ρ)) : Prop where
  length : others.length = watchers.length
  watcher : ∀ (j : Nat) (w : Watcher ρ), watchers[j]? = some w →
    ∃ v, others[j]? = some v ∧ w.Resembles v

namespace Watcher.Resembling

variable {ρ : Type} {watchers others : List (Watcher ρ)} {j : Nat} {w v : Watcher ρ}

/-- A watcher that has not broken down is in both lists. -/
theorem getElem?_eq (h : Resembling watchers others) (hw : watchers[j]? = some w)
    (hc : w.stage ≠ .crashed) : others[j]? = some w := by
  obtain ⟨v, hv, hr⟩ := h.watcher j w hw
  cases hr with
  | same => exact hv
  | broken => exact absurd rfl hc

/-- Watchers that resemble each other may be put at the same place. -/
theorem set (h : Resembling watchers others) (j : Nat) (hr : w.Resembles v) :
    Resembling (watchers.set j w) (others.set j v) := by
  refine ⟨by simp [h.length], fun k x hx => ?_⟩
  by_cases hk : j = k
  · subst hk
    have hj : j < watchers.length := by simpa using (List.getElem?_eq_some_iff.1 hx).1
    rw [List.getElem?_set_self hj] at hx
    cases hx
    exact ⟨v, List.getElem?_set_self (h.length ▸ hj), hr⟩
  · rw [List.getElem?_set_ne hk] at hx ⊢
    exact h.watcher k x hx

private theorem concat (h : Resembling watchers others) (w : Watcher ρ) :
    Resembling (watchers ++ [w]) (others ++ [w]) := by
  refine ⟨by simp [h.length], fun k x hx => ?_⟩
  rcases Nat.lt_or_ge k watchers.length with hk | hk
  · rw [List.getElem?_append_left hk] at hx
    rw [List.getElem?_append_left (h.length ▸ hk)]
    exact h.watcher k x hx
  · rw [List.getElem?_append_right hk] at hx
    rw [List.getElem?_append_right (h.length ▸ hk), h.length]
    exact ⟨x, hx, .same x⟩

private theorem crash (h : Resembling watchers others) {key : Key} {cursor : Cursor}
    (hw : watchers[j]? = some ⟨key, .asking cursor⟩) :
    Resembling (watchers.set j ⟨key, .crashed⟩) others := by
  have hv : others[j]? = some ⟨key, .asking cursor⟩ := h.getElem?_eq hw nofun
  obtain ⟨hj, hj'⟩ := List.getElem?_eq_some_iff.1 hv
  have hset := h.set j (.broken key cursor)
  rwa [← hj', List.set_getElem_self] at hset

end Watcher.Resembling

namespace Service

variable {ρ : Type} {s s' : Service ρ} {a : Action ρ} {events : List (Event ρ)}

/-- The services that actions lead to from a start, whatever the registry does. -/
inductive Attained : Service ρ → Prop
  /-- A service has just been started. -/
  | start (registry : String) (agent : Agent) (watch : WatchConfig) :
      Attained (.start registry agent watch)
  /-- An action follows. -/
  | step {s s' : Service ρ} {a : Action ρ} {events : List (Event ρ)} (h : Attained s)
      (hs : s.step a = some (s', events)) : Attained s'

/-- What is reached without a breakdown is attained. -/
theorem Reached.attained (h : s.Reached) : s.Attained := by
  induction h with
  | start registry agent watch => exact .start registry agent watch
  | step _ _ hs ih => exact .step ih hs

/-- A run leads from an attained service to an attained one. -/
theorem Attained.run {actions : List (Action ρ)} (h : s.Attained)
    (hr : s.run actions = some (s', events)) : s'.Attained := by
  induction actions generalizing s events with
  | nil =>
    cases hr
    exact h
  | cons a rest ih =>
    obtain ⟨t, first, later, hs, ht, -⟩ := step_of_run_cons hr
    exact ih (.step h hs) ht

/-- In every attained service the watchers are supervised. -/
theorem Attained.supervised (h : s.Attained) : s.Supervised := by
  induction h with
  | start registry agent watch => exact (Reached.start registry agent watch).supervised
  | step _ hs ih => exact ih.of_transition (transition_of_step hs)

/-! ### What a service with broken watchers looks like -/

/-- The service with other watchers, and with a task set and shutdown calls that go with them. -/
def withWatchers (s : Service ρ) (watchers : List (Watcher ρ)) (supervised : List Nat)
    (shutdowns : List Shutdown) : Service ρ :=
  { s with watchers := watchers, supervised := supervised, shutdowns := shutdowns }

/-- The service looks like a reached one in which the broken watchers still wait. -/
def Masked (s : Service ρ) : Prop :=
  ∃ watchers supervised shutdowns, (s.withWatchers watchers supervised shutdowns).Reached ∧
    Watcher.Resembling s.watchers watchers

section

variable {watchers : List (Watcher ρ)} {supervised : List Nat} {shutdowns : List Shutdown}

private theorem masked_step {r' : Service ρ}
    (hr : (s.withWatchers watchers supervised shutdowns).Reached)
    (ht : Transition (s.withWatchers watchers supervised shutdowns) a r' events)
    (ha : ∀ j, a ≠ .crash j)
    (he : r' = s'.withWatchers r'.watchers r'.supervised r'.shutdowns)
    (hf : Watcher.Resembling s'.watchers r'.watchers) : s'.Masked :=
  have hr' : r'.Reached := hr.step ha (step_of_transition ht)
  ⟨_, _, _, he ▸ hr', hf⟩

end

/-- Every transition of a service that looks reached leads to one that does. -/
theorem Masked.of_transition (h : s.Masked) (ht : Transition s a s' events) : s'.Masked := by
  obtain ⟨watchers, supervised, shutdowns, hr, hf⟩ := h
  cases ht with
  | called name => exact masked_step hr (.called name) nofun rfl hf
  | refused hl hc => exact masked_step hr (.refused hl hc) nofun rfl hf
  | admitted hl hc => exact masked_step hr (.admitted hl hc) nofun rfl hf
  | served hl hs hne => exact masked_step hr (.served hl hs hne) nofun rfl hf
  | missed hl hs => exact masked_step hr (.missed hl hs) nofun rfl hf
  | found hl hx => exact masked_step hr (.found hl hx) nofun rfl hf
  | failed hl hx => exact masked_step hr (.failed hl hx) nofun rfl hf
  | seeded hl => exact masked_step hr (.seeded hl) nofun rfl hf
  | told hl ho => exact masked_step hr (.told hl ho) nofun rfl hf
  | won hl => exact masked_step hr (.won hl) nofun rfl hf
  | lost hl => exact masked_step hr (.lost hl) nofun rfl hf
  | withdrawn hl hc => exact masked_step hr (.withdrawn hl hc) nofun rfl hf
  | spawned hl hc => exact masked_step hr (.spawned hl hc) nofun rfl (hf.concat _)
  | observed hw hx =>
    exact masked_step hr (.observed (hf.getElem?_eq hw nofun) hx) nofun rfl (hf.set _ (.same _))
  | stumbled hw hx hc =>
    exact masked_step hr (.stumbled (hf.getElem?_eq hw nofun) hx hc) nofun rfl (hf.set _ (.same _))
  | gaveUp hw hx hc =>
    exact masked_step hr (.gaveUp (hf.getElem?_eq hw nofun) hx hc) nofun rfl (hf.set _ (.same _))
  | resumed hw =>
    exact masked_step hr (.resumed (hf.getElem?_eq hw nofun)) nofun rfl (hf.set _ (.same _))
  | recalled hw hc =>
    exact masked_step hr (.recalled (hf.getElem?_eq hw nofun) hc) nofun rfl (hf.set _ (.same _))
  | roused hw hc =>
    exact masked_step hr (.roused (hf.getElem?_eq hw nofun) hc) nofun rfl (hf.set _ (.same _))
  | stored hw =>
    exact masked_step hr (.stored (hf.getElem?_eq hw nofun)) nofun rfl (hf.set _ (.same _))
  | relayed hw ho =>
    exact masked_step hr (.relayed (hf.getElem?_eq hw nofun) ho) nofun rfl (hf.set _ (.same _))
  | rearmed hw =>
    exact masked_step hr (.rearmed (hf.getElem?_eq hw nofun)) nofun rfl (hf.set _ (.same _))
  | left hw =>
    exact masked_step hr (.left (hf.getElem?_eq hw nofun)) nofun rfl (hf.set _ (.same _))
  | crashed hw => exact ⟨watchers, supervised, shutdowns, hr, hf.crash hw⟩
  | shutdownCalled | took _ | joined _ _ => exact ⟨watchers, supervised, shutdowns, hr, hf⟩
  | requested _ =>
    -- The shutdown that the other service needs for its own cancellation is called on the spot.
    have hcalled : (s.withWatchers watchers supervised (shutdowns ++ [.cancelling])).Reached :=
      hr.step (a := .callShutdown) nofun (step_of_transition .shutdownCalled)
    exact masked_step hcalled (.requested List.getElem?_concat_length) nofun rfl hf
  | invalidated name => exact masked_step hr (.invalidated name) nofun rfl hf
  | subscribed name handler => exact masked_step hr (.subscribed name handler) nofun rfl hf
  | unsubscribed name id => exact masked_step hr (.unsubscribed name id) nofun rfl hf

/-- Every attained service looks like a reached one. -/
theorem Attained.masked (h : s.Attained) : s.Masked := by
  induction h with
  | start registry agent watch =>
    exact ⟨[], [], [], .start registry agent watch, rfl, fun j w hw => ⟨w, hw, .same w⟩⟩
  | step _ hs ih => exact ih.of_transition (transition_of_step hs)

private theorem held?_watcher {j : Nat} {w : Watcher ρ} {key : Key} (hw : s.watchers[j]? = some w)
    (hk : w.held? = some key) : s.held? (.watcher j) = some key := by
  simp [held?, observe, hw, hk]

private theorem held?_of_resembling {watchers : List (Watcher ρ)} {supervised : List Nat}
    {shutdowns : List Shutdown} (hf : Watcher.Resembling s.watchers watchers) {t : Task} {key : Key}
    (ht : s.held? t = some key) :
    (s.withWatchers watchers supervised shutdowns).held? t = some key := by
  cases t with
  | lookup i => exact ht
  | watcher j =>
    obtain ⟨w, hw, hk⟩ := Option.bind_eq_some_iff.1 ht
    have hc : w.stage ≠ .crashed := fun hc => by simp [Watcher.held?, Watcher.isOver, hc] at hk
    exact held?_watcher (hf.getElem?_eq hw hc) hk

/-- The key of a broken watcher is watched, and nobody holds its claim. -/
theorem Attained.watched_of_crashed (h : s.Attained) {j : Nat} {key : Key}
    (hw : s.watchers[j]? = some ⟨key, .crashed⟩) :
    key ∈ s.cache.watching ∧ ∀ t, s.held? t ≠ some key := by
  obtain ⟨watchers, supervised, shutdowns, hr, hf⟩ := h.masked
  obtain ⟨v, hv, hres⟩ := hf.watcher j _ hw
  have hj : (s.withWatchers watchers supervised shutdowns).held? (.watcher j) = some key := by
    cases hres with
    | same =>
      obtain ⟨exit, he⟩ := hr.ended hv rfl
      cases he
    | broken _ cursor => exact held?_watcher hv rfl
  refine ⟨hr.accounted.watched _ _ hj, fun t ht => ?_⟩
  cases hr.accounted.unique t _ key (held?_of_resembling hf ht) hj
  simp [held?, observe, hw, Watcher.held?, Watcher.isOver] at ht

/-- A watched key is held by a task, or its watcher has broken down. -/
theorem Attained.holder (h : s.Attained) {key : Key} (hk : key ∈ s.cache.watching) :
    (∃ t, s.held? t = some key) ∨ ∃ j : Nat, s.watchers[j]? = some ⟨key, .crashed⟩ := by
  obtain ⟨watchers, supervised, shutdowns, hr, hf⟩ := h.masked
  obtain ⟨t, ht⟩ := hr.accounted.holder key hk
  cases t with
  | lookup i => exact Or.inl ⟨.lookup i, ht⟩
  | watcher j =>
    obtain ⟨v, hv, hkey⟩ := Option.bind_eq_some_iff.1 ht
    have hj : j < s.watchers.length := hf.length ▸ (List.getElem?_eq_some_iff.1 hv).1
    obtain ⟨v', hv', hres⟩ := hf.watcher j _ (List.getElem?_eq_getElem hj)
    cases hv.symm.trans hv'
    generalize hw : s.watchers[j] = w at hres
    have hget : s.watchers[j]? = some w := hw ▸ List.getElem?_eq_getElem hj
    cases hres with
    | same => exact Or.inl ⟨.watcher j, held?_watcher hget hkey⟩
    | broken =>
      cases hkey
      exact Or.inr ⟨j, hget⟩

/-- In every attained service, a key with a cached set is watched. -/
theorem Attained.mem_watching_of_get? (h : s.Attained) {key : Key} {set : EndpointSet}
    (hg : s.cache.get? key = some set) : key ∈ s.cache.watching := by
  obtain ⟨watchers, supervised, shutdowns, hr, -⟩ := h.masked
  exact hr.mem_watching_of_get? hg

/-- A broken watcher stays broken. -/
theorem crashed_of_transition (h : Transition s a s' events) {j : Nat} {key : Key}
    (hw : s.watchers[j]? = some ⟨key, .crashed⟩) : s'.watchers[j]? = some ⟨key, .crashed⟩ := by
  by_cases ht : a.task? = some (.watcher j)
  · cases h with
    | observed hw' _ | stumbled hw' _ _ | gaveUp hw' _ _ | resumed hw' | recalled hw' _
    | roused hw' _ | crashed hw' | stored hw' | relayed hw' _ | rearmed hw' | left hw' =>
      cases ht
      rw [hw] at hw'
      cases hw'
    | _ => cases ht
  · exact watcher_of_task_ne h ht hw

/-- A broken watcher keeps the claim of its key for good: after every run the key is still watched,
by no watcher that is alive, and no lookup holds the claim either. -/
theorem Attained.watched_of_run (h : s.Attained) {j : Nat} {key : Key}
    (hw : s.watchers[j]? = some ⟨key, .crashed⟩) {actions : List (Action ρ)}
    (hr : s.run actions = some (s', events)) :
    s'.watchers[j]? = some ⟨key, .crashed⟩ ∧ key ∈ s'.cache.watching ∧
      ∀ t, s'.held? t ≠ some key := by
  have hw' : s'.watchers[j]? = some ⟨key, .crashed⟩ :=
    run_invariant (P := fun t => t.watchers[j]? = some ⟨key, .crashed⟩)
      (fun _ _ _ _ ht hc => crashed_of_transition ht hc) hw hr
  exact ⟨hw', (h.run hr).watched_of_crashed hw'⟩

end Service

end ServiceDiscovery
