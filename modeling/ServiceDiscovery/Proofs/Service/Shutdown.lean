import ServiceDiscovery.Proofs.Service.CachedSets

/-!
# Shutdown

What a shutdown waits for and what it leaves behind. Every live watcher is in the task set or in the
hands of a shutdown call that has not returned. A call takes the task set over after it has
requested the cancellation, and nobody starts a watcher after that. So a shutdown that is the only
one leaves no live watcher when it returns; one that comes later waits for nobody.
-/

namespace ServiceDiscovery

namespace Shutdown

/-- Whether a shutdown call has taken the watchers over. -/
def hasTaken : Shutdown → Bool
  | .joining _ | .returned => true
  | .cancelling | .taking => false

/-- The watchers that a shutdown call waits for. -/
def awaited : Shutdown → List Nat
  | .joining watchers => watchers
  | .cancelling | .taking | .returned => []

end Shutdown

namespace Service

variable {ρ : Type} {s s' : Service ρ} {a : Action ρ} {events : List (Event ρ)}

/-- A watcher is over when it holds no claim. -/
theorem isOver_iff {j : Nat} : s.isOver j = true ↔ s.held? (.watcher j) = none := by
  cases hw : s.watchers[j]? <;> simp [isOver, held?, observe, hw, Watcher.held?]

/-- Who waits for the watchers. -/
structure Supervised (s : Service ρ) : Prop where
  /-- A live watcher is in the task set, or a shutdown call waits for it. -/
  live : ∀ j key, s.held? (.watcher j) = some key →
    j ∈ s.supervised ∨ ∃ d ∈ s.shutdowns, j ∈ d.awaited
  /-- A shutdown call that goes on has requested the cancellation. -/
  cancelled : ∀ d ∈ s.shutdowns, d ≠ .cancelling → s.cancelled = true
  /-- A shutdown call that has taken the watchers over leaves none in the task set. -/
  taken : ∀ d ∈ s.shutdowns, d.hasTaken = true → s.supervised = []

private theorem supervised_start (registry : String) (agent : Agent) (watch : WatchConfig) :
    (start registry agent watch : Service ρ).Supervised := by
  constructor
  · intro j key hj
    cases hj
  · intro d hd
    cases hd
  · intro d hd
    cases hd

private theorem Supervised.withCache (h : s.Supervised) (c : HandlerCache false ρ) :
    { s with cache := c }.Supervised :=
  ⟨h.live, h.cancelled, h.taken⟩

private theorem Supervised.setLookup (h : s.Supervised) (i : Nat) (l : Lookup ρ) :
    (s.setLookup i l).Supervised :=
  ⟨h.live, h.cancelled, h.taken⟩

private theorem Supervised.setWatcher (h : s.Supervised) {j : Nat} {key : Key}
    {stage : WatchStage ρ} (hw : s.watchers[j]? = some ⟨key, stage⟩)
    (hs : (⟨key, stage⟩ : Watcher ρ).isOver = false) (next : WatchStage ρ) :
    (s.setWatcher j ⟨key, next⟩).Supervised := by
  refine ⟨fun k key' hk => ?_, h.cancelled, h.taken⟩
  rw [held?, observe_setWatcher hw] at hk
  split at hk
  · next he =>
    cases he
    refine h.live j key ?_
    simp [held?, observe, hw, Watcher.held?, hs]
  · exact h.live k key' hk

private theorem Supervised.spawned (h : s.Supervised) (hc : s.cancelled = false) (key : Key)
    (index : Nat) : (s.spawn key index).Supervised := by
  have hfirst {d : Shutdown} (hd : d ∈ s.shutdowns) : d = .cancelling :=
    Decidable.byContradiction fun hne => by
      rw [h.cancelled d hd hne] at hc
      cases hc
  refine ⟨fun j key' hj => ?_, h.cancelled, fun d hd ht => ?_⟩
  · rw [held?, observe_spawn] at hj
    split at hj
    · next he =>
      cases he
      exact Or.inl (List.mem_append_right _ List.mem_cons_self)
    · have hj : s.held? (.watcher j) = some key' := hj
      have ho : s.isOver j ≠ true := fun ho => by
        rw [isOver_iff.1 ho] at hj
        cases hj
      refine (h.live j key' hj).imp_left fun hm => List.mem_append_left _ ?_
      exact List.mem_filter.2 ⟨hm, by simpa using ho⟩
  · rw [hfirst hd] at ht
    cases ht

private theorem mem_set_of_ne {l : List Shutdown} {k : Nat} {d old : Shutdown} (hd : d ∈ l)
    (hk : l[k]? = some old) (hne : d ≠ old) (new : Shutdown) : d ∈ l.set k new := by
  obtain ⟨m, hm⟩ := List.mem_iff_getElem?.1 hd
  refine List.mem_iff_getElem?.2 ⟨m, ?_⟩
  rw [List.getElem?_set_ne, hm]
  rintro rfl
  exact hne (Option.some.inj (hm.symm.trans hk))

private theorem Supervised.requested (h : s.Supervised) {k : Nat}
    (hk : s.shutdowns[k]? = some .cancelling) :
    ({ s with cancelled := true }.setShutdown k .taking).Supervised := by
  refine ⟨fun j key hj => ?_, fun _ _ _ => rfl, fun d hd ht => ?_⟩
  · rcases h.live j key hj with hm | ⟨d, hd, hm⟩
    · exact Or.inl hm
    · refine Or.inr ⟨d, mem_set_of_ne hd hk ?_ _, hm⟩
      rintro rfl
      cases hm
  · rcases List.mem_or_eq_of_mem_set hd with hd | rfl
    · exact h.taken d hd ht
    · cases ht

private theorem Supervised.took (h : s.Supervised) {k : Nat}
    (hk : s.shutdowns[k]? = some .taking) :
    ({ s with supervised := [] }.setShutdown k (.joining s.supervised)).Supervised := by
  have hlt : k < s.shutdowns.length := (List.getElem?_eq_some_iff.1 hk).1
  refine ⟨fun j key hj => Or.inr ?_, fun d hd hne => ?_, fun _ _ _ => rfl⟩
  · rcases h.live j key hj with hm | ⟨d, hd, hm⟩
    · exact ⟨.joining s.supervised, List.mem_set hlt _, hm⟩
    · refine ⟨d, mem_set_of_ne hd hk ?_ _, hm⟩
      rintro rfl
      cases hm
  · rcases List.mem_or_eq_of_mem_set hd with hd | rfl
    · exact h.cancelled d hd hne
    · exact h.cancelled _ (List.mem_of_getElem? hk) nofun

private theorem Supervised.joined (h : s.Supervised) {k : Nat} {watchers : List Nat}
    (hk : s.shutdowns[k]? = some (.joining watchers)) (ho : watchers.all s.isOver = true) :
    (s.setShutdown k .returned).Supervised := by
  have hold := List.mem_of_getElem? hk
  refine ⟨fun j key hj => (h.live j key hj).imp_right ?_, fun d hd hne => ?_, fun d hd ht => ?_⟩
  · rintro ⟨d, hd, hm⟩
    refine ⟨d, mem_set_of_ne hd hk ?_ _, hm⟩
    rintro rfl
    have hover : s.held? (.watcher j) = none := isOver_iff.1 (List.all_eq_true.1 ho j hm)
    rw [show s.held? (.watcher j) = some key from hj] at hover
    cases hover
  · rcases List.mem_or_eq_of_mem_set hd with hd | rfl
    · exact h.cancelled d hd hne
    · exact h.cancelled _ hold nofun
  · rcases List.mem_or_eq_of_mem_set hd with hd | rfl
    · exact h.taken d hd ht
    · exact h.taken _ hold rfl

private theorem Supervised.called (h : s.Supervised) :
    { s with shutdowns := s.shutdowns ++ [Shutdown.cancelling] }.Supervised := by
  refine ⟨fun j key hj => (h.live j key hj).imp_right ?_, fun d hd hne => ?_, fun d hd ht => ?_⟩
  · rintro ⟨d, hd, hm⟩
    exact ⟨d, List.mem_append_left _ hd, hm⟩
  · rcases List.mem_append.1 hd with hd | hd
    · exact h.cancelled d hd hne
    · cases List.mem_singleton.1 hd
      exact absurd rfl hne
  · rcases List.mem_append.1 hd with hd | hd
    · exact h.taken d hd ht
    · cases List.mem_singleton.1 hd
      cases ht

/-- Every transition keeps the watchers supervised. -/
theorem Supervised.of_transition (h : s.Supervised) (ht : Transition s a s' events) :
    s'.Supervised := by
  cases ht with
  | spawned _ hc => exact (h.spawned hc _ _).setLookup _ _
  | shutdownCalled => exact h.called
  | requested hk => exact h.requested hk
  | took hk => exact h.took hk
  | joined hk ho => exact h.joined hk ho
  | observed hw _ | stumbled hw _ _ | gaveUp hw _ _ | resumed hw | recalled hw _ | roused hw _
  | crashed hw | rearmed hw => exact h.setWatcher hw rfl _
  | stored hw | relayed hw _ | left hw =>
    exact (h.withCache _).setWatcher (by exact hw) rfl _
  | called _ | refused _ _ | admitted _ _ | served _ _ _ | missed _ _ | found _ _ | failed _ _
  | seeded _ | told _ _ | won _ | lost _ | withdrawn _ _ | invalidated _ | subscribed _ _
  | unsubscribed _ _ => exact ⟨h.live, h.cancelled, h.taken⟩

/-- In every reached service the watchers are supervised. -/
theorem Reached.supervised (h : s.Reached) : s.Supervised := by
  induction h with
  | start registry agent watch => exact supervised_start registry agent watch
  | step _ _ hs ih => exact ih.of_transition (transition_of_step hs)

/-- A watcher that is over was over before, has just left, or has just broken down. -/
theorem over_source (h : Transition s a s' events) {j : Nat} {w : Watcher ρ}
    (hw : s'.watchers[j]? = some w) (ho : w.isOver = true) :
    s.watchers[j]? = some w ∨ a = .crash j ∨
      ∃ exit, w.stage = .ended exit ∧ a = .watcher j ∧
        s.watchers[j]? = some ⟨w.key, .leaving exit⟩ ∧ s'.cache = s.cache.release w.key := by
  have hw' : s'.observe (fun _ => none) some (.watcher j) = some w := by simpa [observe] using hw
  cases h with
  | spawned hl _ =>
    rw [observe_setLookup (by exact hl), if_neg (by simp), observe_spawn] at hw'
    split at hw'
    · cases hw'
      cases ho
    · exact Or.inl (by simpa [observe] using hw')
  | observed hold _ | stumbled hold _ _ | gaveUp hold _ _ | resumed hold | recalled hold _
  | roused hold _ | stored hold | relayed hold _ | rearmed hold =>
    rw [observe_setWatcher (by exact hold)] at hw'
    split at hw'
    · cases hw'
      cases ho
    · exact Or.inl (by simpa [observe] using hw')
  | crashed hold =>
    rw [observe_setWatcher (by exact hold)] at hw'
    split at hw'
    · next he =>
      cases he
      exact Or.inr (Or.inl rfl)
    · exact Or.inl (by simpa [observe] using hw')
  | @left _ key exit hold =>
    rw [observe_setWatcher (by exact hold)] at hw'
    split at hw'
    · next he =>
      cases he
      cases hw'
      exact Or.inr (Or.inr ⟨exit, rfl, rfl, hold, rfl⟩)
    · exact Or.inl (by simpa [observe] using hw')
  | _ => exact Or.inl hw

/-- In every reached service a watcher that is over has left. -/
theorem Reached.ended (h : s.Reached) {j : Nat} {w : Watcher ρ} (hw : s.watchers[j]? = some w)
    (ho : w.isOver = true) : ∃ exit, w.stage = .ended exit := by
  induction h with
  | start registry agent watch => cases hw
  | step _ ha hs ih =>
    rcases over_source (transition_of_step hs) hw ho with hold | hcrash | ⟨exit, hexit, -⟩
    · exact ih hold
    · exact absurd hcrash (ha j)
    · exact ⟨exit, hexit⟩

/-- A cancellation is final, and no watcher is started after it. -/
theorem cancelled_of_transition (h : Transition s a s' events) (hc : s.cancelled = true) :
    s'.cancelled = true ∧ s'.watchers.length = s.watchers.length := by
  cases h with
  | spawned _ hn =>
    rw [hn] at hc
    cases hc
  | requested _ => exact ⟨rfl, rfl⟩
  | observed _ _ | stumbled _ _ _ | gaveUp _ _ _ | resumed _ | recalled _ _ | roused _ _
  | crashed _ | rearmed _ | stored _ | relayed _ _ | left _ => exact ⟨hc, List.length_set⟩
  | _ => exact ⟨hc, rfl⟩

/-- Whether a lookup of a name is refused, or will be at its first step. -/
def Refuses (s : Service ρ) (i : Nat) (name : String) : Prop :=
  s.lookups[i]? = some (.arriving name) ∨
    s.lookups[i]? = some (.finished (.error .shuttingDown))

/-- A lookup that comes after the cancellation does nothing but return the refusal. -/
theorem refuses_of_transition (h : Transition s a s' events) (hc : s.cancelled = true) {i : Nat}
    {name : String} (hr : s.Refuses i name) : s'.Refuses i name := by
  by_cases ha : a.task? = some (.lookup i)
  · cases h with
    | refused hl _ =>
      cases ha
      have hi : i < s.lookups.length := (List.getElem?_eq_some_iff.1 hl).1
      exact Or.inr (by simp [setLookup, hi])
    | admitted _ hn =>
      rw [hc] at hn
      cases hn
    | served hl _ _ | missed hl _ | found hl _ | failed hl _ | seeded hl | told hl _ | won hl
    | lost hl | withdrawn hl _ | spawned hl _ =>
      cases ha
      rcases hr with hr | hr <;> (rw [hl] at hr; cases hr)
    | _ => cases ha
  · exact hr.imp (lookup_of_task_ne h ha) (lookup_of_task_ne h ha)

/-- After the cancellation no run starts a watcher. -/
theorem length_watchers_of_run (hc : s.cancelled = true) {actions : List (Action ρ)}
    (hr : s.run actions = some (s', events)) : s'.watchers.length = s.watchers.length := by
  refine (run_invariant (P := fun t => t.cancelled = true ∧
    t.watchers.length = s.watchers.length) ?_ ⟨hc, rfl⟩ hr).2
  intro t a t' events ht ⟨hct, hlen⟩
  obtain ⟨hct', hlen'⟩ := cancelled_of_transition ht hct
  exact ⟨hct', hlen'.trans hlen⟩

/-- After the cancellation a run leaves a lookup refused, or still to be refused. -/
theorem refuses_of_run (hc : s.cancelled = true) {i : Nat} {name : String} (h : s.Refuses i name)
    {actions : List (Action ρ)} (hr : s.run actions = some (s', events)) :
    s'.cancelled = true ∧ s'.Refuses i name := by
  refine run_invariant (P := fun t => t.cancelled = true ∧ t.Refuses i name) ?_ ⟨hc, h⟩ hr
  intro t a t' events ht ⟨hct, hrt⟩
  exact ⟨(cancelled_of_transition ht hct).1, refuses_of_transition ht hct hrt⟩

/-- Once a call has taken the watchers over, a live watcher is waited for by a call that has not
returned. -/
theorem Supervised.awaited (h : s.Supervised) {d : Shutdown} (hd : d ∈ s.shutdowns)
    (ht : d.hasTaken = true) {j : Nat} (hj : s.isOver j = false) :
    ∃ watchers, .joining watchers ∈ s.shutdowns ∧ j ∈ watchers := by
  obtain ⟨key, hkey⟩ : ∃ key, s.held? (.watcher j) = some key := by
    refine Option.ne_none_iff_exists'.1 fun hn => ?_
    rw [isOver_iff.2 hn] at hj
    cases hj
  rcases h.live j key hkey with hm | ⟨e, he, hm⟩
  · rw [h.taken d hd ht] at hm
    cases hm
  · cases e with
    | joining watchers => exact ⟨watchers, he, hm⟩
    | _ => cases hm

/-- A call that comes when the watchers have been taken over finds none to wait for: it returns by
its own three steps while every watcher stays as it is. -/
theorem Supervised.returns_at_once (h : s.Supervised) {d : Shutdown} (hd : d ∈ s.shutdowns)
    (ht : d.hasTaken = true) :
    ∃ t, s.run [.callShutdown, .shutdown s.shutdowns.length, .shutdown s.shutdowns.length,
        .shutdown s.shutdowns.length] = some (t, []) ∧
      t.shutdowns = s.shutdowns ++ [.returned] ∧ t.watchers = s.watchers := by
  have hnone : s.supervised = [] := h.taken d hd ht
  refine ⟨{ s with cancelled := true, supervised := [], shutdowns := s.shutdowns ++ [.returned] },
    ?_, rfl, rfl⟩
  simp [run, step, stepShutdown, setShutdown, hnone]

/- So a second call may return while the first still waits for the watcher of the contested key. -/
example : (contested.run [.callShutdown, .callShutdown, .shutdown 0, .shutdown 0, .shutdown 1,
    .shutdown 1, .shutdown 1]).map (fun o => (o.1.shutdowns, o.1.isOver 0)) =
    some ([.joining [0], .returned], false) := rfl

/-- When the only shutdown call has returned, every watcher is over. -/
theorem Supervised.isOver_of_returned (h : s.Supervised) (hs : s.shutdowns = [.returned])
    (j : Nat) : s.isOver j = true := by
  refine Bool.of_not_eq_false fun hj => ?_
  obtain ⟨watchers, hw, -⟩ := h.awaited (hs ▸ List.mem_cons_self) rfl hj
  rw [hs] at hw
  cases List.mem_singleton.1 hw

/-- A lookup that has returned holds no claim. -/
theorem held?_of_finished (hf : ∀ l ∈ s.lookups, l.result?.isSome = true) (i : Nat) :
    s.held? (.lookup i) = none := by
  cases hl : s.lookups[i]? with
  | none => simp [held?, observe, hl]
  | some l =>
    have hresult := hf l (List.mem_of_getElem? hl)
    cases l with
    | finished result => simp [held?, observe, hl, Lookup.held?]
    | _ => cases hresult

end Service

end ServiceDiscovery
