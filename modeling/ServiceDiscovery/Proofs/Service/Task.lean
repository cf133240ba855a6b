import ServiceDiscovery.Proofs.Service.Transition

/-!
# Tasks of a service

Lookups and watchers as the tasks of one service. `observe` reads something off a task; each way in
which a transition changes the tasks has one equation for it, so that what a transition does to any
observation is a rewrite.
-/

namespace ServiceDiscovery

/-- A lookup or a watcher of a service, known by its place. -/
inductive Task
  | lookup (i : Nat)
  | watcher (j : Nat)
  deriving DecidableEq

/-- The task that an action is a step of; none for calls from outside and for shutdowns. -/
def Action.task? {ρ : Type} : Action ρ → Option Task
  | .lookup i | .answerLookup i _ => some (.lookup i)
  | .watcher j | .answerWatcher j _ | .resume j | .cancel j | .crash j => some (.watcher j)
  | .resolve _ | .callShutdown | .shutdown _ | .invalidate _ | .subscribe _ _ | .unsubscribe _ _ =>
    none

/-- Whether an action is a step of a task or of a shutdown call, and no call from outside. -/
def Action.IsOwn {ρ : Type} (a : Action ρ) : Prop := a.task? ≠ none ∨ ∃ k, a = .shutdown k

/-- A step of a task is an own step. -/
theorem Action.isOwn_of_task {ρ : Type} {a : Action ρ} {t : Task} (h : a.task? = some t) :
    a.IsOwn :=
  Or.inl (by simp [h])

/-- A call from outside is no own step. -/
theorem Action.IsOwn.not_outside {ρ : Type} {a : Action ρ} (h : a.IsOwn) :
    (∀ name, a ≠ .resolve name) ∧ a ≠ .callShutdown := by
  constructor
  · rintro name rfl
    rcases h with h | ⟨k, h⟩
    · exact h rfl
    · cases h
  · rintro rfl
    rcases h with h | ⟨k, h⟩
    · exact h rfl
    · cases h

/-- A task's next own step. -/
def Task.action {ρ : Type} : Task → Action ρ
  | .lookup i => .lookup i
  | .watcher j => .watcher j

/-- A task's next own step is a step of that task. -/
@[simp]
theorem Task.task?_action {ρ : Type} (t : Task) : (t.action : Action ρ).task? = some t := by
  cases t <;> rfl

/-- Tasks with the same next step are the same. -/
theorem Task.action_inj {ρ : Type} {t u : Task} (h : (t.action : Action ρ) = u.action) : t = u := by
  cases t <;> cases u <;> cases h <;> rfl

namespace Service

variable {ρ α : Type} {f : Lookup ρ → Option α} {g : Watcher ρ → Option α}

/-- What is read off a task by one function for lookups and one for watchers. -/
def observe (f : Lookup ρ → Option α) (g : Watcher ρ → Option α) (s : Service ρ) :
    Task → Option α
  | .lookup i => s.lookups[i]?.bind f
  | .watcher j => s.watchers[j]?.bind g

/-- There is nothing to observe at the place of the next lookup. -/
theorem observe_next_lookup (s : Service ρ) : s.observe f g (.lookup s.lookups.length) = none := by
  simp [observe]

/-- There is nothing to observe at the place of the next watcher. -/
theorem observe_next_watcher (s : Service ρ) :
    s.observe f g (.watcher s.watchers.length) = none := by
  simp [observe]

/-- The cache is not part of a task. -/
@[simp]
theorem observe_withCache (s : Service ρ) (c : HandlerCache false ρ) :
    { s with cache := c }.observe f g = s.observe f g := rfl

/-- A new stage of a lookup is observed there and nowhere else. -/
theorem observe_setLookup {s : Service ρ} {i : Nat} {old : Lookup ρ}
    (h : s.lookups[i]? = some old) (l : Lookup ρ) (t : Task) :
    (s.setLookup i l).observe f g t = if t = .lookup i then f l else s.observe f g t := by
  have hi : i < s.lookups.length := (List.getElem?_eq_some_iff.1 h).1
  cases t with
  | watcher j => rfl
  | lookup k =>
    simp only [observe, setLookup, List.getElem?_set, Task.lookup.injEq]
    by_cases hk : i = k
    · subst hk
      simp [hi]
    · simp [hk, Ne.symm hk]

/-- A new stage of a lookup that shows the same changes nothing that is observed. -/
theorem observe_setLookup_of_eq {s : Service ρ} {i : Nat} {old l : Lookup ρ}
    (h : s.lookups[i]? = some old) (he : f l = f old) (t : Task) :
    (s.setLookup i l).observe f g t = s.observe f g t := by
  rw [observe_setLookup h]
  split
  · next ht => rw [ht, observe, h, he, Option.bind_some]
  · rfl

/-- A lookup that was set is at its place. -/
theorem lookups_setLookup {s : Service ρ} {i : Nat} {old l : Lookup ρ}
    (h : s.lookups[i]? = some old) : (s.setLookup i l).lookups[i]? = some l :=
  List.getElem?_set_self (List.getElem?_eq_some_iff.1 h).1

/-- A new stage of a watcher is observed there and nowhere else. -/
theorem observe_setWatcher {s : Service ρ} {j : Nat} {old : Watcher ρ}
    (h : s.watchers[j]? = some old) (w : Watcher ρ) (t : Task) :
    (s.setWatcher j w).observe f g t = if t = .watcher j then g w else s.observe f g t := by
  have hj : j < s.watchers.length := (List.getElem?_eq_some_iff.1 h).1
  cases t with
  | lookup i => rfl
  | watcher k =>
    simp only [observe, setWatcher, List.getElem?_set, Task.watcher.injEq]
    by_cases hk : j = k
    · subst hk
      simp [hj]
    · simp [hk, Ne.symm hk]

/-- A watcher that was set is at its place. -/
theorem watchers_setWatcher {s : Service ρ} {j : Nat} {old w : Watcher ρ}
    (h : s.watchers[j]? = some old) : (s.setWatcher j w).watchers[j]? = some w :=
  List.getElem?_set_self (List.getElem?_eq_some_iff.1 h).1

/-- A new stage of a watcher that shows the same changes nothing that is observed. -/
theorem observe_setWatcher_of_eq {s : Service ρ} {j : Nat} {old w : Watcher ρ}
    (h : s.watchers[j]? = some old) (he : g w = g old) (t : Task) :
    (s.setWatcher j w).observe f g t = s.observe f g t := by
  rw [observe_setWatcher h]
  split
  · next ht => rw [ht, observe, h, he, Option.bind_some]
  · rfl

private theorem getElem?_append_singleton_of_ne {β : Type} (l : List β) (b : β) {k : Nat}
    (hk : k ≠ l.length) : (l ++ [b])[k]? = l[k]? := by
  rcases Nat.lt_or_gt_of_ne hk with hlt | hgt
  · exact List.getElem?_append_left hlt
  · rw [List.getElem?_eq_none (by simp; omega), List.getElem?_eq_none (by omega)]

/-- A called lookup is observed at its new place. -/
theorem observe_called (s : Service ρ) (name : String) (t : Task) :
    { s with lookups := s.lookups ++ [Lookup.arriving name] }.observe f g t =
      if t = .lookup s.lookups.length then f (.arriving name) else s.observe f g t := by
  cases t with
  | watcher j => rfl
  | lookup k =>
    simp only [observe, Task.lookup.injEq]
    by_cases hk : k = s.lookups.length
    · subst hk
      simp
    · rw [getElem?_append_singleton_of_ne _ _ hk, if_neg hk]

/-- A started watcher is observed at its new place. -/
theorem observe_spawn (s : Service ρ) (key : Key) (index : Nat) (t : Task) :
    (s.spawn key index).observe f g t =
      if t = .watcher s.watchers.length then g (.start key index) else s.observe f g t := by
  cases t with
  | lookup i => rfl
  | watcher k =>
    simp only [observe, spawn, Task.watcher.injEq]
    by_cases hk : k = s.watchers.length
    · subst hk
      simp
    · rw [getElem?_append_singleton_of_ne _ _ hk, if_neg hk]

/-- An action leaves every task that it is not a step of as it is. -/
theorem observe_of_task_ne {s s' : Service ρ} {a : Action ρ} {events : List (Event ρ)}
    (h : Transition s a s' events) {t : Task} (ht : a.task? ≠ some t) {x : α}
    (hx : s.observe f g t = some x) : s'.observe f g t = some x := by
  have hne {u : Task} (hu : a.task? = some u) : t ≠ u := fun he => ht (he ▸ hu)
  cases h with
  | called name =>
    rw [observe_called, if_neg, hx]
    intro he
    rw [he, observe_next_lookup] at hx
    cases hx
  | spawned hl _ =>
    refine (observe_setLookup (by exact hl) _ t).trans ?_
    rw [if_neg (hne rfl), observe_spawn, if_neg, hx]
    intro he
    rw [he, observe_next_watcher] at hx
    cases hx
  | refused hl _ | admitted hl _ | served hl _ _ | missed hl _ | found hl _ | failed hl _
  | seeded hl | told hl _ | won hl | lost hl | withdrawn hl _ =>
    refine (observe_setLookup (by exact hl) _ t).trans ?_
    rw [if_neg (hne rfl)]
    exact hx
  | observed hw _ | stumbled hw _ _ | gaveUp hw _ _ | resumed hw | recalled hw _ | roused hw _
  | crashed hw | stored hw | relayed hw _ | rearmed hw | left hw =>
    refine (observe_setWatcher (by exact hw) _ t).trans ?_
    rw [if_neg (hne rfl)]
    exact hx
  | shutdownCalled | requested _ | took _ | joined _ _ | invalidated _ | subscribed _ _
  | unsubscribed _ _ => exact hx

/-- An action that is no step of a lookup leaves its stage. -/
theorem lookup_of_task_ne {s s' : Service ρ} {a : Action ρ} {events : List (Event ρ)}
    (h : Transition s a s' events) {i : Nat} (ha : a.task? ≠ some (.lookup i)) {l : Lookup ρ}
    (hl : s.lookups[i]? = some l) : s'.lookups[i]? = some l := by
  have hs : s.observe some (fun _ => none) (.lookup i) = some l := by simp [observe, hl]
  simpa [observe] using observe_of_task_ne h ha hs

/-- An action that is no step of a watcher leaves it as it is. -/
theorem watcher_of_task_ne {s s' : Service ρ} {a : Action ρ} {events : List (Event ρ)}
    (h : Transition s a s' events) {j : Nat} (ha : a.task? ≠ some (.watcher j)) {w : Watcher ρ}
    (hw : s.watchers[j]? = some w) : s'.watchers[j]? = some w := by
  have hs : s.observe (fun _ => none) some (.watcher j) = some w := by simp [observe, hw]
  simpa [observe] using observe_of_task_ne h ha hs

/-- A lookup that waits for its answer does nothing before. -/
theorem lookup_asking_of_transition {s s' : Service ρ} {a : Action ρ} {events : List (Event ρ)}
    (h : Transition s a s' events) {i : Nat} {key : Key}
    (hl : s.lookups[i]? = some (.asking key)) (ha : ∀ result, a ≠ .answerLookup i result) :
    s'.lookups[i]? = some (.asking key) := by
  by_cases ht : a.task? = some (.lookup i)
  · cases h with
    | found _ _ | failed _ _ =>
      cases ht
      exact absurd rfl (ha _)
    | refused hl' _ | admitted hl' _ | served hl' _ _ | missed hl' _ | seeded hl' | told hl' _
    | won hl' | lost hl' | withdrawn hl' _ | spawned hl' _ =>
      cases ht
      rw [hl] at hl'
      cases hl'
    | _ => cases ht
  · exact lookup_of_task_ne h ht hl

/-- A watcher whose query is out does nothing before it is answered, cancelled or broken off. -/
theorem watcher_asking_of_transition {s s' : Service ρ} {a : Action ρ} {events : List (Event ρ)}
    (h : Transition s a s' events) {j : Nat} {key : Key} {cursor : Cursor}
    (hw : s.watchers[j]? = some ⟨key, .asking cursor⟩)
    (ha : ∀ result, a ≠ .answerWatcher j result) (hc : a ≠ .cancel j) (hb : a ≠ .crash j) :
    s'.watchers[j]? = some ⟨key, .asking cursor⟩ := by
  by_cases ht : a.task? = some (.watcher j)
  · cases h with
    | observed _ _ | stumbled _ _ _ | gaveUp _ _ _ =>
      cases ht
      exact absurd rfl (ha _)
    | recalled _ _ | roused _ _ =>
      cases ht
      exact absurd rfl hc
    | crashed _ =>
      cases ht
      exact absurd rfl hb
    | resumed hw' | stored hw' | relayed hw' _ | rearmed hw' | left hw' =>
      cases ht
      rw [hw] at hw'
      cases hw'
    | _ => cases ht
  · exact watcher_of_task_ne h ht hw

end Service

end ServiceDiscovery
