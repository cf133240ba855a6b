import ServiceDiscovery.Proofs.Simulation.Vigil

/-!
# Watchers go on with their plan

That a watcher does what its plan says, and when: its own moves, none of which takes time, lead from
wherever it stands to its next query, to its pause, or to its end. Together with what the record of
a vigil holds, this is all that can be seen of a watcher that nobody cancels.
-/

namespace ServiceDiscovery

variable {σ ρ : Type} [Registry σ] {p : WatchPlan} {j : Nat} {initial : Option EndpointSet}
  {w w' w₀ : World σ ρ} {v v' : Vigil}

namespace Vigil

/-- The worlds and records that a watcher's own moves lead to. -/
inductive Moves (j : Nat) : World σ ρ → Vigil → World σ ρ → Vigil → Prop
  /-- No move. -/
  | none (w : World σ ρ) (v : Vigil) : Moves j w v w v
  /-- A move, and others after it. -/
  | cons {w next w' : World σ ρ} {v v' : Vigil} {x : Watcher ρ}
      (hw : w.service.watchers[j]? = some x) (hb : w.watchQueries.get? j ≠ some .broken)
      (hm : w.moveWatcher j x = some next) (hr : Moves j next (v.after j x w next) w' v') :
      Moves j w v w' v'

/-- The watcher's own moves lead at once to its next query or into its pause. -/
def Proceeds (p : WatchPlan) (j : Nat) (w : World σ ρ) (v : Vigil) : Prop :=
  ∃ w' v', Moves j w v w' v' ∧ w'.now = w.now ∧ v'.given = v.given ∧
    (v'.asked.length = v.given.length + 1 ∨
      w.now < p.time v.given ∧ w'.pauses.get? j = some (p.time v.given))

private theorem Proceeds.cons {x : Watcher ρ} (hw : w.service.watchers[j]? = some x)
    (hq : w.watchQueries.get? j = none) (hm : w.moveWatcher j x = some w')
    (h : Proceeds p j w' (v.after j x w w')) : Proceeds p j w v := by
  have hgiven : (v.after j x w w').given = v.given := by
    obtain ⟨key, stage⟩ := x
    cases stage <;> simp [after, World.shown, hq]
  have hnow : w'.now = w.now := (World.watcherMove_of_moveWatcher hw hm).now
  obtain ⟨u, v', hmoves, hu, hv, hend⟩ := h
  rw [hgiven, hnow] at hend
  exact ⟨u, v', .cons hw (by simp [hq]) hm hmoves, hu.trans hnow, hv.trans hgiven, hend⟩

private theorem proceeds_of_out (hl : v.asked.length = v.given.length + 1) : Proceeds p j w v :=
  ⟨w, v, .none w v, rfl, rfl, Or.inl hl⟩

private theorem Keeps.proceeds_asking (h : Keeps p j initial w v) {cursor : Cursor}
    (hw : w.service.watchers[j]? = some ⟨p.key, .asking cursor⟩) : Proceeds p j w v := by
  obtain ⟨-, hstand, -⟩ := h.standing hw
  cases hstand with
  | out _ _ _ _ hl => exact proceeds_of_out hl
  | due hc hs hq hp hl ht =>
    obtain ⟨u, hm, hu, hout⟩ := World.moveWatcher_of_none p.key cursor h.cancelled hq
    refine .cons hw hq hm (proceeds_of_out ?_)
    have hkeeps := h.moved hw (by simp [hq]) hm
    obtain ⟨-, hstand, -⟩ := hkeeps.standing (hu ▸ hw)
    cases hstand with
    | due _ _ hnone => cases hout.symm.trans hnone
    | out _ _ _ _ hl => exact hl

private theorem Keeps.proceeds_notifying (h : Keeps p j initial w v) {cursor : Cursor}
    {d : Delivery false ρ} (hw : w.service.watchers[j]? = some ⟨p.key, .notifying cursor d⟩)
    (hq : w.watchQueries.get? j = none) : Proceeds p j w v := by
  induction d using Delivery.wellFounded_follows.induction generalizing w v with
  | _ d ih =>
    cases hd : d.step w.service.cache with
    | none =>
      cases Delivery.step_eq_none hd
      obtain ⟨u, hm, hu, -⟩ := World.act?_of_transition (.rearmed hw)
      have hkeeps : Keeps p j initial u _ := h.moved hw (by simp [hq]) hm
      exact .cons hw hq hm (hkeeps.proceeds_asking (hu ▸ Service.watchers_setWatcher hw))
    | some o =>
      obtain ⟨u, hm, hu, hout⟩ := World.act?_of_transition (.relayed hw hd)
      have hkeeps : Keeps p j initial u _ := h.moved hw (by simp [hq]) hm
      exact .cons hw hq hm (ih o.rest ⟨w.service.cache, o, hd, rfl⟩ hkeeps
        (hu ▸ Service.watchers_setWatcher (by exact hw)) (hout ▸ hq))

private theorem Keeps.proceeds_storing (h : Keeps p j initial w v) {cursor : Cursor}
    {set : EndpointSet} (hw : w.service.watchers[j]? = some ⟨p.key, .storing cursor set⟩)
    (hq : w.watchQueries.get? j = none) : Proceeds p j w v := by
  obtain ⟨u, hm, hu, hout⟩ := World.act?_of_transition (.stored hw)
  have hkeeps : Keeps p j initial u _ := h.moved hw (by simp [hq]) hm
  have hwatcher := hu ▸ Service.watchers_setWatcher (by exact hw)
  exact .cons hw hq hm (hkeeps.proceeds_notifying hwatcher (hout ▸ hq))

private theorem Keeps.proceeds_pausing (h : Keeps p j initial w v) {cursor : Cursor}
    (hw : w.service.watchers[j]? = some ⟨p.key, .pausing cursor⟩) {time : Nat}
    (hp : w.pauses.get? j = some time) : Proceeds p j w v := by
  obtain ⟨-, hstand, -⟩ := h.standing hw
  cases hstand with
  | failed _ _ _ hnone => cases hp.symm.trans hnone
  | pausing _ _ hq hp' =>
    cases hp.symm.trans hp'
    rcases Nat.lt_or_ge w.now (p.time v.given) with hlt | hge
    · exact ⟨w, v, .none w v, rfl, rfl, Or.inr ⟨hlt, hp⟩⟩
    · obtain ⟨u, hm, hu⟩ := World.moveWatcher_of_pause hw h.cancelled hp hge
      have hkeeps : Keeps p j initial u _ := h.moved hw (by simp [hq]) hm
      exact .cons hw hq hm (hkeeps.proceeds_asking (hu ▸ Service.watchers_setWatcher hw))

/-- As long as its plan is not spent, a watcher proceeds. -/
theorem Keeps.proceeds (h : Keeps p j initial w v) (hs : ¬ p.Spent v.seen) : Proceeds p j w v := by
  obtain ⟨stage, hw, hstand, -⟩ := h.stands
  cases hstand with
  | due _ _ _ _ _ _ | out _ _ _ _ _ => exact h.proceeds_asking hw
  | storing _ hq _ _ _ => exact h.proceeds_storing hw hq
  | notifying _ hq _ _ _ => exact h.proceeds_notifying hw hq
  | pausing _ _ _ hp _ _ => exact h.proceeds_pausing hw hp
  | @failed cursor _ _ _ _ hq hp _ _ =>
    have hm : w.moveWatcher j ⟨p.key, .pausing cursor⟩ = some { w with
        pauses := w.pauses.insert j (w.now + w.service.watch.retryDelay.toMillisUp) } := by
      simp [World.moveWatcher, World.movePausing, h.cancelled, hp]
    have hkeeps := h.moved hw (by simp [hq]) hm
    exact .cons hw hq hm (hkeeps.proceeds_pausing hw (Table.get?_insert_self _ _ _))
  | leaving hspent _ _ _ | ended hspent _ _ _ => exact absurd hspent hs

private theorem Keeps.takes (h : Keeps p j initial w v) {stage : WatchStage ρ}
    (hw : w.service.watchers[j]? = some ⟨p.key, stage⟩) {q : Pending}
    (hq : w.watchQueries.get? j = some q) {result : Except Failure Answer}
    (ha : Registry.answer? w.now q w.registry = some result) :
    ∃ w', w.moveWatcher j ⟨p.key, stage⟩ = some w' ∧ w'.now = w.now ∧
      (v.after j ⟨p.key, stage⟩ w w').given = v.given ++ [(w.now, Answer.observed result)] := by
  obtain ⟨-, hstand, -⟩ := h.standing hw
  cases hstand with
  | @out cursor _ _ _ _ _ _ =>
    cases hm : w.moveWatcher j ⟨p.key, .asking cursor⟩ with
    | none =>
      rcases World.waits_of_moveWatcher hw hm with ho | ⟨-, ⟨_, q', -, hq', -, hn⟩ | ⟨_, _, hx, -⟩⟩
      · cases ho
      · cases hq.symm.trans hq'
        cases ha.symm.trans hn
      · cases hx
    | some w' =>
      refine ⟨w', rfl, (World.watcherMove_of_moveWatcher hw hm).now, ?_⟩
      simp [after, World.shown, hq, ha]
  | due _ _ hn _ _ _ | storing _ hn _ _ _ | notifying _ hn _ _ _ | failed _ _ hn _ _ _
  | pausing _ _ hn _ _ _ | leaving _ hn _ _ | ended _ hn _ _ => cases hq.symm.trans hn

private theorem exists_last_move {key : Key} {exit : WatchExit}
    (hw : w.service.watchers[j]? = some ⟨key, .leaving exit⟩) :
    ∃ w', w.moveWatcher j ⟨key, .leaving exit⟩ = some w' ∧ w'.now = w.now ∧
      w'.service.watchers[j]? = some ⟨key, .ended exit⟩ ∧ key ∉ w'.service.cache.watching ∧
      w'.service.cache.get? key = none := by
  obtain ⟨s, hs, hend, hk, hg, -⟩ := Service.leave_of_leaving hw
  obtain ⟨w', hm, hs', -⟩ := World.act?_of_transition (Service.transition_of_step hs)
  cases hs'
  have hm' : w.moveWatcher j ⟨key, .leaving exit⟩ = some w' := hm
  exact ⟨w', hm', (World.watcherMove_of_moveWatcher hw hm').now, hend, hk, hg⟩

/-- A watcher that nobody cancels follows its plan, whatever the registry answers and whatever else
happens. Its queries are those of the plan, at the times of the plan and never after index zero, one
for each answer and one ahead at most. The plan was never spent before the last answer. As long as
nobody else touches the cached set of the key, it is the one that was shown last. While the plan is
not spent, the watcher asks or pauses at once, and takes the answer as soon as there is one. Once it
is spent, no query follows and no time passes until the watcher ends, and with it set and claim of
its key. -/
theorem Leads.follows_plan (h : Leads p j w₀ w v) :
    (∀ (k : Nat) q, v.asked[k]? = some q →
      q = p.query (v.given.take k) ∧ q.2.options.waitIndex ≠ some 0) ∧
    (v.given.length ≤ v.asked.length ∧ v.asked.length ≤ v.given.length + 1) ∧
    (∀ k < v.given.length, ¬ p.Spent (v.seen.take k)) ∧
    ∃ stage, w.service.watchers[j]? = some ⟨p.key, stage⟩ ∧
      (v.disturbed = false → Watcher.isOver ⟨p.key, stage⟩ = false →
        w.service.cache.get? p.key = v.current (w₀.service.cache.get? p.key) stage) ∧
      (∀ q result, w.watchQueries.get? j = some q → q ≠ .broken →
        Registry.answer? w.now q w.registry = some result →
        ∃ w', w.moveWatcher j ⟨p.key, stage⟩ = some w' ∧ w'.now = w.now ∧
          (v.after j ⟨p.key, stage⟩ w w').given =
            v.given ++ [(w.now, Answer.observed result)]) ∧
      (¬ p.Spent v.seen →
        (∀ exit, stage ≠ .leaving exit ∧ stage ≠ .ended exit) ∧ Proceeds p j w v) ∧
      (p.Spent v.seen → v.asked.length = v.given.length ∧
        (stage = .ended .gaveUp ∧ v.left = v.given.getLast?.map Prod.fst ∨
          stage = .leaving .gaveUp ∧ v.given.getLast?.map Prod.fst = some w.now ∧
            ∃ w', w.moveWatcher j ⟨p.key, stage⟩ = some w' ∧ w'.now = w.now ∧
              w'.service.watchers[j]? = some ⟨p.key, .ended .gaveUp⟩ ∧
              p.key ∉ w'.service.cache.watching ∧ w'.service.cache.get? p.key = none)) := by
  have hkeeps := h.keeps
  obtain ⟨stage, hw, hstand, hcached⟩ := hkeeps.stands
  refine ⟨fun k q hq => ?_, ?_, hkeeps.early, stage, hw, hcached,
    fun q result hq _ ha => hkeeps.takes hw hq ha, fun hs => ⟨fun exit => ?_,
      hkeeps.proceeds hs⟩, fun hs => ?_⟩
  · cases hkeeps.asked k q hq
    refine ⟨rfl, fun hzero => ?_⟩
    have hpos := p.index_pos ((v.given.take k).map Prod.snd)
    rw [Option.some.inj hzero] at hpos
    exact Nat.lt_irrefl 0 hpos
  · cases hstand with
    | out _ _ _ _ hl =>
      rw [hl]
      exact ⟨Nat.le_succ _, Nat.le_refl _⟩
    | due _ _ _ _ hl _ | storing _ _ _ hl _ | notifying _ _ _ hl _ | failed _ _ _ _ hl _
    | pausing _ _ _ _ hl _ | leaving _ _ hl _ | ended _ _ hl _ =>
      rw [hl]
      exact ⟨Nat.le_refl _, Nat.le_succ _⟩
  · cases hstand with
    | leaving hspent _ _ _ | ended hspent _ _ _ => exact absurd hspent hs
    | _ => exact ⟨nofun, nofun⟩
  · cases hstand with
    | leaving _ _ hl hg => exact ⟨hl, Or.inr ⟨rfl, hg, exists_last_move hw⟩⟩
    | ended _ _ hl hv => exact ⟨hl, Or.inl ⟨rfl, hv⟩⟩
    | due _ hn _ _ _ _ | out _ hn _ _ _ | failed _ hn _ _ _ _ | pausing _ hn _ _ _ _ =>
      exact absurd hs hn
    | storing _ _ _ _ hg | notifying _ _ _ _ hg =>
      rw [seen, hg, List.map_append] at hs
      exact absurd hs (p.not_spent_concat_ok _ _)

/-! ### A watcher among other tasks -/

private theorem beside_of_lookupMove {i : Nat} (hm : World.LookupMove w i w')
    (hc : w'.service.cancelled = false) (j : Nat) : w.Beside j w' := by
  cases hm with
  | acted hs => exact ⟨Or.inr ⟨_, _, hs, nofun⟩, hc, rfl, rfl, rfl, rfl⟩
  | asked _ _ => exact ⟨Or.inl rfl, hc, rfl, rfl, rfl, rfl⟩
  | answered _ _ hs => exact ⟨Or.inr ⟨_, _, hs, nofun⟩, hc, rfl, rfl, rfl, rfl⟩

private theorem beside_of_watcherMove {k : Nat} (hm : World.WatcherMove w k w')
    (hc : w'.service.cancelled = false) (hj : k ≠ j) : w.Beside j w' := by
  obtain ⟨hq, hp, htag⟩ := hm.elsewhere hj
  refine ⟨?_, hc, hq, hp, hm.now, htag⟩
  rcases hm.service with hs | ⟨a, events, hs, ha, -⟩
  · exact Or.inl hs
  · exact Or.inr ⟨a, events, hs, fun h => hj (Task.watcher.inj (Option.some.inj (ha.symm.trans h)))⟩

omit [Registry σ] in
private theorem beside_of_act? {a : Action ρ} (hm : w.act? a = some w') (ha : a.task? = none)
    (hc : w'.service.cancelled = false) (j : Nat) : w.Beside j w' := by
  obtain ⟨s, events, notes, hs, -, rfl⟩ := World.step_of_act? hm
  exact ⟨Or.inr ⟨a, events, hs, by simp [ha]⟩, hc, rfl, rfl, rfl, rfl⟩

/-- The next move of all tasks goes on with the vigil of a watcher that nobody cancels. -/
theorem Leads.move? (h : Leads p j w₀ w v) (hb : w.watchQueries.get? j ≠ some .broken)
    (hm : w.move? = some w') (hc : w'.service.cancelled = false) : ∃ v', Leads p j w₀ w' v' := by
  rcases World.exists_of_move? hm with ⟨i, l, hl, hm⟩ | ⟨k, x, hx, hm⟩ | ⟨k, hm⟩
  · exact ⟨_, h.beside (beside_of_lookupMove (World.lookupMove_of_moveLookup hl hm) hc j)⟩
  · by_cases hk : k = j
    · subst hk
      exact ⟨_, h.moved hx hb hm⟩
    · exact ⟨_, h.beside (beside_of_watcherMove (World.watcherMove_of_moveWatcher hx hm) hc hk)⟩
  · exact ⟨_, h.beside (beside_of_act? hm rfl hc j)⟩

/-! ### A watcher alone -/

/-- The world and the record after at most `fuel` moves and waits of a watcher, if nothing else
happens. -/
def follow (j : Nat) : (fuel : Nat) → World σ ρ → Vigil → World σ ρ × Vigil
  | 0, w, v => (w, v)
  | fuel + 1, w, v =>
    match w.service.watchers[j]?, w.watchQueries.get? j with
    | none, _ | _, some .broken => (w, v)
    | some x, _ =>
      match w.moveWatcher j x, w.nextTime? with
      | some next, _ => follow j fuel next (v.after j x w next)
      | none, some time =>
        if (w.pauses.get? j).all (w.now + (time - w.now) ≤ ·) then
          follow j fuel { w with now := w.now + (time - w.now) } v
        else (w, v)
      | none, none => (w, v)

/-- Following a watcher goes on with its vigil. -/
theorem Leads.follow (h : Leads p j w₀ w v) (fuel : Nat) :
    Leads p j w₀ (follow j fuel w v).1 (follow j fuel w v).2 := by
  induction fuel generalizing w v with
  | zero => exact h
  | succ fuel ih =>
    rw [Vigil.follow]
    split
    · exact h
    · exact h
    · next x _ hw hb =>
      split
      · next next hm => exact ih (h.moved hw hb hm)
      · next time hm _ =>
        split
        · next hp => exact ih (h.waited hw hm _ fun pause he => by simpa [he] using hp)
        · exact h
      · exact h

omit [Registry σ] in
/-- The world of a single watcher is one in which it has just been started. -/
theorem begins_watching (registry : σ) (tag : Option String) (name : String) (watch : WatchConfig)
    (cache : HandlerCache false ρ) (key : Key) (index : Nat) :
    (World.start registry tag (.watching name watch cache key index)).Begins
      ⟨tag, key, index, 0, watch⟩ 0 :=
  ⟨rfl, rfl, rfl, rfl, rfl, rfl, rfl⟩

/-- A plan that two failures in a row spend. -/
def briefPlan : WatchPlan :=
  ⟨none, .ofName "api", 5, 0, ⟨2, .ofMillis 100, .ofSeconds 600⟩⟩

/-- A failure between two sets, the second of which has a smaller index, and two failures. -/
def moodyRegistry : ScriptedRegistry where
  immediate := .empty
  blocking := [⟨10, .ok ⟨[.ofAddress "api" "10.0.0.1" 80], 7⟩⟩,
    ⟨20, .error (.registryUnavailable "down")⟩, ⟨30, .ok ⟨[], 3⟩⟩,
    ⟨5, .error (.registryUnavailable "down")⟩, ⟨5, .error (.registryUnavailable "down")⟩]
  agent := []

/-- The world of a watcher with this plan over this registry. -/
def moodyStart : World ScriptedRegistry Unit :=
  .start moodyRegistry none (.watching "scripted" briefPlan.watch .empty briefPlan.key 5)

/-- The world when the watcher has ended, and its record. -/
def moodyEnd : World ScriptedRegistry Unit × Vigil :=
  follow 0 40 moodyStart ⟨[], [], none, false⟩

/-- The vigil leads there. -/
theorem leads_moodyEnd : Leads briefPlan 0 moodyStart moodyEnd.1 moodyEnd.2 :=
  (Leads.begun (begins_watching ..)).follow 40

/-- The first failure is followed by a pause, the smaller index by a fresh start, and the two
failures at the end by the watcher's end, with no pause. -/
theorem follows_plan_moody :
    Leads briefPlan 0 moodyStart moodyEnd.1 moodyEnd.2 ∧
      (∀ (k : Nat) q, moodyEnd.2.asked[k]? = some q →
        q = briefPlan.query (moodyEnd.2.given.take k)) ∧
      moodyEnd.2.asked.map (fun q => (q.1, q.2.options.waitIndex)) =
        [(0, some 5), (10, some 7), (130, some 7), (160, some 1), (265, some 1)] ∧
      briefPlan.Spent moodyEnd.2.seen ∧ (∀ k < 5, ¬ briefPlan.Spent (moodyEnd.2.seen.take k)) ∧
      moodyEnd.2.left = some 270 := by
  obtain ⟨hasked, -, hearly, -⟩ := leads_moodyEnd.follows_plan
  exact ⟨leads_moodyEnd, fun k q hq => (hasked k q hq).1, by decide,
    WatchPlan.spent_iff.2 (by decide), hearly, by decide⟩

end Vigil

end ServiceDiscovery
