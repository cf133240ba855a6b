import ServiceDiscovery.Proofs.Service.Startup
import ServiceDiscovery.Proofs.Simulation.Move
import ServiceDiscovery.Simulation.Opening

/-!
# Starts on a virtual clock

A start on a virtual clock is a run of the start: whatever a world does while time passes are own
steps of its service's tasks. So what holds of all runs of a start holds there.
-/

namespace ServiceDiscovery

variable {σ ρ : Type} [Registry σ]

namespace World

variable {w w' w'' : World σ ρ}

/-- The service gets from one world to another by own steps of its tasks. -/
def Goes (w w' : World σ ρ) : Prop :=
  ∃ actions events, (∀ a ∈ actions, a.IsOwn) ∧ w.service.run actions = some (w'.service, events)

omit [Registry σ] in
/-- Without a step the service stays. -/
theorem goes_of_eq (h : w'.service = w.service) : w.Goes w' :=
  ⟨[], [], nofun, h ▸ rfl⟩

omit [Registry σ] in
private theorem goes_of_step {a : Action ρ} {events : List (Event ρ)}
    (hs : w.service.step a = some (w'.service, events)) (ha : a.IsOwn) : w.Goes w' :=
  ⟨[a], events ++ [], List.forall_mem_singleton.2 ha, Service.run_cons hs rfl⟩

omit [Registry σ] in
/-- Steps after steps. -/
theorem Goes.trans (h : w.Goes w') (h' : w'.Goes w'') : w.Goes w'' := by
  obtain ⟨actions, events, ha, hr⟩ := h
  obtain ⟨more, later, hm, hr'⟩ := h'
  exact ⟨actions ++ more, events ++ later, List.forall_mem_append.2 ⟨ha, hm⟩,
    Service.run_append hr hr'⟩

private theorem goes_of_move? (hm : w.move? = some w') : w.Goes w' := by
  rcases exists_of_move? hm with ⟨i, l, hl, hm⟩ | ⟨k, x, hx, hm⟩ | ⟨k, hm⟩
  · cases lookupMove_of_moveLookup hl hm with
    | acted hs => exact goes_of_step hs (Action.isOwn_of_task rfl)
    | asked _ _ => exact goes_of_eq rfl
    | answered _ _ hs => exact goes_of_step hs (Action.isOwn_of_task rfl)
  · rcases (watcherMove_of_moveWatcher hx hm).service with hs | ⟨a, events, hs, ha, -⟩
    · exact goes_of_eq hs
    · exact goes_of_step hs (Action.isOwn_of_task ha)
  · obtain ⟨s, events, notes, hs, -, rfl⟩ := step_of_act? hm
    exact goes_of_step hs (Or.inr ⟨k, rfl⟩)

/-- Tasks that go on do own steps. -/
theorem goes_settleFrom (fuel : Nat) (w : World σ ρ) : w.Goes (settleFrom fuel w) := by
  induction fuel generalizing w with
  | zero => exact goes_of_eq rfl
  | succ fuel ih =>
    rw [settleFrom]
    split
    · next next hm => exact (goes_of_move? hm).trans (ih next)
    · exact goes_of_eq rfl

private theorem goes_runToFrom (time fuel : Nat) (w : World σ ρ) :
    w.Goes (runToFrom time fuel w) := by
  induction fuel generalizing w with
  | zero => exact goes_of_eq rfl
  | succ fuel ih =>
    have hsettle : w.Goes w.settle := goes_settleFrom _ w
    simp only [runToFrom]
    split
    · next next _ =>
      have hlater : w.settle.Goes { w.settle with now := next } := goes_of_eq rfl
      exact hsettle.trans (hlater.trans (ih _))
    · exact hsettle.trans (goes_of_eq rfl)

private theorem goes_sleep (d : Duration) (w : World σ ρ) : w.Goes (w.sleep d) :=
  (goes_runToFrom _ _ w).trans (goes_settleFrom _ _)

private theorem goes_returnedFrom (i fuel : Nat) (w : World σ ρ) :
    w.Goes (returnedFrom i fuel w) := by
  induction fuel generalizing w with
  | zero => exact goes_of_eq rfl
  | succ fuel ih =>
    have hsettle : w.Goes w.settle := goes_settleFrom _ w
    simp only [returnedFrom]
    split
    · next time _ _ =>
      have hlater : w.settle.Goes { w.settle with now := time } := goes_of_eq rfl
      exact hsettle.trans (hlater.trans (ih _))
    · exact hsettle

/-- While a lookup is waited for the tasks do own steps. -/
theorem goes_returned (i : Nat) (w : World σ ρ) : w.Goes (w.returned i) := goes_returnedFrom i _ w

end World

namespace Opening

variable {o : Opening σ ρ} {s₀ : Startup ρ} {r₀ : StartRecord}

/-- The start is on its course, and its service is the one of the world. -/
structure OnCourse (s₀ : Startup ρ) (r₀ : StartRecord) (o : Opening σ ρ) : Prop where
  course : ∃ r, Startup.Course s₀ r₀ o.startup r
  service : ∀ service, o.startup.service? = some service → o.world.service = service

omit [Registry σ] in
/-- A step of the start is one of its course. -/
theorem OnCourse.take (h : OnCourse s₀ r₀ o) (hr : o.startup.result? = none) {a : StartAction ρ}
    (ha : ∀ b, a ≠ .service b) : OnCourse s₀ r₀ (o.take a) := by
  rw [Opening.take]
  split
  · next s events hs =>
    obtain ⟨r, hc⟩ := h.course
    refine ⟨⟨_, hc.step hr (fun b hb => absurd hb (ha b)) hs⟩, fun service hservice => ?_⟩
    show s.service?.getD _ = service
    rw [hservice, Option.getD_some]
  · exact h

omit [Registry σ] in
/-- While the world goes on, the start stays on its course. -/
theorem OnCourse.letRun (h : OnCourse s₀ r₀ o) {advance : World σ ρ → World σ ρ}
    (hg : ∀ w : World σ ρ, w.Goes (advance w)) (hr : o.startup.result? = none) :
    OnCourse s₀ r₀ (o.letRun advance) ∧ (o.letRun advance).startup.result? = none := by
  obtain ⟨⟨registry, config, phase⟩, world⟩ := o
  obtain ⟨r, hc⟩ := h.course
  cases phase with
  | gating service names gate =>
    obtain ⟨actions, events, hown, hrun⟩ := hg world
    rw [show world.service = service from h.service service rfl] at hrun
    exact ⟨⟨⟨r, hc.trans (Startup.Course.of_run rfl hrun hown r)⟩, fun _ hs => Option.some.inj hs⟩,
      rfl⟩
  | inspecting attempt | resting attempt pause => exact ⟨⟨⟨r, hc⟩, nofun⟩, rfl⟩
  | refused f | ready service | abandoned f service => cases hr

private theorem OnCourse.inspect (h : OnCourse s₀ r₀ o) (hr : o.startup.result? = none) :
    OnCourse s₀ r₀ o.inspect := by
  have noted (w : World σ ρ) (hw : w.service = o.world.service) :
      OnCourse s₀ r₀ { o with world := w } := ⟨h.course, fun s hs => hw.trans (h.service s hs)⟩
  simp only [Opening.inspect]
  apply OnCourse.take
  · exact noted _ rfl
  · exact hr
  · exact nofun

/-- A start on a virtual clock stays on its course. -/
theorem OnCourse.finishFrom (h : OnCourse s₀ r₀ o) (fuel : Nat) :
    OnCourse s₀ r₀ (o.finishFrom fuel) := by
  induction fuel generalizing o with
  | zero => exact h
  | succ fuel ih =>
    have going {advance : World σ ρ → World σ ρ} (hg : ∀ w : World σ ρ, w.Goes (advance w))
        (hr : o.startup.result? = none) {a : StartAction ρ} (ha : ∀ b, a ≠ .service b) :
        OnCourse s₀ r₀ (((o.letRun advance).take a).finishFrom fuel) :=
      ih ((h.letRun hg hr).1.take (h.letRun hg hr).2 ha)
    rw [Opening.finishFrom]
    split
    · next hp => exact ih (h.inspect (by rw [Startup.result?, hp]))
    · next pause hp => exact going (World.goes_sleep pause) (by rw [Startup.result?, hp]) (by simp)
    · next hp => exact ih (h.take (by rw [Startup.result?, hp]) (by simp))
    · next i hp => exact going (World.goes_returned i) (by rw [Startup.result?, hp]) (by simp)
    · next pause hp => exact going (World.goes_sleep pause) (by rw [Startup.result?, hp]) (by simp)
    · next hp => exact going (World.goes_settleFrom _) (by rw [Startup.result?, hp]) (by simp)
    · exact h
    · exact h
    · exact h

/-- Every start on a virtual clock is on a course from its beginning. -/
theorem onCourse_finish (registry : σ) (config : Config) :
    OnCourse (.begin (Registry.address registry) config) .empty
      (Opening.begin registry config : Opening σ ρ).finish := by
  have hbegin : OnCourse (.begin (Registry.address registry) config) .empty
      (Opening.begin registry config : Opening σ ρ) := ⟨⟨.empty, .none⟩, fun _ hs => by cases hs⟩
  exact hbegin.finishFrom _

end Opening

end ServiceDiscovery
