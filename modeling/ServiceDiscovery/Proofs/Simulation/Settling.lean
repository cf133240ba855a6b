import ServiceDiscovery.Proofs.Simulation.Work

/-!
# Settling

While the clock stands still and nobody does anything from outside, tasks and shutdowns move until
all of them wait. If blocking queries may be held for some time, they come to that in whatever order
they move: every move replaces the work of one of them by less.
-/

namespace ServiceDiscovery

namespace World

variable {ρ : Type}

/-- A move leads from the second world to the first. -/
def Follows (v w : World MemoryRegistry ρ) : Prop :=
  ∃ m : Mover, w.turn? m.turn = some v

/-- No move is possible. -/
def AtRest (w : World MemoryRegistry ρ) : Prop := ∀ m : Mover, w.turn? m.turn = none

variable {w v : World MemoryRegistry ρ}

/-! ### No order of moves goes on forever -/

/-- A move is a step of the service at most, and no call from outside. -/
theorem TurnTo.step {m : Mover} (h : TurnTo w m.turn v) :
    v.service = w.service ∨ ∃ a events, w.service.step a = some (v.service, events) ∧
      (∀ name, a ≠ .resolve name) ∧ a ≠ .callShutdown ∧
      ∀ i, a = .lookup i → m = .task (.lookup i) := by
  cases m with
  | task t =>
    rcases h.service with he | ⟨a, events, ha, -, hs⟩
    · exact Or.inl he
    · refine Or.inr ⟨a, events, hs, ?_, ?_, ?_⟩
      · rintro name rfl
        cases ha
      · rintro rfl
        cases ha
      · rintro i rfl
        cases ha
        rfl
  | shutdown k =>
    cases h with
    | acted ha hs =>
      cases ha
      refine Or.inr ⟨_, _, hs, fun _ he => ?_, fun he => ?_, fun _ he => ?_⟩ <;> cases he

/-- A move adds no mover but the watcher that a lookup starts, which has less to do than the lookup
had. -/
theorem TurnTo.movers {m : Mover} (h : TurnTo w m.turn v) :
    v.service.movers = w.service.movers ∨ ∃ n, n ∉ w.service.movers ∧
      v.service.movers = insert n w.service.movers ∧ (v.work n).Less (w.work m) := by
  rcases h.step with he | ⟨a, events, hs, hr, hc, ha⟩
  · exact Or.inl (by rw [he])
  rcases Service.movers_of_transition (Service.transition_of_step hs) hr hc with
    he | ⟨i, key, set, index, rfl, hl, he⟩
  · exact Or.inl he
  · refine Or.inr ⟨_, ?_, he, .phase ?_⟩
    · rw [Service.mem_movers_watcher]
      simp
    · have hmem : .task (.watcher w.service.watchers.length) ∈ v.service.movers :=
        he ▸ Finset.mem_insert_self _ _
      obtain ⟨x, hx⟩ := Service.mem_movers_watcher.1 hmem
      rw [ha i rfl, work_lookup hl, work_watcher hx]
      exact phase_watcherWork_lt _ x

end World

end ServiceDiscovery
