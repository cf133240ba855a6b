import ServiceDiscovery.Proofs.Service.Breakdown

/-!
# After a shutdown

What is left of a service when its only shutdown call has returned, whatever the registry did. Every
watcher has ended by its own release, or has broken down under a query before. A lookup under way
gives its claim back before it returns, so in the end nothing is left but what the broken watchers
held: without a breakdown, nothing at all.
-/

namespace ServiceDiscovery

private theorem Watcher.stage_of_isOver {ρ : Type} {w : Watcher ρ} (h : w.isOver = true) :
    (∃ exit, w.stage = .ended exit) ∨ w.stage = .crashed := by
  obtain ⟨key, stage⟩ := w
  cases stage with
  | ended exit => exact Or.inl ⟨exit, rfl⟩
  | crashed => exact Or.inr rfl
  | _ => cases h

namespace Service

variable {ρ : Type} {s : Service ρ} {key : Key}

/-- When the only shutdown call has returned, every watcher has ended or broken down. -/
theorem Attained.stage_of_returned (h : s.Attained) (hs : s.shutdowns = [.returned])
    {w : Watcher ρ} (hw : w ∈ s.watchers) :
    (∃ exit, w.stage = .ended exit) ∨ w.stage = .crashed := by
  obtain ⟨j, hj⟩ := List.mem_iff_getElem?.1 hw
  have hover := h.supervised.isOver_of_returned hs j
  exact Watcher.stage_of_isOver (by simpa [isOver, hj] using hover)

/-- When the only shutdown call has returned, the claims that are left are held by lookups, or were
held by watchers that have broken down. -/
theorem Attained.holder_of_returned (h : s.Attained) (hs : s.shutdowns = [.returned])
    (hk : key ∈ s.cache.watching) :
    (∃ i, s.held? (.lookup i) = some key) ∨ ∃ j : Nat, s.watchers[j]? = some ⟨key, .crashed⟩ := by
  refine (h.holder hk).imp_left ?_
  rintro ⟨t, ht⟩
  cases t with
  | lookup i => exact ⟨i, ht⟩
  | watcher j =>
    rw [isOver_iff.1 (h.supervised.isOver_of_returned hs j)] at ht
    cases ht

/-- When the lookups have returned too, the keys of broken watchers alone are watched. -/
theorem Attained.watched_iff_crashed (h : s.Attained) (hs : s.shutdowns = [.returned])
    (hf : ∀ l ∈ s.lookups, l.result?.isSome = true) :
    key ∈ s.cache.watching ↔ ∃ j : Nat, s.watchers[j]? = some ⟨key, .crashed⟩ := by
  refine ⟨fun hk => (h.holder_of_returned hs hk).resolve_left ?_, ?_⟩
  · rintro ⟨i, hi⟩
    rw [held?_of_finished hf i] at hi
    cases hi
  · rintro ⟨j, hj⟩
    exact (h.watched_of_crashed hj).1

/-- Without broken watchers nothing is cached or watched then. -/
theorem Attained.empty_of_returned (h : s.Attained) (hs : s.shutdowns = [.returned])
    (hf : ∀ l ∈ s.lookups, l.result?.isSome = true)
    (hb : ∀ w ∈ s.watchers, w.stage ≠ .crashed) : s.cache.size = 0 ∧ s.cache.watching = [] := by
  have hwatching : ∀ key, key ∉ s.cache.watching := fun key hk => by
    obtain ⟨j, hj⟩ := (h.watched_iff_crashed hs hf).1 hk
    exact hb _ (List.mem_of_getElem? hj) rfl
  refine ⟨Table.size_eq_zero_iff.2 fun key => ?_, List.eq_nil_iff_forall_not_mem.2 hwatching⟩
  exact Option.eq_none_iff_forall_ne_some.2 fun set hg =>
    hwatching key (h.mem_watching_of_get? hg)

/-- A shutdown leaves nothing behind but what watchers held that have broken down under a query. A
watcher is over by its own release or by a breakdown and in no other way, and no watcher is started
once a call has taken the watchers over. When the only call has returned, every watcher has ended or
broken down, and the claims that are left are held by lookups under way or are those of broken
watchers. When these lookups have returned, the keys of broken watchers alone are watched and can
have a cached set; if no watcher has broken down, no set is cached and no key is watched. A lookup
that comes after the cancellation only waits for its first step, which returns the refusal and
changes nothing else. -/
theorem shutdown_leaves_nothing (h : s.Attained) :
    (∀ a s' events, s.step a = some (s', events) → ∀ (j : Nat) (w : Watcher ρ),
      s'.watchers[j]? = some w → w.isOver = true →
        s.watchers[j]? = some w ∨ a = .crash j ∨
          ∃ exit, w.stage = .ended exit ∧ a = .watcher j ∧
            s.watchers[j]? = some ⟨w.key, .leaving exit⟩ ∧
            s'.cache = s.cache.release w.key) ∧
    (∀ d ∈ s.shutdowns, d.hasTaken = true → ∀ actions s' events,
      s.run actions = some (s', events) → s'.watchers.length = s.watchers.length) ∧
    (s.shutdowns = [.returned] →
      (∀ w ∈ s.watchers, (∃ exit, w.stage = .ended exit) ∨ w.stage = .crashed) ∧
      (∀ key ∈ s.cache.watching, (∃ i, s.held? (.lookup i) = some key) ∨
        ∃ j : Nat, s.watchers[j]? = some ⟨key, .crashed⟩) ∧
      ((∀ l ∈ s.lookups, l.result?.isSome = true) →
        (∀ key, key ∈ s.cache.watching ↔ ∃ j : Nat, s.watchers[j]? = some ⟨key, .crashed⟩) ∧
        (∀ key set, s.cache.get? key = some set → key ∈ s.cache.watching) ∧
        ((∀ w ∈ s.watchers, w.stage ≠ .crashed) →
          s.cache.size = 0 ∧ s.cache.watching = []))) ∧
    (s.cancelled = true → ∀ name actions s' events,
      s.run (.resolve name :: actions) = some (s', events) →
        s'.Refuses s.lookups.length name ∧
        (s'.lookups[s.lookups.length]? = some (.arriving name) →
          s'.step (.lookup s.lookups.length) = some (s'.setLookup s.lookups.length
            (.finished (.error .shuttingDown)), []))) := by
  refine ⟨?_, ?_, fun hs => ⟨?_, ?_, fun hf => ⟨?_, ?_, ?_⟩⟩, ?_⟩
  · intro a s' events hstep j w hw ho
    exact over_source (transition_of_step hstep) hw ho
  · intro d hd ht actions s' events hr
    refine length_watchers_of_run (h.supervised.cancelled d hd ?_) hr
    rintro rfl
    cases ht
  · exact fun w hw => h.stage_of_returned hs hw
  · exact fun key hk => h.holder_of_returned hs hk
  · exact fun key => h.watched_iff_crashed hs hf
  · exact fun key set hg => h.mem_watching_of_get? hg
  · exact h.empty_of_returned hs hf
  · intro hc name actions s' events hr
    obtain ⟨t, first, later, hs, hrun, -⟩ := step_of_run_cons hr
    cases hs
    have hcalled : (s.lookups ++ [.arriving name])[s.lookups.length]? = some (.arriving name) := by
      simp
    obtain ⟨hcs, hrs⟩ := refuses_of_run (by exact hc) (Or.inl hcalled) hrun
    refine ⟨hrs, fun hl => ?_⟩
    simp [step, hl, stepLookup, hcs]

/-- A shutdown of the contested service while a lookup waits for its answer. Another lookup comes
after the cancellation; the answer arrives when the shutdown has returned. -/
def closing : List (Action Unit) :=
  [.resolve "db", .lookup 2, .lookup 2, .callShutdown, .shutdown 0, .resolve "api", .shutdown 0,
    .cancel 0, .watcher 0, .shutdown 0,
    .answerLookup 2 (.ok ⟨[.ofAddress "db" "10.0.0.3" 5432], 5⟩),
    .lookup 2, .lookup 2, .lookup 2, .lookup 3]

/-- The contested service after the shutdown, when all lookups have returned. -/
def closed : Service Unit := ((contested.run closing).getD (contested, [])).1

/-- The late lookups are refused, and nothing of the service's one watcher is left. -/
theorem shutdown_leaves_nothing_closed :
    closed.Attained ∧ closed.shutdowns = [.returned] ∧
      closed.lookups[2]?.bind Lookup.result? = some (.error .shuttingDown) ∧
      closed.lookups[3]?.bind Lookup.result? = some (.error .shuttingDown) ∧
      (∀ w ∈ closed.watchers, ∃ exit, w.stage = .ended exit) ∧
      closed.cache.size = 0 ∧ closed.cache.watching = [] := by
  have hr : contested.run closing = some (closed, []) := rfl
  have hclosed : closed.Attained := reached_contested.attained.run hr
  have hunbroken : ∀ w ∈ closed.watchers, w.stage ≠ .crashed := by
    have hw : closed.watchers = [⟨.ofName "api", .ended .cancelled⟩] := rfl
    simp [hw]
  obtain ⟨-, -, hreturned, -⟩ := shutdown_leaves_nothing hclosed
  obtain ⟨hover, -, hclean⟩ := hreturned rfl
  obtain ⟨-, -, hempty⟩ := hclean (by decide)
  refine ⟨hclosed, rfl, rfl, rfl, fun w hw => ?_, hempty hunbroken⟩
  exact (hover w hw).resolve_right (hunbroken w hw)

/-- The contested service when the registry has broken down under its watcher's query and a shutdown
has returned after that. -/
def closedBroken : Service Unit :=
  ((contested.run [.crash 0, .callShutdown, .shutdown 0, .shutdown 0, .shutdown 0]).getD
    (contested, [])).1

/-- After the shutdown of a service whose watcher has broken down, the set that it watched over is
still cached and its key still claimed, though every lookup has returned. -/
theorem broken_watcher_outlasts_shutdown :
    contested.Reached ∧
      contested.run [.crash 0, .callShutdown, .shutdown 0, .shutdown 0, .shutdown 0] =
        some (closedBroken, []) ∧
      closedBroken.shutdowns = [.returned] ∧
      (∀ l ∈ closedBroken.lookups, l.result?.isSome = true) ∧
      closedBroken.watchers = [⟨.ofName "api", .crashed⟩] ∧
      closedBroken.cache.watching = [.ofName "api"] ∧
      closedBroken.cache.get? (.ofName "api") = some (.ofList [⟨"10.0.0.2", 80⟩]) := by
  refine ⟨reached_contested, rfl, rfl, ?_, rfl, rfl, ?_⟩ <;> decide

end Service

end ServiceDiscovery
