import ServiceDiscovery.Proofs.Simulation.Fresh
import ServiceDiscovery.Proofs.Simulation.Settling

/-!
# Worlds at rest

A world is at rest if every task waits. Whatever comes from outside and in whatever order the tasks
then move, they come to rest again if blocking queries may be held for some time. At every rest each
watcher with a query out stands at the index of the registry, and what is cached is what the
registry shows; so no change of the registry is lost.
-/

namespace ServiceDiscovery

namespace World

variable {ρ : Type}

section

variable {w : World MemoryRegistry ρ}

/-! ### What is left at rest -/

/-- At rest every lookup has returned. -/
theorem AtRest.finished (h : w.AtRest) (hs : w.Sound) {i : Nat} {l : Lookup ρ}
    (hl : w.service.lookups[i]? = some l) : ∃ result, l = .finished result := by
  have hm : w.moveLookup i l = none := by
    simpa [Mover.turn, turn?, hl] using h (.task (.lookup i))
  have hstep (he : w.moveLookup i l = w.act? (.lookup i)) : w.service.stepLookup i l = none := by
    have hn : w.service.step (.lookup i) = none := Option.map_eq_none_iff.1 (he.symm.trans hm)
    simpa [Service.step, hl] using hn
  cases l with
  | finished result => exact ⟨result, rfl⟩
  | asking key =>
    simp only [moveLookup] at hm
    split at hm
    · cases hm
    · next p hq =>
      -- the registry answers an immediate query when it is asked
      obtain ⟨-, time, result, -, rfl, ht, -⟩ := hs.lookupQuery i p hq
      have ha : w.registry.answer? w.now (.given time result) = none := Option.map_eq_none_iff.1 hm
      rw [MemoryRegistry.answer?, if_pos ht] at ha
      cases ha
  | notifying key set index claimed d =>
    have hn := hstep rfl
    simp only [Service.stepLookup] at hn
    split at hn <;> cases hn
  | spawning key set index =>
    have hn := hstep rfl
    simp only [Service.stepLookup] at hn
    split at hn <;> cases hn
  | arriving _ | reading _ | seeding _ _ _ => cases hstep rfl

/-- At rest a watcher that has not ended pauses, or has a query out that is held at its index, which
the registry has not passed. -/
theorem AtRest.waiting (h : w.AtRest) (hs : w.Sound) {j : Nat} {key : Key} {stage : WatchStage ρ}
    (hw : w.service.watchers[j]? = some ⟨key, stage⟩)
    (ho : (⟨key, stage⟩ : Watcher ρ).isOver = false) :
    ∃ cursor, stage = .pausing cursor ∨ stage = .asking cursor ∧
      w.registry.index ≤ cursor.waitIndex ∧ ∃ wait deadline, w.watchQueries.get? j =
        some (.blocked (.blocking w.tag key cursor.waitIndex wait) cursor.waitIndex deadline) := by
  have hm : w.moveWatcher j ⟨key, stage⟩ = none := by
    simpa [Mover.turn, turn?, hw] using h (.task (.watcher j))
  have hstep (he : w.moveWatcher j ⟨key, stage⟩ = w.act? (.watcher j)) :
      (⟨key, stage⟩ : Watcher ρ).advance w.service.cache = none := by
    have hn : w.service.step (.watcher j) = none := Option.map_eq_none_iff.1 (he.symm.trans hm)
    simpa [Service.step, Service.stepWatcher, hw] using hn
  cases stage with
  | pausing cursor => exact ⟨cursor, Or.inl rfl⟩
  | asking cursor =>
    refine ⟨cursor, Or.inr ⟨rfl, ?_⟩⟩
    simp only [moveWatcher] at hm
    split at hm
    · cases hm
    · simp only [moveAsking] at hm
      split at hm
      · cases hm
      · next hq => exact absurd hq (hs.not_gives_crash j)
      · next p _ hq =>
        obtain ⟨key', cursor', hw', hp⟩ := hs.watchQuery j p hq
        rw [hw] at hw'
        cases hw'
        have ha : w.registry.answer? w.now p = none := Option.map_eq_none_iff.1 hm
        rcases hp with ⟨wait, deadline, rfl⟩ | ⟨time, f, rfl, ht⟩
        · refine ⟨Nat.le_of_not_lt fun hlt => ?_, wait, deadline, hq⟩
          exact absurd ha (MemoryRegistry.answer?_blocked_ne_none hlt)
        · rw [MemoryRegistry.answer?, if_pos ht] at ha
          cases ha
  | notifying cursor d =>
    have hn := hstep rfl
    simp only [Watcher.advance] at hn
    split at hn <;> cases hn
  | storing _ _ | leaving _ => cases hstep rfl
  | ended _ | crashed => cases ho

/-- At rest nobody has anything in hand. -/
theorem AtRest.inHand?_eq_none (h : w.AtRest) (hs : w.Sound) (t : Task) :
    w.service.inHand? t = none := by
  cases hx : w.service.inHand? t with
  | none => rfl
  | some x =>
    cases t with
    | lookup i =>
      obtain ⟨result, he⟩ := h.finished hs (Service.lookup_of_inHand? hx)
      cases he
    | watcher j =>
      obtain ⟨cursor, hw, -⟩ := Service.watcher_of_inHand? hx
      obtain ⟨cursor', he | ⟨he, -⟩⟩ := h.waiting hs hw rfl <;> cases he

/-! ### From one rest to the next -/

private theorem Sound.withRegistry (hs : w.Sound) {r : MemoryRegistry}
    (hi : w.registry.index ≤ r.index) :
    { w with registry := r }.Sound := by
  constructor
  · exact hs.reached
  · exact Nat.lt_of_lt_of_le hs.index_pos hi
  · intro i p hp
    obtain ⟨key, time, result, hl, he, ht, hanswer⟩ := hs.lookupQuery i p hp
    refine ⟨key, time, result, hl, he, ht, fun answer ha => ?_⟩
    exact ⟨(hanswer answer ha).1, Nat.le_trans (hanswer answer ha).2 hi⟩
  · exact hs.watchQuery
  · intro t x hx
    exact ⟨(hs.inHand t x hx).1, Nat.le_trans (hs.inHand t x hx).2 hi⟩
  · intro t key n hp
    exact ⟨(hs.position t key n hp).1, Nat.le_trans (hs.position t key n hp).2 hi⟩

/-- After a change at rest nobody knows the new index, unless the registry shows what it showed. -/
theorem Fresh.changed (hf : w.Fresh) (hr : w.AtRest) (hs : w.Sound) (c : MemoryRegistry.Change)
    (hi : w.registry.index ≤ (w.registry.applied c).index) :
    { w with registry := w.registry.applied c }.Fresh := by
  constructor
  · intro i key time answer hl
    obtain ⟨result, he⟩ := hr.finished hs hl
    cases he
  · intro t x hx
    rw [hr.inHand?_eq_none hs t] at hx
    cases hx
  · intro t key set hp hx hg
    -- nobody stands past the old index, so whoever stands at the new one finds them equal
    have hle : (w.registry.applied c).index ≤ w.registry.index := (hs.position t key _ hp).2
    have hsame : (w.registry.applied c).index = w.registry.index := Nat.le_antisymm hle hi
    rw [MemoryRegistry.shown_applied hsame]
    exact hf.cached t key set (hsame ▸ hp) hx hg

end

/-- A change that leaves a service with an instance that carries a tag and one that does not. -/
def release (address : String) : MemoryRegistry.Change :=
  .setService "api" none
    [⟨⟨"", address⟩, ⟨"api", "", 80, some ["live"]⟩, []⟩, .ofAddress "api" "10.0.0.9" 80]

/-- A world in which the instances with a tag are asked for and a service was resolved. -/
def resolved : World MemoryRegistry Unit :=
  ((start (MemoryRegistry.empty.applied (release "10.0.0.1")) (some "live")
    (.start "memory" default .standard)).act (.resolve "api")).settle

/-- The same world after the instance with the tag has moved. -/
def moved : World MemoryRegistry Unit :=
  { resolved with registry := resolved.registry.applied (release "10.0.0.2") }.settle

end World

end ServiceDiscovery
