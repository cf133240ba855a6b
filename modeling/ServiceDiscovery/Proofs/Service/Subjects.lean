import ServiceDiscovery.Proofs.Service.Task

/-!
# What tasks are about

The keys that the tasks of a service are about, and the sets that its lookups carry. Each key comes
from a name that a lookup was called with, so the registry is asked about these names only. No
lookup carries an empty set, and one that has returned does nothing any more.
-/

namespace ServiceDiscovery

namespace Lookup

variable {ρ : Type}

/-- The key that a lookup is about until it returns, where `denote` reads names. -/
def key? (denote : String → Key) : Lookup ρ → Option Key
  | .arriving name => some (denote name)
  | .reading key | .asking key | .seeding key _ _ | .notifying key _ _ _ _ | .spawning key _ _ =>
    some key
  | .finished _ => none

/-- The set that a lookup carries, or has returned. -/
def set? : Lookup ρ → Option EndpointSet
  | .seeding _ set _ | .notifying _ set _ _ _ | .spawning _ set _ | .finished (.ok set) => some set
  | _ => none

end Lookup

namespace Service

variable {ρ : Type} {s s' : Service ρ} {a : Action ρ} {events : List (Event ρ)}
  {names : List String}

/-- All tasks are about keys that some of the names denote. -/
structure Concerns (s : Service ρ) (names : List String) : Prop where
  lookups : ∀ l ∈ s.lookups, ∀ key, l.key? s.key = some key → key ∈ names.map s.key
  watchers : ∀ w ∈ s.watchers, w.key ∈ names.map s.key

/-- No lookup carries an empty set. -/
def Fruitful (s : Service ρ) : Prop := ∀ l ∈ s.lookups, ∀ set, l.set? = some set →
  set.isEmpty = false

/-- No transition changes what the agent reported. -/
theorem agent_of_transition (h : Transition s a s' events) : s'.agent = s.agent := by
  cases h <;> rfl

/-! ### Keys -/

private theorem Concerns.key (h : s.Concerns names) {i : Nat} {l : Lookup ρ} {key : Key}
    (hl : s.lookups[i]? = some l) (hk : l.key? s.key = some key) : key ∈ names.map s.key :=
  h.lookups l (List.mem_of_getElem? hl) key hk

private theorem Concerns.setLookup (h : s.Concerns names) {i : Nat} {l : Lookup ρ}
    (hl : ∀ key, l.key? s.key = some key → key ∈ names.map s.key) :
    (s.setLookup i l).Concerns names := by
  refine ⟨fun x hx => ?_, h.watchers⟩
  rcases List.mem_or_eq_of_mem_set hx with hx | rfl
  · exact h.lookups x hx
  · exact hl

private theorem Concerns.setWatcher (h : s.Concerns names) {j : Nat} {key : Key}
    {stage : WatchStage ρ} (hw : s.watchers[j]? = some ⟨key, stage⟩) (next : WatchStage ρ) :
    (s.setWatcher j ⟨key, next⟩).Concerns names := by
  refine ⟨h.lookups, fun x hx => ?_⟩
  rcases List.mem_or_eq_of_mem_set hx with hx | rfl
  · exact h.watchers x hx
  · exact h.watchers ⟨key, stage⟩ (List.mem_of_getElem? hw)

private theorem Concerns.withCache (h : s.Concerns names) (c : HandlerCache false ρ) :
    { s with cache := c }.Concerns names :=
  ⟨h.lookups, h.watchers⟩

private theorem Concerns.spawn (h : s.Concerns names) {key : Key} (hk : key ∈ names.map s.key)
    (index : Nat) : (s.spawn key index).Concerns names := by
  refine ⟨h.lookups, fun x hx => ?_⟩
  rcases List.mem_append.1 hx with hx | hx
  · exact h.watchers x hx
  · cases List.mem_singleton.1 hx
    exact hk

/-- The tasks are about more names, too. -/
theorem Concerns.mono (h : s.Concerns names) {more : List String} (hm : names ⊆ more) :
    s.Concerns more :=
  ⟨fun l hl key hk => List.map_subset _ hm (h.lookups l hl key hk),
    fun w hw => List.map_subset _ hm (h.watchers w hw)⟩

/-- As long as no other name is looked up, the tasks stay about the same names. -/
theorem Concerns.of_transition (h : s.Concerns names) (ht : Transition s a s' events)
    (ha : ∀ name, a = .resolve name → name ∈ names) : s'.Concerns names := by
  have same {i : Nat} {old l : Lookup ρ} (hl : s.lookups[i]? = some old)
      (he : l.key? s.key = old.key? s.key) (key : Key) (hk : l.key? s.key = some key) :
      key ∈ names.map s.key := h.key hl (he ▸ hk)
  cases ht with
  | called name =>
    refine ⟨fun l hl key hk => ?_, h.watchers⟩
    rcases List.mem_append.1 hl with hl | hl
    · exact h.lookups l hl key hk
    · cases List.mem_singleton.1 hl
      cases hk
      exact List.mem_map_of_mem (ha name rfl)
  | refused _ _ | served _ _ _ | failed _ _ | lost _ => exact h.setLookup nofun
  | withdrawn _ _ => exact (h.withCache _).setLookup nofun
  | spawned hl _ => exact (h.spawn (h.key hl rfl) _).setLookup nofun
  | admitted hl _ | missed hl _ | found hl _ | won hl => exact h.setLookup (same hl rfl)
  | seeded hl | told hl _ => exact (h.withCache _).setLookup (same hl rfl)
  | observed hw _ | stumbled hw _ _ | gaveUp hw _ _ | resumed hw | recalled hw _ | roused hw _
  | crashed hw | rearmed hw => exact h.setWatcher hw _
  | stored hw | relayed hw _ | left hw => exact (h.withCache _).setWatcher (by exact hw) _
  | shutdownCalled | requested _ | took _ | joined _ _ | invalidated _ | subscribed _ _
  | unsubscribed _ _ => exact ⟨h.lookups, h.watchers⟩

/-! ### Sets -/

private theorem Fruitful.setLookup (h : s.Fruitful) {i : Nat} {l : Lookup ρ}
    (hl : ∀ set, l.set? = some set → set.isEmpty = false) : (s.setLookup i l).Fruitful := by
  intro x hx
  rcases List.mem_or_eq_of_mem_set hx with hx | rfl
  · exact h x hx
  · exact hl

/-- What a lookup carries was found, and what it reads from the cache is not empty. -/
theorem Fruitful.of_transition (h : s.Fruitful) (ht : Transition s a s' events) :
    s'.Fruitful := by
  have same {i : Nat} {old l : Lookup ρ} (hl : s.lookups[i]? = some old)
      (he : l.set? = old.set?) (set : EndpointSet) (hs : l.set? = some set) :
      set.isEmpty = false := h old (List.mem_of_getElem? hl) set (he ▸ hs)
  cases ht with
  | called name =>
    intro l hl
    rcases List.mem_append.1 hl with hl | hl
    · exact h l hl
    · cases List.mem_singleton.1 hl
      exact nofun
  | served _ _ hne => exact h.setLookup fun _ hs => Option.some.inj hs ▸ hne
  | found _ hr => exact h.setLookup fun _ hs => Option.some.inj hs ▸ Key.isEmpty_of_found hr
  | refused hl _ | admitted hl _ | missed hl _ | failed hl _ => exact h.setLookup nofun
  | seeded hl | told hl _ | won hl | lost hl | spawned hl _ => exact h.setLookup (same hl rfl)
  | withdrawn _ _ => exact Fruitful.setLookup (by exact h) nofun
  | _ => exact h

/-! ### Lookups that have returned -/

/-- A lookup that has returned stays so. -/
theorem finished_of_transition (h : Transition s a s' events) {i : Nat}
    {result : Except Failure EndpointSet} (hl : s.lookups[i]? = some (.finished result)) :
    s'.lookups[i]? = some (.finished result) := by
  by_cases ht : a.task? = some (.lookup i)
  · cases h with
    | refused hl' _ | admitted hl' _ | served hl' _ _ | missed hl' _ | found hl' _ | failed hl' _
    | seeded hl' | told hl' _ | won hl' | lost hl' | withdrawn hl' _ | spawned hl' _ =>
      cases ht
      rw [hl] at hl'
      cases hl'
    | _ => cases ht
  · exact lookup_of_task_ne h ht hl

/-- Unless one is called, the number of lookups stays. -/
theorem length_lookups_of_transition (h : Transition s a s' events)
    (ha : ∀ name, a ≠ .resolve name) : s'.lookups.length = s.lookups.length := by
  cases h with
  | called name => exact absurd rfl (ha name)
  | refused _ _ | admitted _ _ | served _ _ _ | missed _ _ | found _ _ | failed _ _ | seeded _
  | told _ _ | won _ | lost _ | withdrawn _ _ | spawned _ _ => exact List.length_set
  | _ => rfl

/-- Unless one is called, the number of shutdown calls stays. -/
theorem length_shutdowns_of_transition (h : Transition s a s' events) (ha : a ≠ .callShutdown) :
    s'.shutdowns.length = s.shutdowns.length := by
  cases h with
  | shutdownCalled => exact absurd rfl ha
  | requested _ | took _ | joined _ _ => exact List.length_set
  | _ => rfl

/-- All lookups have returned but one at most. -/
def Settled (s : Service ρ) (busy : Option Nat) : Prop :=
  ∀ (i : Nat) l, s.lookups[i]? = some l → busy ≠ some i → ∃ result, l = .finished result

/-- Unless a lookup is called, no other becomes busy. -/
theorem Settled.of_transition {busy : Option Nat} (h : s.Settled busy)
    (ht : Transition s a s' events) (ha : ∀ name, a ≠ .resolve name) : s'.Settled busy := by
  intro i l hl hi
  have hlt : i < s.lookups.length :=
    length_lookups_of_transition ht ha ▸ (List.getElem?_eq_some_iff.1 hl).1
  obtain ⟨result, hr⟩ := h i _ (List.getElem?_eq_getElem hlt) hi
  have hold : s.lookups[i]? = some (.finished result) := hr ▸ List.getElem?_eq_getElem hlt
  rw [finished_of_transition ht hold] at hl
  exact ⟨result, (Option.some.inj hl).symm⟩

end Service

end ServiceDiscovery
