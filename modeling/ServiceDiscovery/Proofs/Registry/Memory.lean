import ServiceDiscovery.Registry.Memory

/-!
# What the registry in memory shows

What a registry shows of a key are the endpoints of the healthy instances with a tag. Queries change
neither what is shown nor the index, an answer gives both as they are when it is given, and a change
that shows something else moves the index.
-/

namespace ServiceDiscovery.MemoryRegistry

/-- What a registry shows of a key to those who ask for a tag. -/
def shown (r : MemoryRegistry) (tag : Option String) (key : Key) : EndpointSet :=
  healthyEndpoints ((r.entries key.name key.datacenter).filter (Entry.matchesTag tag))

/-- Registries with the same services show the same. -/
theorem shown_of_services_eq {r r' : MemoryRegistry} (h : r'.services = r.services)
    (tag : Option String) (key : Key) : r'.shown tag key = r.shown tag key := by
  simp only [shown, entries, h]

/-! ### Queries -/

/-- Letting a request through changes neither the services nor the index. -/
theorem letThrough_services (r : MemoryRegistry) :
    r.letThrough.2.services = r.services ∧ r.letThrough.2.index = r.index := by
  simp only [letThrough]
  split
  · exact ⟨rfl, rfl⟩
  · split <;> exact ⟨rfl, rfl⟩

/-- Counting a query changes neither the services nor the index. -/
theorem count_services (q : HealthQuery) (r : MemoryRegistry) :
    (r.count q).services = r.services ∧ (r.count q).index = r.index := by
  simp only [count]
  split <;> exact ⟨rfl, rfl⟩

/-- After a query the registry has counted it and let it through or not. -/
theorem query_snd (now : Nat) (q : HealthQuery) (r : MemoryRegistry) :
    (r.query now q).2 = (r.count q).letThrough.2 := by
  simp only [query]
  split <;> rfl

/-- A query does not change the services. -/
@[simp]
theorem query_services (now : Nat) (q : HealthQuery) (r : MemoryRegistry) :
    (r.query now q).2.services = r.services := by
  rw [query_snd, (letThrough_services _).1, (count_services q r).1]

/-- A query does not move the index. -/
@[simp]
theorem query_index (now : Nat) (q : HealthQuery) (r : MemoryRegistry) :
    (r.query now q).2.index = r.index := by
  rw [query_snd, (letThrough_services _).2, (count_services q r).2]

/-- An immediate query fails at once or is answered at once with what is shown. -/
theorem query_immediate (now : Nat) (tag : Option String) (key : Key) (r : MemoryRegistry) :
    ∃ result, (r.query now (.immediate tag key)).1 = .given now result ∧
      ∀ answer, result = .ok answer → answer.endpoints = (r.shown tag key, r.index) := by
  simp only [query]
  split
  · next f _ =>
    refine ⟨.error f, rfl, fun answer ha => ?_⟩
    cases ha
  · refine ⟨_, rfl, fun answer ha => ?_⟩
    cases ha
    have hl := letThrough_services (r.count (.immediate tag key))
    have hc := count_services (.immediate tag key) r
    have hs := shown_of_services_eq (hl.1.trans hc.1) tag key
    exact Prod.ext hs (hl.2.trans hc.2)
  · next hi => cases hi

/-- A blocking query fails at once or is held until its wait is over. -/
theorem query_blocking (now : Nat) (tag : Option String) (key : Key) (index : Nat)
    (wait : Duration) (r : MemoryRegistry) :
    (∃ f, (r.query now (.blocking tag key index wait)).1 = .given now (.error f)) ∨
      (r.query now (.blocking tag key index wait)).1 =
        .blocked (.blocking tag key index wait) index (now + wait.toMillisUp) := by
  simp only [query]
  split
  · next f _ => exact Or.inl ⟨f, rfl⟩
  · next hi => cases hi
  · next hi =>
    cases hi
    exact Or.inr rfl

/-- The answer to a held query gives what is shown when it is given. -/
theorem answer?_blocked {now index deadline : Nat} {tag : Option String} {key : Key}
    {wait : Duration} {r : MemoryRegistry} {result : Except Failure Answer}
    (h : r.answer? now (.blocked (.blocking tag key index wait) index deadline) = some result) :
    ∃ answer, result = .ok answer ∧ answer.endpoints = (r.shown tag key, r.index) := by
  simp only [answer?] at h
  split at h
  · cases h
    exact ⟨_, rfl, rfl⟩
  · cases h

/-- A held query is let go as soon as the index is past its own. -/
theorem answer?_blocked_ne_none {now index deadline : Nat} {q : HealthQuery}
    {r : MemoryRegistry} (h : index < r.index) :
    r.answer? now (.blocked q index deadline) ≠ none := by
  simp [answer?, h]

/-! ### Changes -/

/-- A change that leaves the index where it was shows nothing else. -/
theorem shown_applied {c : Change} {r : MemoryRegistry} (h : (r.applied c).index = r.index)
    (tag : Option String) (key : Key) : (r.applied c).shown tag key = r.shown tag key := by
  have hb (r' : MemoryRegistry) (hi : r'.index = r.index) : r'.bump.index ≠ r.index :=
    hi ▸ r'.index_bump_ne
  cases c with
  | setService name datacenter entries => exact absurd h (hb _ rfl)
  | register entry => exact absurd h (hb _ rfl)
  | putValue k value => exact absurd h (hb _ rfl)
  | deregister name =>
    cases hs : r.services.get? (name, none) with
    | none => simp only [applied, apply, write, hs, Except.map]
    | some entries =>
      simp only [applied, apply, write, hs, Except.map] at h
      exact absurd h (hb _ rfl)
  | registerAgentService _ | setAgent _ | setIndex _ | setAvailable _ | failNext _ => rfl

end ServiceDiscovery.MemoryRegistry
