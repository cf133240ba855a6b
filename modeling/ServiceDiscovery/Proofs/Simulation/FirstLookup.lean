import ServiceDiscovery.Proofs.Registry.Memory
import ServiceDiscovery.Proofs.Service.FailedLookups
import ServiceDiscovery.Proofs.Simulation.Opening

/-!
# The first lookup of a service

A lookup that returns within a few moves has its result whatever the other tasks go on to do. The
first lookup of a service over a registry in memory is of this kind: nothing is cached yet, so it
gives what the registry shows.
-/

namespace ServiceDiscovery.World

section

variable {σ ρ : Type} {w v : World σ ρ} {i : Nat} {result : Except Failure EndpointSet}

/-- A lookup that has returned keeps its result while tasks go on. -/
theorem Goes.result? (h : w.Goes v) (hr : w.result? i = some result) :
    v.result? i = some result := by
  obtain ⟨l, hl, hresult⟩ := Option.bind_eq_some_iff.1 hr
  cases l with
  | finished r =>
    cases hresult
    obtain ⟨actions, events, -, hrun⟩ := h
    rw [World.result?, (Service.no_step_of_finished hl hrun).2]
    rfl
  | _ => cases hresult

variable [Registry σ]

/-- One move, and then the others. -/
theorem settleFrom_of_move? (hm : w.move? = some v) (moves : Nat) :
    settleFrom (moves + 1) w = settleFrom moves v := by
  rw [settleFrom, hm]

/-- Some moves, and then the others. -/
theorem settleFrom_add (moves more : Nat) (w : World σ ρ) :
    settleFrom (moves + more) w = settleFrom more (settleFrom moves w) := by
  induction moves generalizing w with
  | zero => rw [Nat.zero_add, settleFrom]
  | succ moves ih =>
    rw [Nat.succ_add]
    cases hm : w.move? with
    | some v => rw [settleFrom_of_move? hm, settleFrom_of_move? hm, ih]
    | none =>
      have hstays : ∀ n, settleFrom n w = w := fun n => by
        cases n with
        | zero => rfl
        | succ n => rw [settleFrom, hm]
      rw [hstays, hstays, hstays]

private theorem result?_returned {moves : Nat} (hm : moves ≤ patience)
    (hr : (settleFrom moves w).result? i = some result) :
    (w.returned i).result? i = some result := by
  have hsettle : w.settle.result? i = some result := by
    obtain ⟨more, hmore⟩ := Nat.le.dest hm
    rw [settle, ← hmore, settleFrom_add]
    exact (goes_settleFrom more _).result? hr
  obtain ⟨n, hn⟩ : ∃ n, patience = n + 1 := ⟨999999, rfl⟩
  rw [returned, hn, returnedFrom]
  simp only [hsettle]

end

section

variable {ρ : Type} (r : MemoryRegistry) (tag : Option String) (address : String) (agent : Agent)
  (watch : WatchConfig) (key : Key)

-- A service whose only task is a lookup.
private def lookupAt (notes : List (Nat × Note ρ)) (cache : HandlerCache false ρ) (l : Lookup ρ) :
    World MemoryRegistry ρ :=
  { start r tag { Service.start address agent watch with cache := cache, lookups := [l] } with
    notes := notes }

-- A lookup has just asked the registry.
private def askedFor : World MemoryRegistry ρ :=
  { lookupAt (r.count (.immediate tag key)) tag address agent watch
      [(0, .asked (.immediate tag key))] .empty (.asking key) with
    lookupQueries := Table.empty.insert 0 (.given 0 (.ok (r.snapshot (.immediate tag key)))) }

private theorem settleFrom_call {name : String} (hkey : Key.parse name agent.domain = key)
    (hr : r.available = true) (hf : r.failures = 0) :
    settleFrom 3 ((start r tag (.start address agent watch)).call name).2 =
      (askedFor r tag address agent watch key : World MemoryRegistry ρ) := by
  subst hkey
  let alone : Lookup ρ → World MemoryRegistry ρ := lookupAt r tag address agent watch [] .empty
  have hcall : ((start r tag (.start address agent watch)).call name).2 =
      alone (.arriving name) := rfl
  have hreads : (alone (.arriving name)).move? =
      some (alone (.reading (.parse name agent.domain))) := rfl
  have hmisses (key : Key) : (alone (.reading key)).move? = some (alone (.asking key)) := rfl
  have hasks : (alone (.asking (.parse name agent.domain))).move? =
      some (askedFor r tag address agent watch (.parse name agent.domain)) := by
    cases r
    cases hr
    cases hf
    rfl
  rw [hcall, settleFrom_of_move? hreads, settleFrom_of_move? (hmisses _),
    settleFrom_of_move? hasks, settleFrom]

private theorem result?_found (notes : List (Nat × Note ρ)) (set : EndpointSet) (index : Nat) :
    (settleFrom 3
        (lookupAt r tag address agent watch notes .empty (.seeding key set index))).result? 0 =
      some (.ok set) := by
  let alone : Lookup ρ → World MemoryRegistry ρ :=
    lookupAt r tag address agent watch notes ((Cache.empty : HandlerCache false ρ).seed key set).2.2
  have hstores : (lookupAt r tag address agent watch notes .empty (.seeding key set index)).move? =
      some (alone (.notifying key set index true [])) := rfl
  have htells : (alone (.notifying key set index true [])).move? =
      some (alone (.spawning key set index)) := rfl
  have hspawns : ∃ v, (alone (.spawning key set index)).move? = some v ∧
      v.result? 0 = some (.ok set) := ⟨_, rfl, rfl⟩
  obtain ⟨v, hv, hresult⟩ := hspawns
  rw [settleFrom_of_move? hstores, settleFrom_of_move? htells, settleFrom_of_move? hv, settleFrom,
    hresult]

private theorem result?_askedFor :
    (settleFrom 4 (askedFor r tag address agent watch key : World MemoryRegistry ρ)).result? 0 =
      some ((key.found address (.ok (r.snapshot (.immediate tag key)))).map Prod.fst) := by
  let waiting : World MemoryRegistry ρ :=
    lookupAt (r.count (.immediate tag key)) tag address agent watch
      [(0, .asked (.immediate tag key))] .empty (.asking key)
  have hmove : (askedFor r tag address agent watch key : World MemoryRegistry ρ).move? =
      some (waiting.act (.answerLookup 0 (.ok (r.snapshot (.immediate tag key))))) := rfl
  have hstep : waiting.service.step (.answerLookup 0 (.ok (r.snapshot (.immediate tag key)))) =
        (Lookup.answer (key.found address (.ok (r.snapshot (.immediate tag key))))
          (.asking key)).map fun l => (waiting.service.setLookup 0 l, []) :=
    rfl
  rw [settleFrom_of_move? hmove, act, act?, hstep]
  cases key.found address (.ok (r.snapshot (.immediate tag key))) with
  | error f =>
    refine (goes_settleFrom 3 _).result? ?_
    rfl
  | ok found => exact result?_found _ tag address agent watch key _ found.1 found.2

/-- The first lookup of a service gives what a registry that can be reached shows. -/
theorem resolve_start {name : String} (hkey : Key.parse name agent.domain = key)
    (hr : r.available = true) (hf : r.failures = 0) :
    ((start r tag (.start address agent watch) : World MemoryRegistry ρ).resolve name).1 =
      some (if (r.shown tag key).isEmpty then .error (.notFound key.toText address)
        else .ok (r.shown tag key)) := by
  have hmoves : (settleFrom 7
      ((start r tag (.start address agent watch) : World MemoryRegistry ρ).call name).2).result? 0 =
        some ((key.found address (.ok (r.snapshot (.immediate tag key)))).map Prod.fst) := by
    rw [settleFrom_add 3 4, settleFrom_call r tag address agent watch key hkey hr hf,
      result?_askedFor]
  have hshown : (key.found address (.ok (r.snapshot (.immediate tag key)))).map Prod.fst =
      if (r.shown tag key).isEmpty then .error (.notFound key.toText address)
      else .ok (r.shown tag key) := by
    show (if (r.shown tag key).isEmpty then _ else _ : Except Failure _).map Prod.fst = _
    split <;> rfl
  have hplace : ((start r tag (.start address agent watch) :
      World MemoryRegistry ρ).call name).1 = 0 := rfl
  have hfew : 7 ≤ patience := by decide
  rw [hshown] at hmoves
  rw [resolve]
  simp only [hplace]
  exact result?_returned hfew hmoves

end

end ServiceDiscovery.World
