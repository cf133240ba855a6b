import ServiceDiscovery.Proofs.Simulation.Sound

/-!
# Fresh worlds

A world is fresh if everything that its tasks have learnt up to the index of the registry is what
the registry shows. A world stays fresh as long as the registry is left alone, whoever moves: what
is on its way to a task, in hand or cached comes from the registry as it is.
-/

namespace ServiceDiscovery

/-- A turn that leaves the data and the index of the registry alone. -/
def Turn.KeepsRegistry {ρ : Type} : Turn ρ → Prop
  | .write _ | .bump => False
  | .task _ | .outside _ _ | .wait _ => True

namespace World

variable {ρ : Type} {w w' : World MemoryRegistry ρ} {turn : Turn ρ}

private theorem TurnTo.registry (h : TurnTo w turn w') (hk : turn.KeepsRegistry) :
    w'.registry.index = w.registry.index ∧
      ∀ key, w'.registry.shown w'.tag key = w.registry.shown w.tag key := by
  cases h with
  | wrote _ _ | bumped _ => cases hk
  | lookupAsked _ _ | watcherAsked _ _ =>
    refine ⟨MemoryRegistry.query_index _ _ _, fun key => ?_⟩
    exact MemoryRegistry.shown_of_services_eq (MemoryRegistry.query_services _ _ _) w.tag key
  | acted _ _ | lookupAnswered _ _ _ | watcherAnswered _ _ _ | watcherCrashed _ _
  | watcherRecalled _ | watcherRoused _ _ | pauseBegun _ _ | pauseEnded _ | waited _ =>
    exact ⟨rfl, fun key => rfl⟩

/-- What tasks have learnt up to the index of the registry is what it shows. -/
structure Fresh (w : World MemoryRegistry ρ) : Prop where
  /-- So are the answers on their way to lookups. -/
  lookupAnswer : ∀ i key time answer, w.service.lookups[i]? = some (.asking key) →
    w.lookupQueries.get? i = some (.given time (.ok answer)) →
      healthyEndpoints answer.entries = w.registry.shown w.tag key
  /-- So is what tasks have in hand. -/
  inHand : ∀ t x, w.service.inHand? t = some x → x.set = w.registry.shown w.tag x.key
  /-- So is what is cached, where the task that holds the key has stored what it knows. -/
  cached : ∀ t key set, w.service.position? t = some (key, w.registry.index) →
    w.service.inHand? t = none → w.service.cache.get? key = some set →
      set = w.registry.shown w.tag key

private theorem lookupAnswer_turn (hs : w.Sound) (hf : w.Fresh) (h : TurnTo w turn w') {i : Nat}
    {key : Key} {time : Nat} {answer : Answer}
    (hl : w'.service.lookups[i]? = some (.asking key))
    (hp : w'.lookupQueries.get? i = some (.given time (.ok answer))) :
    healthyEndpoints answer.entries = w.registry.shown w.tag key := by
  obtain ⟨key', hl', hl'', hold | hnew⟩ := hs.lookupWaited h hp
  · rw [hl] at hl''
    cases hl''
    exact hf.lookupAnswer i key time answer hl' hold
  · rw [hl] at hl''
    cases hl''
    obtain ⟨result, he, hshown⟩ := w.registry.query_immediate w.now w.tag key
    rw [he] at hnew
    cases hnew
    exact congrArg Prod.fst (hshown answer rfl)

private theorem inHand_fresh_turn (hs : w.Sound) (hf : w.Fresh) (h : TurnTo w turn w') {t : Task}
    {x : Finding} (hx : w'.service.inHand? t = some x) :
    x.set = w.registry.shown w.tag x.key := by
  rcases h.service with he | ⟨a, events, -, hg, hstep⟩
  · exact hf.inHand t x (he ▸ hx)
  cases Service.findingSource_of_transition (Service.transition_of_step hstep) hx with
  | kept hx' => exact hf.inHand t x hx'
  | @found i answer _ ha hl he =>
    subst ha
    obtain ⟨p, hq, hanswer⟩ := hg
    obtain ⟨key, time, result, -, rfl, ht, -⟩ := hs.lookupQuery i p hq
    simp only [MemoryRegistry.answer?, if_pos ht] at hanswer
    cases hanswer
    have hset : healthyEndpoints answer.entries = x.set := congrArg Prod.fst he
    exact hset.symm.trans (hf.lookupAnswer i x.key time answer hl hq)
  | observed _ ha hw hset _ =>
    subst ha
    exact hset.trans (congrArg Prod.fst (hs.answer_watcher hw hg))

private theorem cached_turn (hs : w.Sound) (hf : w.Fresh) (h : TurnTo w turn w') {t : Task}
    {key : Key} {set : EndpointSet} (hp : w'.service.position? t = some (key, w.registry.index))
    (hx : w'.service.inHand? t = none) (hg : w'.service.cache.get? key = some set) :
    set = w.registry.shown w.tag key := by
  rcases h.service with he | ⟨a, events, -, -, hstep⟩
  · exact hf.cached t key set (he ▸ hp) (he ▸ hx) (he ▸ hg)
  have ht := Service.transition_of_step hstep
  -- the set was in somebody's hand, or was cached and the key's holder stood where it stands now
  rcases Service.cached_source ht hg with ⟨u, n, -, hu⟩ | ⟨hn, hg'⟩
  · exact hf.inHand u _ hu
  · obtain ⟨u, m, hu, hux, hm⟩ := Service.position_source ht hp hx hn
    have hpos := (hs.position u key m hu).1
    have hi : m = w.registry.index := by omega
    exact hf.cached u key set (hi ▸ hu) hux hg'

/-- A world stays fresh as long as the registry is left alone. -/
theorem Fresh.after (hf : w.Fresh) (hs : w.Sound) (h : TurnTo w turn w')
    (hk : turn.KeepsRegistry) : w'.Fresh := by
  obtain ⟨hi, hshown⟩ := h.registry hk
  constructor
  · intro i key time answer hl hp
    rw [hshown]
    exact lookupAnswer_turn hs hf h hl hp
  · intro t x hx
    rw [hshown]
    exact inHand_fresh_turn hs hf h hx
  · intro t key set hp hx hg
    rw [hi] at hp
    rw [hshown]
    exact cached_turn hs hf h hp hx hg

end World

end ServiceDiscovery
