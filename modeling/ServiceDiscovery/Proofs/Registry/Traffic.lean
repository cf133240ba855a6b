import ServiceDiscovery.Proofs.Registry.Memory
import ServiceDiscovery.Registry.Traffic

/-!
# Index and data of a shared registry

Changes write first and bump afterwards, queries read the instances first and the index afterwards,
and nobody writes in between. So an answer shows every change that was bumped before its index was
read, whatever the order of the steps. A parked query whose index has been passed sees another
version than the one it was parked at, so no wake-up is lost. Someone who waits after the index of
his last answer each time is let go whenever a change was made that this answer does not show.
-/

namespace ServiceDiscovery

namespace MemoryRegistry

/-- The instances of all services. -/
abbrev Services := Table (String × Option String) (List Entry)

/-- The services as a change leaves them. -/
def Change.effect (services : Services) : Change → Services
  | .setService name datacenter entries => services.insert (name, datacenter) entries
  | .register entry =>
    services.insert (entry.service.name, none)
      ((services.get? (entry.service.name, none)).getD [] ++ [entry])
  | .deregister name => services.erase (name, none)
  | _ => services

/-- What is written for a change is its effect. -/
theorem write_services {r r' : MemoryRegistry} {c : Change} (h : r.write c = .ok r') :
    r'.services = c.effect r.services := by
  cases c with
  | deregister name =>
    simp only [write] at h
    split at h
    · cases h
      rfl
    · cases h
  | _ =>
    cases h
    rfl

/-- A change without the lock of the data leaves the data. -/
theorem effect_of_not_locks {c : Change} (h : c.locks = false) (services : Services) :
    c.effect services = services := by
  cases c <;> first | rfl | cases h

/-- A change of the catalog. -/
inductive Change.OfCatalog : Change → Prop
  /-- The instances of a service in a datacenter are replaced. -/
  | setService (name : String) (datacenter : Option String) (entries : List Entry) :
      OfCatalog (.setService name datacenter entries)
  /-- An instance is added to its service. -/
  | register (entry : Entry) : OfCatalog (.register entry)
  /-- All instances of a service are removed. -/
  | deregister (name : String) : OfCatalog (.deregister name)

/-- Every change of the catalog advances the index. -/
theorem Change.OfCatalog.bumps {c : Change} (h : c.OfCatalog) : c.bumps = true := by
  cases h <;> rfl

private theorem write_index {r r' : MemoryRegistry} {c : Change} (h : r.write c = .ok r')
    (hc : ∀ index, c ≠ .setIndex index) : r'.index = r.index := by
  cases c with
  | setIndex index => exact absurd rfl (hc index)
  | deregister name =>
    simp only [write] at h
    split at h
    · cases h
      rfl
    · cases h
  | _ =>
    cases h
    rfl

end MemoryRegistry

namespace Traffic

open MemoryRegistry (Services)

/-- The number and kind of each written change, in the order of the writes. -/
abbrev Log := List (Nat × MemoryRegistry.Change)

variable {t t' : Traffic} {a : Action} {log : Log} {i j : Nat} {c : Caller}
  {ch : MemoryRegistry.Change}

/-! ### Transitions -/

/-- What an action does to the traffic. -/
inductive Transition (t : Traffic) : Action → Traffic → Prop
  /-- A change is called. -/
  | called (ch : MemoryRegistry.Change) :
      Transition t (.change ch) { t with changes := t.changes ++ [(ch, .writing)] }
  /-- A change is refused. -/
  | refused {j : Nat} {ch : MemoryRegistry.Change} {f : Failure}
      (hj : t.changes[j]? = some (ch, .writing)) (hr : t.registry.write ch = .error f) :
      Transition t (.moveChange j) (t.setChange j ch (.refused f))
  /-- The data of a change are written. -/
  | wrote {j : Nat} {ch : MemoryRegistry.Change} {r : MemoryRegistry} {version : Nat}
      (hj : t.changes[j]? = some (ch, .writing)) (hl : ch.locks = true → t.isRead = false)
      (hr : t.registry.write ch = .ok r) (hv : t.version ≤ version)
      (hv' : version = t.version → r.index = t.registry.index) :
      Transition t (.moveChange j)
        ({ t with registry := r, version := version }.setChange j ch
          (if ch.bumps then .bumping else .made))
  /-- The index is advanced for a change. -/
  | bumped {j : Nat} {ch : MemoryRegistry.Change} (hj : t.changes[j]? = some (ch, .bumping)) :
      Transition t (.moveChange j)
        ({ t with registry := t.registry.bump, version := t.version + 1 }.setChange j ch .made)
  /-- A query is called. -/
  | asked (q : HealthQuery) :
      Transition t (.ask q) { t with callers := t.callers ++ [.first q] }
  /-- A query is taken on: it fails, goes on to read, or is held. -/
  | admitted {i : Nat} {c : Caller} {r : MemoryRegistry} {stage : QueryStage}
      (hi : t.callers[i]? = some c) (hc : c.stage = .arriving)
      (hs : r.services = t.registry.services) (hx : r.index = t.registry.index)
      (hstage : (∃ f, stage = .answered t.now (.error f)) ∨
        c.query.options.waitIndex = none ∧ stage = .reading ∨
        ∃ index, c.query.options.waitIndex = some index ∧ stage = .checking index) :
      Transition t (.moveQuery i)
        ({ t with registry := r }.setStage i { c with taken := t.now } stage)
  /-- The index is past the one that a query waits after. -/
  | passed {i index : Nat} {c : Caller} (hi : t.callers[i]? = some c)
      (hc : c.stage = .checking index) (hx : index < t.registry.index) :
      Transition t (.moveQuery i) (t.setStage i c .reading)
  /-- The index is not past the one that a query waits after. -/
  | parked {i index : Nat} {c : Caller} (hi : t.callers[i]? = some c)
      (hc : c.stage = .checking index) (hx : t.registry.index ≤ index) :
      Transition t (.moveQuery i) (t.setStage i c (.parked index t.version))
  /-- A parked query sees that the index was set. -/
  | woken {i index seen : Nat} {c : Caller} (hi : t.callers[i]? = some c)
      (hc : c.stage = .parked index seen) (hv : seen ≠ t.version) :
      Transition t (.moveQuery i) (t.setStage i c (.checking index))
  /-- The wait of a parked query is over. -/
  | expired {i index seen : Nat} {c : Caller} (hi : t.callers[i]? = some c)
      (hc : c.stage = .parked index seen) (hd : c.deadline ≤ t.now) :
      Transition t (.moveQuery i) (t.setStage i c .reading)
  /-- The instances are read, and writers kept out from now on. -/
  | read {i : Nat} {c : Caller} (hi : t.callers[i]? = some c) (hc : c.stage = .reading) :
      Transition t (.moveQuery i) (t.setStage i c (.holding (t.registry.snapshot c.query).entries))
  /-- The index is read, and the query returns. -/
  | returned {i : Nat} {c : Caller} {entries : List Entry} (hi : t.callers[i]? = some c)
      (hc : c.stage = .holding entries) :
      Transition t (.moveQuery i)
        (t.setStage i c (.answered t.now (.ok ⟨entries, t.registry.index⟩)))
  /-- A caller who was answered asks again, after the index of the answer. -/
  | resumed {i time : Nat} {c : Caller} {answer : Answer} (hi : t.callers[i]? = some c)
      (hc : c.stage = .answered time (.ok answer)) :
      Transition t (.again i) { t with callers := t.callers.set i (c.resume answer) }
  /-- A caller whose query failed asks the same again. -/
  | retried {i time : Nat} {c : Caller} {f : Failure} (hi : t.callers[i]? = some c)
      (hc : c.stage = .answered time (.error f)) :
      Transition t (.again i) (t.setStage i c .arriving)
  /-- Time passes. -/
  | waited (millis : Nat) : Transition t (.wait millis) { t with now := t.now + millis }

private theorem transition_of_write (hj : t.changes[j]? = some (ch, .writing))
    (h : t.write j ch = some t') : Transition t (.moveChange j) t' := by
  simp only [write] at h
  split at h
  · cases h
  · next hlock =>
    have hl : ch.locks = true → t.isRead = false := by simpa using hlock
    split at h
    · next f hr =>
      cases h
      exact .refused hj hr
    · next r hr =>
      cases ch with
      | setIndex index =>
        cases h
        exact .wrote hj hl hr (Nat.le_succ _) fun he => absurd he (Nat.succ_ne_self _)
      | _ =>
        cases h
        exact .wrote hj hl hr (Nat.le_refl _) fun _ => MemoryRegistry.write_index hr nofun

private theorem transition_of_letIn (hi : t.callers[i]? = some c) (hc : c.stage = .arriving) :
    Transition t (.moveQuery i) (t.letIn i c) := by
  have hl := MemoryRegistry.letThrough_services (t.registry.count c.query)
  have hn := MemoryRegistry.count_services c.query t.registry
  refine .admitted hi hc (hl.1.trans hn.1) (hl.2.trans hn.2) ?_
  simp only [Caller.admitted]
  split
  · next f _ => exact Or.inl ⟨f, rfl⟩
  · next hw => exact Or.inr (Or.inl ⟨hw, rfl⟩)
  · next index _ hw => exact Or.inr (Or.inr ⟨index, hw, rfl⟩)

private theorem transition_of_moveQuery (hi : t.callers[i]? = some c)
    (h : t.moveQuery i c = some t') : Transition t (.moveQuery i) t' := by
  simp only [moveQuery] at h
  split at h
  · next hc =>
    cases h
    exact transition_of_letIn hi hc
  · next index hc =>
    cases h
    split
    · next hx => exact .passed hi hc hx
    · next hx => exact .parked hi hc (Nat.le_of_not_lt hx)
  · next index seen hc =>
    split at h
    · next hv =>
      cases h
      exact .woken hi hc hv
    · split at h
      · next hd =>
        cases h
        exact .expired hi hc hd
      · cases h
  · next hc =>
    cases h
    exact .read hi hc
  · next entries hc =>
    cases h
    exact .returned hi hc
  · cases h

/-- Every step is one of the transitions. -/
theorem transition_of_step (h : t.step a = some t') : Transition t a t' := by
  cases a with
  | change ch =>
    cases h
    exact .called ch
  | moveChange j =>
    obtain ⟨⟨ch, stage⟩, hj, h⟩ := Option.bind_eq_some_iff.1 h
    cases stage with
    | writing => exact transition_of_write hj h
    | bumping =>
      cases h
      exact .bumped hj
    | made | refused f => cases h
  | ask q =>
    cases h
    exact .asked q
  | moveQuery i =>
    obtain ⟨c, hi, h⟩ := Option.bind_eq_some_iff.1 h
    exact transition_of_moveQuery hi h
  | again i =>
    obtain ⟨c, hi, h⟩ := Option.bind_eq_some_iff.1 h
    obtain ⟨c', hc, h⟩ := Option.map_eq_some_iff.1 h
    cases h
    simp only [Caller.again?] at hc
    split at hc
    · next hc' =>
      cases hc
      exact .resumed hi hc'
    · next hc' =>
      cases hc
      exact .retried hi hc'
    · cases hc
  | wait millis =>
    cases h
    exact .waited millis

/-! ### What a step leaves -/

/-- The changes that an action writes. -/
def written (t : Traffic) : Action → Log
  | .moveChange j =>
    match t.changes[j]? with
    | some (ch, .writing) =>
      match t.registry.write ch with
      | .ok _ => [(j, ch)]
      | .error _ => []
    | _ => []
  | _ => []

/-- The traffic over a registry whose index is not set back, with the changes written so far. -/
inductive Reached (registry : MemoryRegistry) : Log → Traffic → Prop
  /-- Nobody uses the registry yet. -/
  | start : Reached registry [] (start registry)
  /-- An action follows. -/
  | step {log : Log} {t t' : Traffic} {a : Action} (h : Reached registry log t)
      (hs : t.step a = some t') (hi : t.registry.index ≤ t'.registry.index) :
      Reached registry (log ++ t.written a) t'

/-- Whether a change of the catalog has been made, its bump included. -/
def Made (t : Traffic) (j : Nat) (ch : MemoryRegistry.Change) : Prop :=
  t.changes[j]? = some (ch, .made) ∧ ch.OfCatalog

/-- The services after the changes of a log. -/
def effects (services : Services) (log : Log) : Services :=
  log.foldl (fun services entry => entry.2.effect services) services

/-- An answer shows the changes of a log: its instances are those that the changes leave. -/
def Shows (services : Services) (log : Log) (q : HealthQuery) (a : Answer) : Prop :=
  a.entries = (((effects services log).get? (q.service, q.options.datacenter)).getD []).filter
    (Entry.matchesTag q.tag)

/-- What a step leaves to those who take no part in it. -/
structure Later (log : Log) (t : Traffic) (log' : Log) (t' : Traffic) : Prop where
  now : t.now ≤ t'.now
  index : t.registry.index ≤ t'.registry.index
  version : t.version ≤ t'.version
  /-- The index does not move without another version. -/
  unmoved : t'.version = t.version → t'.registry.index = t.registry.index
  log : log <+: log'
  /-- A change that is made now moves the index now. -/
  made : ∀ j ch, t'.Made j ch → t.Made j ch ∨ t.registry.index < t'.registry.index
  /-- Nothing is written while someone reads. -/
  services : t.isRead = true → t'.registry.services = t.registry.services

private theorem Later.of_eq (hn : t.now ≤ t'.now) (hr : t'.registry.index = t.registry.index)
    (hs : t'.registry.services = t.registry.services) (hv : t'.version = t.version)
    (hc : t'.changes = t.changes) : Later log t (log ++ []) t' where
  now := hn
  index := Nat.le_of_eq hr.symm
  version := Nat.le_of_eq hv.symm
  unmoved _ := hr
  log := List.prefix_append log []
  made j ch h := Or.inl (by rwa [Made, ← hc])
  services _ := hs

private theorem of_setChange {j k : Nat} {ch ch' : MemoryRegistry.Change}
    {stage stage' : ChangeStage} (h : (t.setChange j ch stage).changes[k]? = some (ch', stage')) :
    k = j ∧ ch' = ch ∧ stage' = stage ∨ t.changes[k]? = some (ch', stage') := by
  simp only [setChange, List.getElem?_set] at h
  split at h
  · next he =>
    split at h
    · cases h
      exact Or.inl ⟨he.symm, rfl, rfl⟩
    · cases h
  · exact Or.inr h

private theorem made_of_setChange {j k : Nat} {ch ch' : MemoryRegistry.Change}
    {stage : ChangeStage} {r : MemoryRegistry} {v : Nat}
    (h : Made ({ t with registry := r, version := v }.setChange j ch stage) k ch') :
    t.Made k ch' ∨ (stage = .made ∧ ch.bumps = true) := by
  obtain ⟨hk, hb⟩ := h
  rcases of_setChange hk with ⟨-, rfl, hs⟩ | hk
  · exact Or.inr ⟨hs.symm, hb.bumps⟩
  · exact Or.inl ⟨hk, hb⟩

/-- A transition that does not set the index back leaves time, versions and log no further back
either, and what is read. -/
theorem later_of_transition (h : Transition t a t') (hi : t.registry.index ≤ t'.registry.index) :
    Later log t (log ++ t.written a) t' := by
  have hsub : log <+: log ++ t.written a := List.prefix_append log _
  cases h with
  | called ch =>
    refine ⟨Nat.le_refl _, Nat.le_refl _, Nat.le_refl _, fun _ => rfl, hsub, ?_, fun _ => rfl⟩
    rintro j ch' ⟨hj, hb⟩
    rw [List.getElem?_append] at hj
    split at hj
    · exact Or.inl ⟨hj, hb⟩
    · rw [List.getElem?_singleton] at hj
      split at hj <;> cases hj
  | refused hj hr =>
    refine ⟨Nat.le_refl _, Nat.le_refl _, Nat.le_refl _, fun _ => rfl, hsub, ?_, fun _ => rfl⟩
    intro k ch' hk
    refine Or.inl ((made_of_setChange (r := t.registry) (v := t.version) hk).resolve_right ?_)
    rintro ⟨hs, -⟩
    cases hs
  | @wrote j ch r version hj hl hr hv hv' =>
    refine ⟨Nat.le_refl _, hi, hv, hv', hsub, ?_, fun hread => ?_⟩
    · intro k ch' hk
      refine Or.inl ((made_of_setChange hk).resolve_right ?_)
      rintro ⟨hs, hb⟩
      rw [if_pos hb] at hs
      cases hs
    · have hl' : ch.locks = false := by
        refine Bool.eq_false_iff.2 fun hlock => ?_
        rw [hl hlock] at hread
        cases hread
      exact (MemoryRegistry.write_services hr).trans (MemoryRegistry.effect_of_not_locks hl' _)
  | @bumped j ch hj =>
    have hlt : t.registry.index < t.registry.bump.index :=
      Nat.lt_of_le_of_ne hi t.registry.index_bump_ne.symm
    refine ⟨Nat.le_refl _, hi, Nat.le_succ _, fun hv => ?_, hsub, fun _ _ _ => Or.inr hlt,
      fun _ => rfl⟩
    exact absurd hv (Nat.succ_ne_self _)
  | waited millis => exact .of_eq (Nat.le_add_right _ _) rfl rfl rfl rfl
  | admitted _ _ hs hx _ => exact .of_eq (Nat.le_refl _) hx hs rfl rfl
  | _ => exact .of_eq (Nat.le_refl _) rfl rfl rfl rfl

/-! ### Callers -/

/-- An answer shows all changes that were bumped before the index is past its own. -/
def Kept (services : Services) (log : Log) (t : Traffic) (q : HealthQuery) (a : Answer) : Prop :=
  a.index ≤ t.registry.index ∧
    ∃ shown, shown <+: log ∧ Shows services shown q a ∧
      ∀ j ch, t.Made j ch → (j, ch) ∈ shown ∨ a.index < t.registry.index

/-- What holds of a caller at every stage of his query. -/
structure Caller.Sound (services : Services) (log : Log) (t : Traffic) (c : Caller) : Prop where
  /-- What was answered before is kept, and is what the present query waits after. -/
  last : ∀ a, c.last = some a →
    Kept services log t c.query a ∧ c.query.options.waitIndex = some a.index
  checking : ∀ index, c.stage = .checking index → c.query.options.waitIndex = some index
  /-- A query that is parked has not missed a move of the index. -/
  parked : ∀ index seen, c.stage = .parked index seen →
    c.query.options.waitIndex = some index ∧
      (seen = t.version → t.registry.index ≤ index) ∧ seen ≤ t.version
  /-- A query reads when the index is past its own or its wait is over. -/
  reading : (c.stage = .reading ∨ c.isHolding = true) → ∀ index,
    c.query.options.waitIndex = some index → index < t.registry.index ∨ c.deadline ≤ t.now
  /-- What was read is what is there. -/
  holding : ∀ entries, c.stage = .holding entries →
    entries = (t.registry.snapshot c.query).entries
  answered : ∀ time a, c.stage = .answered time (.ok a) →
    Kept services log t c.query a ∧
      ∀ index, c.query.options.waitIndex = some index → time < c.deadline → index < a.index

variable {services : Services} {log' : Log} {q : HealthQuery} {answer : Answer}

private theorem Kept.later (h : Kept services log t q answer) (hl : Later log t log' t') :
    Kept services log' t' q answer := by
  obtain ⟨hle, shown, hp, hs, hm⟩ := h
  refine ⟨Nat.le_trans hle hl.index, shown, hp.trans hl.log, hs, fun j ch hj => ?_⟩
  rcases hl.made j ch hj with hj | hlt
  · exact (hm j ch hj).imp_right fun hlt => Nat.lt_of_lt_of_le hlt hl.index
  · exact Or.inr (Nat.lt_of_le_of_lt hle hlt)

/-- A caller who takes no part in a step stays sound. -/
theorem Caller.Sound.later (h : c.Sound services log t) (hl : Later log t log' t')
    (hc : c.isHolding = true → t.isRead = true) : c.Sound services log' t' where
  last a ha := ⟨(h.last a ha).1.later hl, (h.last a ha).2⟩
  checking := h.checking
  parked index seen hp := by
    obtain ⟨hw, hx, hv⟩ := h.parked index seen hp
    refine ⟨hw, fun he => ?_, Nat.le_trans hv hl.version⟩
    -- The version is the one that was seen, so it is also the one before the step.
    have hsame : t'.version = t.version := Nat.le_antisymm (he ▸ hv) hl.version
    rw [hl.unmoved hsame]
    exact hx (he.trans hsame)
  reading hr index hw :=
    (h.reading hr index hw).imp (fun hx => Nat.lt_of_lt_of_le hx hl.index)
      fun hd => Nat.le_trans hd hl.now
  holding entries he := by
    have hread : t.isRead = true := hc (by rw [isHolding, he])
    rw [h.holding entries he]
    simp only [MemoryRegistry.snapshot, MemoryRegistry.entries, hl.services hread]
  answered time a ha := ⟨(h.answered time a ha).1.later hl, (h.answered time a ha).2⟩

private theorem Caller.sound_first (q : HealthQuery) : (Caller.first q).Sound services log t where
  last _ ha := by cases ha
  checking _ hs := by cases hs
  parked _ _ hs := by cases hs
  reading hs := by rcases hs with hs | hs <;> cases hs
  holding _ hs := by cases hs
  answered _ _ hs := by cases hs

/-- The log tells what was written. -/
structure Recorded (services : Services) (log : Log) (t : Traffic) : Prop where
  data : t.registry.services = effects services log
  /-- Every change whose data are written is in the log. -/
  changes : ∀ j ch stage, t.changes[j]? = some (ch, stage) → stage = .bumping ∨ stage = .made →
    ch.bumps = true → (j, ch) ∈ log

private theorem Recorded.kept (h : Recorded services log t) (q : HealthQuery) :
    Kept services log t q (t.registry.snapshot q) := by
  refine ⟨Nat.le_refl _, log, List.prefix_refl log, ?_, fun j ch hj => ?_⟩
  · simp only [Shows, MemoryRegistry.snapshot, MemoryRegistry.entries, h.data]
  · exact Or.inl (h.changes j ch .made hj.1 (Or.inr rfl) hj.2.bumps)

private theorem Caller.Sound.moved {c' : Caller} (h : c.Sound services log t)
    (hr : Recorded services log t) (hi : t.callers[i]? = some c)
    (ht : Transition t (.moveQuery i) t') (hc' : t'.callers[i]? = some c') :
    c'.Sound services log t' := by
  have hlen : i < t.callers.length := (List.getElem?_eq_some_iff.1 hi).1
  have hself (d : Caller) : (t.callers.set i d)[i]? = some d := List.getElem?_set_self hlen
  cases ht with
  | @admitted _ c₀ r stage hi₀ hc hs hx hstage =>
    cases hi.symm.trans hi₀
    cases (hself _).symm.trans hc'
    have hl : Later log t (log ++ []) { t with registry := r } :=
      .of_eq (Nat.le_refl _) hx hs rfl rfl
    rw [List.append_nil] at hl
    have hnot : c.isHolding = true → t.isRead = true := fun hh => by simp [isHolding, hc] at hh
    have hlast := (h.later hl hnot).last
    rcases hstage with ⟨f, rfl⟩ | ⟨hw, rfl⟩ | ⟨index, hw, rfl⟩
    · refine ⟨hlast, nofun, nofun, ?_, nofun, nofun⟩
      rintro (hr | hr) <;> cases hr
    · refine ⟨hlast, nofun, nofun, ?_, nofun, nofun⟩
      intro _ index hindex
      cases hw.symm.trans hindex
    · refine ⟨hlast, ?_, nofun, ?_, nofun, nofun⟩
      · intro _ he
        cases he
        exact hw
      · rintro (hr | hr) <;> cases hr
  | @passed _ index c₀ hi₀ hc hx =>
    cases hi.symm.trans hi₀
    cases (hself _).symm.trans hc'
    refine ⟨h.last, nofun, nofun, ?_, nofun, nofun⟩
    intro _ k hk
    cases (h.checking index hc).symm.trans hk
    exact Or.inl hx
  | @parked _ index c₀ hi₀ hc hx =>
    cases hi.symm.trans hi₀
    cases (hself _).symm.trans hc'
    refine ⟨h.last, nofun, ?_, ?_, nofun, nofun⟩
    · intro k seen he
      cases he
      exact ⟨h.checking index hc, fun _ => hx, Nat.le_refl _⟩
    · rintro (hr | hr) <;> cases hr
  | @woken _ index seen c₀ hi₀ hc hv =>
    cases hi.symm.trans hi₀
    cases (hself _).symm.trans hc'
    refine ⟨h.last, ?_, nofun, ?_, nofun, nofun⟩
    · intro k he
      cases he
      exact (h.parked index seen hc).1
    · rintro (hr | hr) <;> cases hr
  | @expired _ index seen c₀ hi₀ hc hd =>
    cases hi.symm.trans hi₀
    cases (hself _).symm.trans hc'
    exact ⟨h.last, nofun, nofun, fun _ _ _ => Or.inr hd, nofun, nofun⟩
  | @read _ c₀ hi₀ hc =>
    cases hi.symm.trans hi₀
    cases (hself _).symm.trans hc'
    refine ⟨h.last, nofun, nofun, fun _ => h.reading (Or.inl hc), ?_, nofun⟩
    intro entries he
    cases he
    rfl
  | @returned _ c₀ entries hi₀ hc =>
    cases hi.symm.trans hi₀
    cases (hself _).symm.trans hc'
    refine ⟨h.last, nofun, nofun, ?_, nofun, ?_⟩
    · rintro (hr | hr) <;> cases hr
    · intro time a he
      cases he
      have hread : c.isHolding = true := by simp [isHolding, hc]
      refine ⟨?_, fun index hw hlt => ?_⟩
      · rw [h.holding entries hc]
        exact hr.kept c.query
      · exact (h.reading (Or.inr hread) index hw).resolve_right (Nat.not_le_of_lt hlt)

private theorem Caller.Sound.resumed {time : Nat} (h : c.Sound services log t)
    (hc : c.stage = .answered time (.ok answer)) (callers : List Caller) :
    (c.resume answer).Sound services log { t with callers := callers } where
  last a ha := by
    cases ha
    obtain ⟨⟨hle, shown, hp, hs, hm⟩, -⟩ := h.answered time answer hc
    exact ⟨⟨hle, shown, hp, hs, hm⟩, rfl⟩
  checking _ hs := by cases hs
  parked _ _ hs := by cases hs
  reading hs := by rcases hs with hs | hs <;> cases hs
  holding _ hs := by cases hs
  answered _ _ hs := by cases hs

private theorem recorded_of_transition (h : Recorded services log t) (ht : Transition t a t') :
    Recorded services (log ++ t.written a) t' := by
  have hsame {t' : Traffic} {a : Action} (hs : t'.registry.services = t.registry.services)
      (hw : t.written a = [])
      (hc : ∀ j ch stage, t'.changes[j]? = some (ch, stage) → stage = .bumping ∨ stage = .made →
        ch.bumps = true → (j, ch) ∈ log) : Recorded services (log ++ t.written a) t' := by
    rw [hw, List.append_nil]
    exact ⟨hs.trans h.data, hc⟩
  cases ht with
  | called ch =>
    refine hsame rfl rfl fun j ch' stage hj hst hb => ?_
    rw [List.getElem?_append] at hj
    split at hj
    · exact h.changes j ch' stage hj hst hb
    · rw [List.getElem?_singleton] at hj
      split at hj
      · cases hj
        rcases hst with hst | hst <;> cases hst
      · cases hj
  | @refused j ch f hj hr =>
    refine hsame rfl (by simp [written, hj, hr]) fun k ch' stage hk hst hb => ?_
    rcases of_setChange hk with ⟨-, -, rfl⟩ | hk
    · rcases hst with hst | hst <;> cases hst
    · exact h.changes k ch' stage hk hst hb
  | @wrote j ch r version hj hl hr hv hv' =>
    have hw : t.written (.moveChange j) = [(j, ch)] := by simp [written, hj, hr]
    rw [hw]
    constructor
    · rw [effects, List.foldl_append]
      exact (MemoryRegistry.write_services hr).trans (congrArg ch.effect h.data)
    · intro k ch' stage hk hst hb
      rcases of_setChange hk with ⟨rfl, rfl, -⟩ | hk
      · exact List.mem_append_right log (List.mem_singleton_self _)
      · exact List.mem_append_left _ (h.changes k ch' stage hk hst hb)
  | @bumped j ch hj =>
    refine hsame rfl (by simp [written, hj]) fun k ch' stage hk hst hb => ?_
    rcases of_setChange hk with ⟨rfl, rfl, -⟩ | hk
    · exact h.changes k ch' .bumping hj (Or.inl rfl) hb
    · exact h.changes k ch' stage hk hst hb
  | admitted _ _ hs _ _ => exact hsame hs rfl h.changes
  | _ => exact hsame rfl rfl h.changes

private theorem caller_of_transition (ht : Transition t a t') {k : Nat} (hq : a ≠ .moveQuery k)
    (hg : a ≠ .again k) :
    t'.callers[k]? = t.callers[k]? ∨
      t.callers[k]? = none ∧ ∃ q, t'.callers[k]? = some (.first q) := by
  cases ht with
  | asked q =>
    rcases Nat.lt_trichotomy k t.callers.length with hk | rfl | hk
    · exact Or.inl (List.getElem?_append_left hk)
    · exact Or.inr ⟨List.getElem?_eq_none (Nat.le_refl _), q, List.getElem?_concat_length⟩
    · have hlen : (t.callers ++ [Caller.first q]).length ≤ k := by
        rw [List.length_append]
        exact hk
      exact Or.inl ((List.getElem?_eq_none hlen).trans
        (List.getElem?_eq_none (Nat.le_of_lt hk)).symm)
  | admitted _ _ _ _ _ | passed _ _ _ | parked _ _ _ | woken _ _ _ | expired _ _ _ | read _ _
  | returned _ _ =>
    exact Or.inl (List.getElem?_set_ne fun he => hq (congrArg Action.moveQuery he))
  | resumed _ _ | retried _ _ =>
    exact Or.inl (List.getElem?_set_ne fun he => hg (congrArg Action.again he))
  | _ => exact Or.inl rfl

private theorem caller_of_moveQuery {k : Nat} (ht : Transition t (.moveQuery k) t') :
    ∃ c, t.callers[k]? = some c := by
  cases ht with
  | admitted hi _ _ _ _ | passed hi _ _ | parked hi _ _ | woken hi _ _ | expired hi _ _
  | read hi _ | returned hi _ => exact ⟨_, hi⟩

private theorem sound_again {k : Nat} {d : Caller}
    (hs : ∀ (i : Nat) (c : Caller), t.callers[i]? = some c → c.Sound services log t)
    (ht : Transition t (.again k) t') (hk : t'.callers[k]? = some d) : d.Sound services log t' := by
  cases ht with
  | @resumed _ time c answer hi hc =>
    have hlen : k < t.callers.length := (List.getElem?_eq_some_iff.1 hi).1
    cases (List.getElem?_set_self hlen).symm.trans hk
    exact (hs k c hi).resumed hc _
  | @retried _ time c f hi hc =>
    have hlen : k < t.callers.length := (List.getElem?_eq_some_iff.1 hi).1
    cases (List.getElem?_set_self hlen).symm.trans hk
    refine ⟨(hs k c hi).last, nofun, nofun, ?_, nofun, nofun⟩
    rintro (hr | hr) <;> cases hr

private theorem callers_of_transition (hr : Recorded services log t)
    (hs : ∀ (i : Nat) (c : Caller), t.callers[i]? = some c → c.Sound services log t)
    (ht : Transition t a t') (hx : t.registry.index ≤ t'.registry.index) (k : Nat) (d : Caller)
    (hk : t'.callers[k]? = some d) : d.Sound services (log ++ t.written a) t' := by
  have hl : Later log t (log ++ t.written a) t' := later_of_transition ht hx
  by_cases hq : a = .moveQuery k
  · subst hq
    obtain ⟨c, hi⟩ := caller_of_moveQuery ht
    rw [show t.written (.moveQuery k) = [] from rfl, List.append_nil]
    exact (hs k c hi).moved hr hi ht hk
  by_cases hg : a = .again k
  · subst hg
    rw [show t.written (.again k) = [] from rfl, List.append_nil]
    exact sound_again hs ht hk
  rcases caller_of_transition ht hq hg with hsame | ⟨-, q, hfirst⟩
  · rw [hsame] at hk
    refine (hs k d hk).later hl fun hh => ?_
    exact List.any_eq_true.2 ⟨d, List.mem_of_getElem? hk, hh⟩
  · cases hfirst.symm.trans hk
    exact Caller.sound_first q

/-- In every traffic the log is right and every caller sound. -/
theorem Reached.sound {registry : MemoryRegistry} (h : Reached registry log t) :
    Recorded registry.services log t ∧
      ∀ (i : Nat) (c : Caller), t.callers[i]? = some c → c.Sound registry.services log t := by
  induction h with
  | start =>
    refine ⟨⟨rfl, fun j ch stage hj => ?_⟩, fun i c hi => ?_⟩
    · simp [Traffic.start] at hj
    · simp [Traffic.start] at hi
  | @step log t t' a _ hs hi ih =>
    have ht := transition_of_step hs
    exact ⟨recorded_of_transition ih.1 ht, callers_of_transition ih.1 ih.2 ht hi⟩

/-! ### Queries that go on -/

/-- How many steps a query may take to its answer if nothing holds it. -/
def QueryStage.stepsLeft : QueryStage → Nat
  | .arriving => 5
  | .parked _ _ => 4
  | .checking _ => 3
  | .reading => 2
  | .holding _ => 1
  | .answered _ _ => 0

/-- A query whose index has been passed can take a step, and has less to do after it. -/
theorem Caller.Sound.goes_on {index : Nat} (h : c.Sound services log t)
    (hi : t.callers[i]? = some c) (hw : c.query.options.waitIndex = some index)
    (hx : index < t.registry.index) (hc : 0 < c.stage.stepsLeft) :
    ∃ t' c', t.step (.moveQuery i) = some t' ∧ t'.callers[i]? = some c' ∧
      c'.query = c.query ∧ t'.registry.index = t.registry.index ∧
      c'.stage.stepsLeft < c.stage.stepsLeft := by
  have hlen : i < t.callers.length := (List.getElem?_eq_some_iff.1 hi).1
  have hself (d : Caller) : (t.callers.set i d)[i]? = some d := List.getElem?_set_self hlen
  have hstep : t.step (.moveQuery i) = t.moveQuery i c := by simp [step, hi]
  rw [hstep, moveQuery]
  cases hs : c.stage with
  | arriving =>
    refine ⟨_, _, rfl, hself _, rfl, ?_, ?_⟩
    · exact (MemoryRegistry.letThrough_services _).2.trans (MemoryRegistry.count_services _ _).2
    · simp only [Caller.admitted]
      split <;> simp [QueryStage.stepsLeft]
  | checking k =>
    cases (h.checking k hs).symm.trans hw
    refine ⟨_, _, rfl, hself _, rfl, rfl, ?_⟩
    rw [if_pos hx]
    exact Nat.lt_succ_self _
  | parked k seen =>
    obtain ⟨hk, hmissed, -⟩ := h.parked k seen hs
    cases hk.symm.trans hw
    have hv : seen ≠ t.version := fun he => Nat.not_le_of_lt hx (hmissed he)
    refine ⟨_, _, if_pos hv, hself _, rfl, rfl, Nat.lt_succ_self _⟩
  | reading => exact ⟨_, _, rfl, hself _, rfl, rfl, Nat.lt_succ_self _⟩
  | holding entries => exact ⟨_, _, rfl, hself _, rfl, rfl, Nat.lt_succ_self _⟩
  | answered time result =>
    rw [hs] at hc
    cases hc

/-- A query whose index has been passed comes to its answer by its own steps. -/
theorem Reached.answers {registry : MemoryRegistry} (h : Reached registry log t) {index : Nat}
    (hi : t.callers[i]? = some c) (hw : c.query.options.waitIndex = some index)
    (hx : index < t.registry.index) :
    ∃ n t' c' time result, n ≤ c.stage.stepsLeft ∧
      t.run (List.replicate n (.moveQuery i)) = some t' ∧ t'.callers[i]? = some c' ∧
      c'.stage = .answered time result := by
  -- By induction on what the query has still to do, which each of its steps makes less.
  induction hn : c.stage.stepsLeft using Nat.strongRecOn generalizing log t c with
  | ind n ih =>
    subst hn
    rcases Nat.eq_zero_or_pos c.stage.stepsLeft with h0 | hpos
    · cases hs : c.stage with
      | answered time result => exact ⟨0, t, c, time, result, Nat.zero_le _, rfl, hi, hs⟩
      | _ =>
        rw [hs] at h0
        cases h0
    · obtain ⟨t₁, c₁, hstep, hi₁, hq, hindex, hless⟩ := (h.sound.2 i c hi).goes_on hi hw hx hpos
      obtain ⟨n, t', c', time, result, hle, hrun, hi', hs⟩ :=
        ih _ hless (h.step hstep (Nat.le_of_eq hindex.symm)) hi₁ (hq ▸ hw) (hindex ▸ hx) rfl
      refine ⟨n + 1, t', c', time, result, Nat.lt_of_le_of_lt hle hless, ?_, hi', hs⟩
      rw [List.replicate_succ, run, hstep]
      exact hrun

/-- Whether no action of a list sets the index back. -/
def isForward (t : Traffic) : List Action → Bool
  | [] => true
  | a :: rest =>
    (t.step a).all fun u => decide (t.registry.index ≤ u.registry.index) && u.isForward rest

/-- The log after a list of actions. -/
def logAfter (t : Traffic) (log : Log) : List Action → Log
  | [] => log
  | a :: rest => ((t.step a).map fun t' => logAfter t' (log ++ t.written a) rest).getD log

/-- A list of actions that does not set the index back leads from the traffic over a registry to
traffic over it. -/
theorem Reached.run {registry : MemoryRegistry} {actions : List Action}
    (h : Reached registry log t) (hf : t.isForward actions = true)
    (hr : t.run actions = some t') : Reached registry (t.logAfter log actions) t' := by
  induction actions generalizing t log with
  | nil =>
    cases hr
    exact h
  | cons a rest ih =>
    obtain ⟨u, hs, hr⟩ := Option.bind_eq_some_iff.1 hr
    obtain ⟨hi, hf⟩ : t.registry.index ≤ u.registry.index ∧ u.isForward rest = true := by
      simpa [isForward, hs] using hf
    rw [logAfter, hs]
    exact ih (h.step hs hi) hf hr

/-- A change that sets the instances of a service to one. -/
def moveTo (address : String) : MemoryRegistry.Change :=
  .setService "api" none [.ofAddress "api" address 80]

/-- A caller is answered at the largest index, asks again and is parked. Then a change is written
and bumped, and the caller, who is let go, finds the index not past his own. -/
def overtaking : List Action :=
  let ask : HealthQuery := ⟨"api", none, none, none, none, false⟩
  [.change (moveTo "10.0.0.1"), .moveChange 0, .moveChange 0,
    .change (.setIndex 18446744073709551615), .moveChange 1,
    .ask ask, .moveQuery 0, .moveQuery 0, .moveQuery 0, .again 0, .moveQuery 0, .moveQuery 0,
    .change (moveTo "10.0.0.2"), .moveChange 2, .moveChange 2, .moveQuery 0, .moveQuery 0]

/-- The traffic when the caller is parked again. -/
def overtaken : Traffic := ((start .empty).run overtaking).getD (start .empty)

end Traffic

end ServiceDiscovery
