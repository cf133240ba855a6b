import ServiceDiscovery.Proofs.Simulation.Sound

/-!
# Origins of cached sets

At which index of the registry a cached set was shown, and who stored it. A watcher and the lookup
that won the claim never replace a set by an older one of theirs. A lookup that has not won the
claim stores what it was answered whatever is cached, so a set can go back to an older index: at
once, if the lookup is late, and at the watcher's next store, if the lookup was ahead.
-/

namespace ServiceDiscovery

/-- Where a cached set comes from: the newest answer of those stored that show it. -/
structure Origin where
  /-- The index of the answer. -/
  index : Nat
  /-- Whether a lookup has stored the answer without winning the claim of its key. -/
  unclaimed : Bool

/-- A world with a record of where its cached sets come from. -/
structure Trace (ρ : Type) where
  world : World MemoryRegistry ρ
  /-- The index of the answer that each task was given last. -/
  answered : Task → Nat
  /-- Where the cached set of a key comes from; none if there is no set. -/
  origins : Key → Option Origin

namespace World

variable {ρ : Type}

/-- The answer that the registry has for a task at its turn, if it has one. -/
def answerFor? (w : World MemoryRegistry ρ) : Task → Option Answer
  | .lookup i =>
    ((w.lookupQueries.get? i).bind fun p => w.registry.answer? w.now p).bind Except.toOption
  | .watcher j =>
    ((w.watchQueries.get? j).bind fun p => w.registry.answer? w.now p).bind Except.toOption

private theorem answerFor?_lookup {w : World MemoryRegistry ρ} {i : Nat} {answer : Answer}
    (h : w.Gives (.answerLookup i (.ok answer))) : w.answerFor? (.lookup i) = some answer := by
  obtain ⟨p, hq, ha⟩ := h
  rw [answerFor?, hq, Option.bind_some, ha]
  rfl

private theorem answerFor?_watcher {w : World MemoryRegistry ρ} {j : Nat} {answer : Answer}
    (h : w.Gives (.answerWatcher j (.ok answer))) : w.answerFor? (.watcher j) = some answer := by
  obtain ⟨p, hq, ha⟩ := h
  rw [answerFor?, hq, Option.bind_some, ha]
  rfl

private theorem Sound.answerFor?_eq_none {w : World MemoryRegistry ρ} (hs : w.Sound) {t : Task}
    {x : Finding} (hx : w.service.inHand? t = some x) : w.answerFor? t = none := by
  cases t with
  | lookup i =>
    have hl := Service.lookup_of_inHand? hx
    cases hq : w.lookupQueries.get? i with
    | none => rw [answerFor?, hq]; rfl
    | some p =>
      obtain ⟨key, -, -, hl', -⟩ := hs.lookupQuery i p hq
      rw [hl] at hl'
      cases hl'
  | watcher j =>
    obtain ⟨cursor, hw, -⟩ := Service.watcher_of_inHand? hx
    cases hq : w.watchQueries.get? j with
    | none => rw [answerFor?, hq]; rfl
    | some p =>
      obtain ⟨key, cursor', hw', -⟩ := hs.watchQuery j p hq
      rw [hw] at hw'
      cases hw'

private theorem TurnTo.step_of_inHand? {w w' : World MemoryRegistry ρ} {turn : Turn ρ}
    (h : TurnTo w turn w') {t : Task} (ht : turn.task? = some t) {x : Finding}
    (hx : w.service.inHand? t = some x) :
    ∃ events, w.service.step t.action = some (w'.service, events) := by
  have hstored {a : Action ρ} {s : Service ρ} {events : List (Event ρ)} (ha : a.task? = some t)
      (hs : w.service.step a = some (s, events)) : a = t.action :=
    (Service.stored_of_inHand? (Service.transition_of_step hs) ha hx).1
  cases h with
  | @acted _ a _ events _ ha hs =>
    have he := hstored ((Turn.ne_of_action? ha).1.trans ht) hs
    exact ⟨events, he ▸ hs⟩
  | lookupAsked hl _ =>
    cases ht
    rw [Service.lookup_of_inHand? hx] at hl
    cases hl
  | watcherAsked hw _ | pauseBegun hw _ =>
    cases ht
    obtain ⟨cursor, hw', -⟩ := Service.watcher_of_inHand? hx
    rw [hw] at hw'
    cases hw'
  | lookupAnswered _ _ hs | watcherAnswered _ _ hs | watcherCrashed _ hs | watcherRecalled hs
  | watcherRoused _ hs | pauseEnded hs =>
    cases ht
    cases hstored rfl hs
  | wrote _ _ | bumped _ | waited _ => cases ht

end World

namespace Trace

variable {ρ : Type}

/-- A record in which nothing is cached. -/
def start (w : World MemoryRegistry ρ) : Trace ρ := ⟨w, fun _ => 0, fun _ => none⟩

/-- Whether what a task has in hand is a lookup's finding for a key that is watched already. -/
def isUnclaimed (tr : Trace ρ) (key : Key) : Task → Bool
  | .lookup _ => tr.world.service.cache.isWatched key
  | .watcher _ => false

/-- What a turn stores, and where it comes from. -/
def stored? (tr : Trace ρ) (turn : Turn ρ) : Option (Finding × Origin) :=
  turn.task?.bind fun t => (tr.world.service.inHand? t).map fun x =>
    (x, ⟨tr.answered t, tr.isUnclaimed x.key t⟩)

/-- Whether what is stored is another set than the cached one, or the same set from a newer
answer. -/
def Supersedes (tr : Trace ρ) (x : Finding) (o : Origin) : Prop :=
  tr.world.service.cache.get? x.key ≠ some x.set ∨
    ∀ old, tr.origins x.key = some old → old.index < o.index

instance (tr : Trace ρ) (x : Finding) (o : Origin) : Decidable (tr.Supersedes x o) :=
  inferInstanceAs (Decidable (_ ∨ ∀ old, tr.origins x.key = some old → old.index < o.index))

/-- The origin of a key's set after a turn that leaves a set of the key in the cache. -/
def originAfter (tr : Trace ρ) (turn : Turn ρ) (key : Key) : Option Origin :=
  match tr.stored? turn with
  | some (x, o) => if x.key = key ∧ tr.Supersedes x o then some o else tr.origins key
  | none => tr.origins key

/-- The record after a turn that leads to a world. -/
def next (tr : Trace ρ) (turn : Turn ρ) (w : World MemoryRegistry ρ) : Trace ρ where
  world := w
  answered t :=
    if turn.task? = some t then ((tr.world.answerFor? t).map Answer.index).getD (tr.answered t)
    else tr.answered t
  origins key := if (w.service.cache.get? key).isSome then tr.originAfter turn key else none

/-- The records of all runs, over a registry whose index only moves forward. -/
inductive Reached : Trace ρ → Prop
  /-- A service has just been started over a registry. -/
  | start {registry : MemoryRegistry} (hr : 0 < registry.index) (tag : Option String)
      (address : String) (agent : Agent) (watch : WatchConfig) :
      Reached (.start (.start registry tag (.start address agent watch)))
  /-- A turn follows. -/
  | turn {tr : Trace ρ} {turn : Turn ρ} {w : World MemoryRegistry ρ} (h : Reached tr)
      (ht : tr.world.turn? turn = some w) : Reached (tr.next turn w)

/-- What holds of the records of all runs. -/
structure Dated (tr : Trace ρ) : Prop where
  sound : tr.world.Sound
  /-- What a task has in hand, it has from its last answer. -/
  inHand : ∀ t x, tr.world.service.inHand? t = some x → tr.answered t = x.index
  /-- The cached sets are those with an origin. -/
  cached : ∀ key, (tr.origins key).isSome = (tr.world.service.cache.get? key).isSome
  /-- The task that holds a key stands at the index of the cached set or past it, unless a lookup
  that has not won the claim has stored the set. -/
  position : ∀ t key n o, tr.world.service.position? t = some (key, n) →
    tr.origins key = some o → o.unclaimed = false → o.index ≤ n

section

variable {tr : Trace ρ} {turn : Turn ρ} {w : World MemoryRegistry ρ}

/-- What a task has in hand after a turn, it has from its last answer. -/
theorem Dated.inHand_next (h : tr.Dated) (ht : World.TurnTo tr.world turn w) (t : Task)
    (x : Finding) (hx : w.service.inHand? t = some x) :
    (tr.next turn w).answered t = x.index := by
  have hkept (hx : tr.world.service.inHand? t = some x) :
      (tr.next turn w).answered t = x.index := by
    simp only [next, h.sound.answerFor?_eq_none hx, Option.map_none, Option.getD_none, ite_self]
    exact h.inHand t x hx
  have hgiven {answer : Answer} (htask : turn.task? = some t)
      (ha : tr.world.answerFor? t = some answer) :
      (tr.next turn w).answered t = answer.index := by
    simp only [next, htask, ha, if_pos, Option.map_some, Option.getD_some]
  rcases ht.service with he | ⟨a, events, htask, hg, hstep⟩
  · exact hkept (he ▸ hx)
  cases Service.findingSource_of_transition (Service.transition_of_step hstep) hx with
  | kept hx' => exact hkept hx'
  | @found i answer hi ha hl he =>
    subst hi ha
    rw [hgiven htask.symm (World.answerFor?_lookup hg)]
    exact congrArg Prod.snd he
  | @observed j cursor answer hj ha hw _ hn =>
    subst hj ha
    rw [hgiven htask.symm (World.answerFor?_watcher hg), hn,
      h.sound.waitIndex_recordSuccess hw hg]
    exact congrArg Prod.snd (h.sound.answer_watcher hw hg)

/-- A turn that stores something is the turn of a task that has it in hand. -/
theorem inHand?_of_stored? {x : Finding} {o : Origin} (h : tr.stored? turn = some (x, o)) :
    ∃ t, turn = .task t ∧ tr.world.service.inHand? t = some x ∧
      o = ⟨tr.answered t, tr.isUnclaimed x.key t⟩ := by
  obtain ⟨t, ht, h⟩ := Option.bind_eq_some_iff.1 h
  obtain ⟨y, hy, he⟩ := Option.map_eq_some_iff.1 h
  cases he
  refine ⟨t, ?_, hy, rfl⟩
  cases turn <;> cases ht
  rfl

/-- A task with something in hand stores it at its turn. -/
theorem stored?_of_inHand? {t : Task} {x : Finding} (ht : turn.task? = some t)
    (hx : tr.world.service.inHand? t = some x) :
    tr.stored? turn = some (x, ⟨tr.answered t, tr.isUnclaimed x.key t⟩) := by
  rw [stored?, ht, Option.bind_some, hx, Option.map_some]

/-- The origin of a set after a turn is what the turn stores, or it was there before and is not
superseded. -/
theorem origin_source {key : Key} {o : Origin} (h : (tr.next turn w).origins key = some o) :
    (∃ x, tr.stored? turn = some (x, o) ∧ x.key = key ∧ tr.Supersedes x o) ∨
      (∀ x o', tr.stored? turn = some (x, o') → x.key = key → ¬ tr.Supersedes x o') ∧
        tr.origins key = some o := by
  simp only [next] at h
  split at h
  · simp only [originAfter] at h
    split at h
    · next x o' hs =>
      split at h
      · next hk =>
        cases h
        exact Or.inl ⟨x, hs, hk⟩
      · next hk =>
        refine Or.inr ⟨fun y o'' he hy hsup => hk ?_, h⟩
        rw [hs] at he
        cases he
        exact ⟨hy, hsup⟩
    · next hs =>
      refine Or.inr ⟨fun x o' he => ?_, h⟩
      rw [hs] at he
      cases he
  · cases h

/-- What is not superseded is cached. -/
theorem get?_of_not_supersedes {x : Finding} {o : Origin} (h : ¬ tr.Supersedes x o) :
    tr.world.service.cache.get? x.key = some x.set :=
  Decidable.byContradiction fun hne => h (Or.inl hne)

/-- A key with an origin is watched. -/
theorem Dated.mem_watching (h : tr.Dated) {key : Key} {o : Origin} (ho : tr.origins key = some o) :
    key ∈ tr.world.service.cache.watching := by
  have hsome : (tr.world.service.cache.get? key).isSome := by rw [← h.cached, ho]; rfl
  obtain ⟨set, hg⟩ := Option.isSome_iff_exists.1 hsome
  exact h.sound.reached.mem_watching_of_get? hg

/-- After a turn the cached sets are those with an origin. -/
theorem Dated.cached_next (h : tr.Dated) (ht : World.TurnTo tr.world turn w) (key : Key) :
    ((tr.next turn w).origins key).isSome = (w.service.cache.get? key).isSome := by
  have hold {set : EndpointSet} (hg : tr.world.service.cache.get? key = some set) :
      (tr.originAfter turn key).isSome := by
    have ho : (tr.origins key).isSome := by rw [h.cached, hg]; rfl
    simp only [originAfter]
    split
    · split
      · rfl
      · exact ho
    · exact ho
  cases hg : w.service.cache.get? key with
  | none => simp only [next, hg, Option.isSome_none, Bool.false_eq_true, if_false]
  | some set =>
    simp only [next, hg, Option.isSome_some, if_true]
    rcases ht.service with he | ⟨a, events, htask, -, hstep⟩
    · exact hold (he ▸ hg)
    rcases Service.cached_source (Service.transition_of_step hstep) hg with
      ⟨t, n, ha, hx⟩ | ⟨-, hg'⟩
    · have htask' : turn.task? = some t := by rw [← htask, ha, Task.task?_action]
      by_cases hsup : tr.Supersedes ⟨key, set, n⟩ ⟨tr.answered t, tr.isUnclaimed key t⟩
      · simp only [originAfter, stored?_of_inHand? htask' hx, hsup, and_self, if_true,
          Option.isSome_some]
      · exact hold (get?_of_not_supersedes hsup)
    · exact hold hg'

/-- After a turn the task that holds a key stands at the index of the cached set or past it, unless
a lookup that has not won the claim has stored the set. -/
theorem Dated.position_next (h : tr.Dated) (ht : World.TurnTo tr.world turn w) (t : Task)
    (key : Key) (n : Nat) (o : Origin) (hp : w.service.position? t = some (key, n))
    (ho : (tr.next turn w).origins key = some o) (hc : o.unclaimed = false) : o.index ≤ n := by
  rcases origin_source ho with ⟨x, hs, rfl, -⟩ | ⟨hn, ho⟩
  · -- the storing task holds the key afterwards, so it is the task that stands there
    obtain ⟨u, rfl, hx, rfl⟩ := inHand?_of_stored? hs
    obtain ⟨events, hstep⟩ := ht.step_of_inHand? rfl hx
    have hk (i : Nat) (hi : u = .lookup i) : x.key ∉ tr.world.service.cache.watching := by
      subst hi
      simpa [isUnclaimed, Cache.isWatched] using hc
    have hpos := Service.position?_of_stored (Service.transition_of_step hstep) hx hk
    have hacc := (h.sound.after ht).reached.accounted
    have hu : u = t :=
      hacc.unique u t x.key (Service.held?_of_position? hpos) (Service.held?_of_position? hp)
    rw [hu, hp] at hpos
    cases hpos
    exact Nat.le_of_eq (h.inHand u x hx)
  rcases ht.service with he | ⟨a, events, htask, hg, hstep⟩
  · exact h.position t key n o (he ▸ hp) ho hc
  cases Service.positionSource_of_transition (Service.transition_of_step hstep) hp with
  | kept hp' => exact h.position t key n o hp' ho hc
  | seeded _ _ hk => exact absurd (h.mem_watching ho) hk
  | spawned _ hp' _ hn' =>
    have hle := h.position _ key _ o hp' ho hc
    omega
  | answered _ ha hw hn' =>
    subst ha
    have hp' := Service.position?_of_asking hw
    have hle := h.position _ key _ o hp' ho hc
    have hindex := (h.sound.position _ key _ hp').2
    rw [hn', h.sound.waitIndex_recordSuccess hw hg]
    omega

/-- What holds of the records of all runs is kept by every turn. -/
theorem Dated.next (h : tr.Dated) (ht : tr.world.turn? turn = some w) : (tr.next turn w).Dated := by
  have hturn := World.turnTo_of_turn? ht
  constructor
  · exact h.sound.after hturn
  · exact h.inHand_next hturn
  · exact h.cached_next hturn
  · exact h.position_next hturn

/-- The records of all runs are dated. -/
theorem Reached.dated (h : tr.Reached) : tr.Dated := by
  induction h with
  | start hr tag address agent watch =>
    constructor
    · exact World.sound_start hr tag address agent watch
    · intro t x hx
      cases t <;> cases hx
    · intro key
      rfl
    · intro t key n o hp
      cases t <;> cases hp
  | turn _ ht ih => exact ih.next ht

/-- A set is replaced by an older one exactly if a lookup stores an older answer for a key that is
watched already, or a watcher stores its own answer in place of a newer one that a lookup has stored
without winning the claim. -/
theorem Dated.index_lt_iff (h : tr.Dated) {key : Key} {o o' : Origin}
    (ho : tr.origins key = some o) (ho' : (tr.next turn w).origins key = some o') :
    o'.index < o.index ↔ ∃ t x, turn = .task t ∧ tr.world.service.inHand? t = some x ∧
      x.key = key ∧ tr.world.service.cache.get? key ≠ some x.set ∧ tr.answered t < o.index ∧
      ((∃ i, t = .lookup i) ∧ key ∈ tr.world.service.cache.watching ∨
        (∃ j, t = .watcher j) ∧ o.unclaimed = true) := by
  constructor
  · intro hlt
    rcases origin_source ho' with ⟨x, hs, rfl, hsup⟩ | ⟨-, hsame⟩
    · obtain ⟨t, rfl, hx, rfl⟩ := inHand?_of_stored? hs
      have hne : tr.world.service.cache.get? x.key ≠ some x.set := by
        rcases hsup with hne | hnewer
        · exact hne
        · exact absurd (hnewer o ho) (Nat.lt_asymm hlt)
      refine ⟨t, x, rfl, hx, rfl, hne, hlt, ?_⟩
      cases t with
      | lookup i => exact Or.inl ⟨⟨i, rfl⟩, h.mem_watching ho⟩
      | watcher j =>
        refine Or.inr ⟨⟨j, rfl⟩, ?_⟩
        cases hc : o.unclaimed with
        | true => rfl
        | false =>
          -- the watcher stands at the index of its answer, and such a set is not past it
          have hle := h.position _ x.key _ o (Service.position?_of_inHand? hx) ho hc
          have hindex := h.inHand _ x hx
          simp only at hlt
          omega
    · rw [ho] at hsame
      cases hsame
      exact absurd hlt (Nat.lt_irrefl _)
  · rintro ⟨t, x, rfl, hx, rfl, hne, hlt, -⟩
    have hs : tr.stored? (.task t) = _ := stored?_of_inHand? rfl hx
    rcases origin_source ho' with ⟨y, hs', -, -⟩ | ⟨hn, -⟩
    · rw [hs] at hs'
      cases hs'
      exact hlt
    · exact absurd (get?_of_not_supersedes (hn x _ hs rfl)) hne

/-- Turns in which a key's set stays in the cache and never comes from a lookup that has not won the
claim. -/
inductive Steady (key : Key) : Trace ρ → Trace ρ → Prop
  /-- No turn is made. -/
  | here {tr : Trace ρ} {o : Origin} (ho : tr.origins key = some o) (hc : o.unclaimed = false) :
      Steady key tr tr
  /-- A turn follows. -/
  | turn {tr v : Trace ρ} {turn : Turn ρ} {w : World MemoryRegistry ρ} {o : Origin}
      (h : Steady key tr v) (ht : v.world.turn? turn = some w)
      (ho : (v.next turn w).origins key = some o) (hc : o.unclaimed = false) :
      Steady key tr (v.next turn w)

private theorem Dated.index_le_next (h : tr.Dated) {key : Key} {o o' : Origin}
    (ho : tr.origins key = some o) (hc : o.unclaimed = false)
    (ho' : (tr.next turn w).origins key = some o') (hc' : o'.unclaimed = false) :
    o.index ≤ o'.index := by
  apply Nat.le_of_not_lt
  intro hlt
  obtain ⟨t, x, rfl, hx, rfl, hne, -, ⟨⟨i, rfl⟩, hk⟩ | ⟨-, hu⟩⟩ := (h.index_lt_iff ho ho').1 hlt
  · have hs : tr.stored? (.task (.lookup i)) = _ := stored?_of_inHand? rfl hx
    have hw : tr.isUnclaimed x.key (.lookup i) = true := by
      simpa [isUnclaimed, Cache.isWatched] using hk
    rcases origin_source ho' with ⟨y, hs', -, -⟩ | ⟨hn, -⟩
    · rw [hs] at hs'
      cases hs'
      rw [hw] at hc'
      cases hc'
    · exact hne (get?_of_not_supersedes (hn x _ hs rfl))
  · rw [hc] at hu
    cases hu

private theorem Steady.index_le {key : Key} {v : Trace ρ} (h : Steady key tr v) (hd : tr.Dated)
    {o : Origin} (ho : tr.origins key = some o) :
    v.Dated ∧ ∃ o', v.origins key = some o' ∧ o'.unclaimed = false ∧ o.index ≤ o'.index := by
  induction h with
  | here ho₀ hc₀ =>
    rw [ho] at ho₀
    cases ho₀
    exact ⟨hd, o, ho, hc₀, Nat.le_refl _⟩
  | turn _ ht ho₁ hc₁ ih =>
    obtain ⟨hv, o₀, ho₀, hc₀, hle⟩ := ih
    exact ⟨hv.next ht, _, ho₁, hc₁, Nat.le_trans hle (hv.index_le_next ho₀ hc₀ ho₁ hc₁)⟩

/-- When the cached set of a key goes back in time. One turn replaces a set by one from an older
answer exactly if a lookup stores what it was answered for a key that is watched already, or if a
watcher stores its own answer in place of what such a lookup has stored. As long as the set stays in
the cache and no lookup stores it that has not won the claim, its index never goes back. -/
theorem goes_back_iff (h : tr.Reached) (key : Key) :
    (∀ turn w o o', tr.world.turn? turn = some w → tr.origins key = some o →
      (tr.next turn w).origins key = some o' →
        (o'.index < o.index ↔ ∃ t x, turn = .task t ∧ tr.world.service.inHand? t = some x ∧
          x.key = key ∧ tr.world.service.cache.get? key ≠ some x.set ∧
          tr.answered t < o.index ∧
          ((∃ i, t = .lookup i) ∧ key ∈ tr.world.service.cache.watching ∨
            (∃ j, t = .watcher j) ∧ o.unclaimed = true))) ∧
    ∀ v o o', Steady key tr v → tr.origins key = some o → v.origins key = some o' →
      o.index ≤ o'.index := by
  constructor
  · intro turn w o o' _ ho ho'
    exact h.dated.index_lt_iff ho ho'
  · intro v o o' hv ho ho'
    obtain ⟨-, o₁, ho₁, -, hle⟩ := hv.index_le h.dated ho
    rw [ho'] at ho₁
    cases ho₁
    exact hle

end

/-! ### A lookup that is late -/

/-- The record after a list of turns; none if one is not possible. -/
def run (tr : Trace ρ) : List (Turn ρ) → Option (Trace ρ)
  | [] => some tr
  | turn :: rest => (tr.world.turn? turn).bind fun w => (tr.next turn w).run rest

/-- A list of turns leads from the record of a run to one. -/
theorem Reached.run {tr tr' : Trace ρ} {turns : List (Turn ρ)} (h : tr.Reached)
    (hr : tr.run turns = some tr') : tr'.Reached := by
  induction turns generalizing tr with
  | nil =>
    cases hr
    exact h
  | cons turn rest ih =>
    obtain ⟨w, ht, hr⟩ := Option.bind_eq_some_iff.1 hr
    exact ih (h.turn ht) hr

/-- A service with one instance, over a registry in memory. -/
def beforeMove : World MemoryRegistry Unit :=
  .start (MemoryRegistry.empty.applied (.setService "api" none [.ofAddress "api" "10.0.0.1" 80]))
    none (.start "memory" default .standard)

/-- Two lookups are answered. While the second is held up, the first starts the watcher, the service
moves to another instance, and the watcher stores it. -/
def lateTurns : List (Turn Unit) :=
  let first : Turn Unit := .task (.lookup 0)
  let second : Turn Unit := .task (.lookup 1)
  let watcher : Turn Unit := .task (.watcher 0)
  [.outside (.resolve "api") rfl, .outside (.resolve "api") rfl,
    first, first, first, first, second, second, second, second,
    first, first, first,
    .write (.setService "api" none [.ofAddress "api" "10.0.0.2" 80]), .bump,
    watcher, watcher, watcher]

/-- The record when the second lookup is about to store what it was answered. -/
def late : Trace Unit := ((start beforeMove).run lateTurns).getD (start beforeMove)

/-- The world after the second lookup has stored it. -/
def afterLate : World MemoryRegistry Unit :=
  (late.world.turn? (.task (.lookup 1))).getD late.world

/-- The second lookup puts the set of the old index in place of the one that the watcher has
stored. -/
theorem goes_back_late :
    late.Reached ∧ late.world.turn? (.task (.lookup 1)) = some afterLate ∧
      ∃ o o', late.origins (.ofName "api") = some o ∧
        (late.next (.task (.lookup 1)) afterLate).origins (.ofName "api") = some o' ∧
        o.index = 3 ∧ o'.index = 2 ∧ Key.ofName "api" ∈ late.world.service.cache.watching := by
  have hstart : (start beforeMove).Reached :=
    .start (by decide) none "memory" default .standard
  have hlate : late.Reached := by
    have hrun : (start beforeMove).run lateTurns = some late := rfl
    exact hstart.run hrun
  have ht : late.world.turn? (.task (.lookup 1)) = some afterLate := rfl
  have ho : late.origins (.ofName "api") = some ⟨3, false⟩ := rfl
  have ho' : (late.next (.task (.lookup 1)) afterLate).origins (.ofName "api") =
      some ⟨2, true⟩ := rfl
  have hback := ((goes_back_iff hlate (.ofName "api")).1 _ _ _ _ ht ho ho').1 (by decide)
  obtain ⟨t, x, he, -, -, -, -, ⟨-, hk⟩ | ⟨⟨j, rfl⟩, -⟩⟩ := hback
  · exact ⟨hlate, ht, _, _, ho, ho', rfl, rfl, hk⟩
  · cases he

end Trace

end ServiceDiscovery
