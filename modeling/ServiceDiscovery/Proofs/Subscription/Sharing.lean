import Mathlib.Logic.Function.Basic
import ServiceDiscovery.Proofs.Subscription.Numbers

/-!
# Tasks that share a cache

Any number of tasks do operations of one cache. An operation is one step; what it gives to deliver
is then delivered by the same task, one step at a time, while other tasks go on. So the handlers may
be called with the accepted sets in another order than that in which the sets were accepted. But
each delivery comes after its own operation, and a handler that reads the cache in its last call
reads the set that was accepted last.
-/

namespace ServiceDiscovery

/-- Whether a subscription is among those that a part of a delivery is still to call. -/
def Frame.Awaits {writes : Bool} {ρ : Type} (id : SubscriptionId) : Frame writes ρ → Prop
  | .call _ handlers => id ∈ handlers.map Prod.fst
  | .run _ => False

/-- Whoever is awaited is owed some set. -/
theorem Frame.awaits_iff {writes : Bool} {ρ : Type} {id : SubscriptionId}
    {frame : Frame writes ρ} : frame.Awaits id ↔ ∃ set, frame.Owes id set := by
  cases frame with
  | call x handlers => simp [Awaits, Owes]
  | run script => simp [Awaits, Owes]

namespace Delivery

variable {writes : Bool} {ρ : Type} {c : HandlerCache writes ρ} {d : Delivery writes ρ}
  {o : Outcome writes ρ} {id : SubscriptionId}

private theorem awaits_ofNotification {name : String} (set : EndpointSet)
    (h : id ∈ c.subscribed name) :
    ∃ frame ∈ (ofNotification (c.hub.notification name set) : Delivery writes ρ),
      frame.Awaits id := by
  obtain ⟨frame, hf, hid⟩ := owes_ofNotification.2 ⟨rfl, h⟩
  exact ⟨frame, hf, Frame.awaits_iff.2 ⟨set, hid⟩⟩

private theorem awaits_of_step (ho : step c d = some o) (h : ∃ frame ∈ d, frame.Awaits id) :
    (∃ frame ∈ o.rest, frame.Awaits id) ∨ ∃ set, .called id set ∈ o.events := by
  obtain ⟨frame, hf, hid⟩ := h
  obtain ⟨set, hset⟩ := Frame.awaits_iff.1 hid
  rcases owes_of_step ho ⟨frame, hf, hset⟩ with ⟨next, hn, hnext⟩ | hcalled
  · exact Or.inl ⟨next, hn, Frame.awaits_iff.2 ⟨set, hnext⟩⟩
  · exact Or.inr ⟨set, hcalled⟩

end Delivery

/-- A cache, and the tasks that share it. -/
structure Sharing (ι : Type) (writes : Bool) (ρ : Type) where
  cache : HandlerCache writes ρ
  /-- What each task has still to deliver. -/
  pending : ι → Delivery writes ρ

namespace Sharing

variable {ι : Type} {writes : Bool} {ρ : Type}

/-- A step of one of the tasks, with what is seen of it. -/
structure Moment (ι : Type) (writes : Bool) (ρ : Type) where
  before : Sharing ι writes ρ
  task : ι
  events : List (Event ρ)
  after : Sharing ι writes ρ

namespace Moment

variable (m : Moment ι writes ρ)

/-- Another set is accepted for a key. -/
def Accepts (key : Key) (set : EndpointSet) : Prop :=
  m.before.cache.get? key ≠ some set ∧ m.after.cache.get? key = some set

/-- The set of a key is dropped. -/
def Removes (key : Key) : Prop :=
  m.before.cache.get? key ≠ none ∧ m.after.cache.get? key = none

/-- A handler is called. -/
def Calls (id : SubscriptionId) : Prop := ∃ set, .called id set ∈ m.events

/-- A key has this content after the step, and a handler that reads the key in it goes on with this
content. -/
def Shows (key : Key) (content : Option EndpointSet) : Prop :=
  m.after.cache.get? key = content ∧
    ∀ next rest, m.before.pending m.task = .run (.read key next) :: rest →
      m.after.pending m.task = .run (next content) :: rest

variable {m}

/-- A key keeps its content when nothing is accepted for it and it is not dropped. -/
theorem get?_after {key : Key} (ha : ∀ set, ¬m.Accepts key set) (hr : ¬m.Removes key) :
    m.after.cache.get? key = m.before.cache.get? key := by
  cases hg : m.after.cache.get? key with
  | none => exact (Decidable.not_not.1 fun hne => hr ⟨Ne.symm hne, hg⟩)
  | some set => exact (Decidable.not_not.1 fun hne => ha set ⟨Ne.symm hne, hg⟩)

/-- If a handler is called at all, there is a last call of it. -/
theorem exists_last_call {id : SubscriptionId} {later : List (Moment ι writes ρ)}
    (h : ∃ n ∈ later, n.Calls id) :
    ∃ before n after, later = before ++ n :: after ∧ n.Calls id ∧ ∀ k ∈ after, ¬k.Calls id := by
  induction later with
  | nil =>
    obtain ⟨n, hn, -⟩ := h
    cases hn
  | cons first later ih =>
    by_cases hlater : ∃ n ∈ later, n.Calls id
    · obtain ⟨before, n, after, rfl, hcalls, hlast⟩ := ih hlater
      exact ⟨first :: before, n, after, rfl, hcalls, hlast⟩
    · obtain ⟨n, hn, hcalls⟩ := h
      rcases List.mem_cons.1 hn with rfl | hn
      · exact ⟨[], n, later, rfl, hcalls, fun k hk hc => hlater ⟨k, hk, hc⟩⟩
      · exact absurd ⟨n, hn, hcalls⟩ hlater

end Moment

/-- What a step of a task can be. -/
inductive Step [DecidableEq ι] : Moment ι writes ρ → Prop
  /-- A task that has nothing to deliver does an operation of the cache. -/
  | operated (s : Sharing ι writes ρ) (i : ι) (o : Cache.Operation writes ρ)
      (hi : s.pending i = []) :
      Step ⟨s, i, [], (o.apply s.cache).2,
        Function.update s.pending i (.ofNotification (o.apply s.cache).1)⟩
  /-- A task goes on with its delivery. -/
  | delivered (s : Sharing ι writes ρ) (i : ι) {o : Delivery.Outcome writes ρ}
      (ho : (s.pending i).step s.cache = some o) :
      Step ⟨s, i, o.events, o.cache, Function.update s.pending i o.rest⟩

/-- Tasks take steps in some order. -/
inductive Run [DecidableEq ι] : Sharing ι writes ρ → List (Moment ι writes ρ) →
    Sharing ι writes ρ → Prop
  /-- Nothing happens. -/
  | nil (s : Sharing ι writes ρ) : Run s [] s
  /-- One step, and then others. -/
  | cons {m : Moment ι writes ρ} {later : List (Moment ι writes ρ)} {t : Sharing ι writes ρ}
      (h : Step m) (hs : Run m.after later t) : Run m.before (m :: later) t

variable [DecidableEq ι] {s t : Sharing ι writes ρ} {m : Moment ι writes ρ}
  {earlier later : List (Moment ι writes ρ)} {key : Key} {set : EndpointSet} {id : SubscriptionId}

/-- What follows a moment of a run. -/
theorem Run.of_append (h : Run s (earlier ++ m :: later) t) : Step m ∧ Run m.after later t := by
  induction earlier generalizing s with
  | nil =>
    cases h with
    | cons hm hs => exact ⟨hm, hs⟩
  | cons first earlier ih =>
    cases h with
    | cons _ hs => exact ih hs

/-! ### Calls that are still to be made -/

/-- A task is still to call a handler. -/
def Awaits (s : Sharing ι writes ρ) (id : SubscriptionId) : Prop :=
  ∃ i, ∃ frame ∈ s.pending i, frame.Awaits id

private theorem Step.awaits_of_accepts (h : Step m) (ha : m.Accepts key set)
    (hid : id ∈ m.before.cache.subscribed key.name) : m.after.Awaits id := by
  obtain ⟨hne, hset⟩ := ha
  -- The key has come to another set, so the step has offered this set for this key.
  cases h with
  | operated s i o hi =>
    refine ⟨i, ?_⟩
    simp only [Function.update_self]
    cases ho : o.offer? with
    | none =>
      rcases Cache.Operation.get?_apply_quiet ho key with hsame | hnone
      · exact absurd (hsame.symm.trans hset) hne
      · exact absurd (hnone.symm.trans hset) nofun
    | some offer =>
      obtain ⟨k, x⟩ := offer
      have hget : (o.apply s.cache).2.get? key = _ := Cache.Operation.get?_apply ho key
      split at hget
      · next hk =>
        subst hk
        cases hget.symm.trans hset
        rw [Cache.Operation.apply_accepted ho hne]
        exact Delivery.awaits_ofNotification set hid
      · exact absurd (hget.symm.trans hset) hne
  | @delivered s i o ho =>
    refine ⟨i, ?_⟩
    simp only [Function.update_self]
    rcases Delivery.content_of_step ho key with (hsame | hnone) | ⟨-, x, rest, hget, hrest⟩
    · exact absurd (hsame.symm.trans hset) hne
    · exact absurd (hnone.symm.trans hset) nofun
    · cases hget.symm.trans hset
      obtain ⟨frame, hf, hid⟩ := Delivery.awaits_ofNotification set hid
      rw [hrest]
      exact ⟨frame, List.mem_append_left rest hf, hid⟩

/-- A handler that is to be called is called next, or is still to be called. -/
theorem Step.awaits (h : Step m) (ha : m.before.Awaits id) : m.after.Awaits id ∨ m.Calls id := by
  obtain ⟨j, hj⟩ := ha
  cases h with
  | operated s i o hi =>
    refine Or.inl ⟨j, ?_⟩
    have hne : j ≠ i := by
      rintro rfl
      obtain ⟨frame, hf, -⟩ := hj
      rw [hi] at hf
      cases hf
    simpa only [Function.update_of_ne hne] using hj
  | @delivered s i o ho =>
    by_cases hji : j = i
    · subst hji
      refine (Delivery.awaits_of_step ho hj).imp_left fun hrest => ⟨j, ?_⟩
      simpa only [Function.update_self] using hrest
    · exact Or.inl ⟨j, by simpa only [Function.update_of_ne hji] using hj⟩

/-- A handler that is to be called is called before all deliveries have ended. -/
theorem Run.exists_calls (h : Run s later t) (ha : s.Awaits id) (ht : ∀ i, t.pending i = []) :
    ∃ n ∈ later, n.Calls id := by
  induction h with
  | nil s =>
    obtain ⟨i, frame, hf, -⟩ := ha
    rw [ht i] at hf
    cases hf
  | cons hm _ ih =>
    rcases hm.awaits ha with hafter | hcalls
    · obtain ⟨n, hn, hcalls⟩ := ih hafter ht
      exact ⟨n, List.mem_cons_of_mem _ hn, hcalls⟩
    · exact ⟨_, List.mem_cons_self, hcalls⟩

/-! ### The last call -/

/-- A key that nothing is accepted for and that is not dropped has one content at all moments. -/
theorem Run.get?_eq (h : Run s later t) (ha : ∀ n ∈ later, ∀ set, ¬n.Accepts key set)
    (hr : ∀ n ∈ later, ¬n.Removes key) :
    t.cache.get? key = s.cache.get? key ∧
      ∀ n ∈ later, n.before.cache.get? key = s.cache.get? key ∧
        n.after.cache.get? key = s.cache.get? key := by
  induction h with
  | nil s => exact ⟨rfl, nofun⟩
  | @cons m later t _ _ ih =>
    have hfirst : m.after.cache.get? key = m.before.cache.get? key :=
      Moment.get?_after (ha m List.mem_cons_self) (hr m List.mem_cons_self)
    obtain ⟨hlast, hall⟩ := ih (fun n hn => ha n (List.mem_cons_of_mem m hn))
      fun n hn => hr n (List.mem_cons_of_mem m hn)
    rw [hfirst] at hlast hall
    refine ⟨hlast, fun n hn => ?_⟩
    rcases List.mem_cons.1 hn with rfl | hn
    · exact ⟨rfl, hfirst⟩
    · exact hall n hn

/-- A handler that reads a key goes on with the content that the key has at that moment. -/
theorem Step.reads (h : Step m) {next : Option EndpointSet → Script writes ρ}
    {rest : Delivery writes ρ} (hp : m.before.pending m.task = .run (.read key next) :: rest) :
    m.after.pending m.task = .run (next (m.before.cache.get? key)) :: rest := by
  cases h with
  | operated s i o hi =>
    rw [hi] at hp
    cases hp
  | @delivered s i o ho =>
    rw [show s.pending i = _ from hp] at ho
    cases ho
    exact Function.update_self i _ s.pending

private theorem Run.step_of_mem (h : Run s later t) (hm : m ∈ later) : Step m := by
  obtain ⟨before, after, rfl⟩ := List.append_of_mem hm
  exact h.of_append.1

/-- Reading back inside a handler is safe. A set is accepted for a key while a handler is subscribed
to the key's name; afterwards nothing else is accepted for the key, the set is not dropped, and all
deliveries come to their ends. Then the handler is called after the set was accepted. From the last
call on, the key has the content that it has in the end, which is this set, and whoever reads the
key goes on with it, whatever set the handler was called with. -/
theorem last_call_reads_back (h : Run s (earlier ++ m :: later) t) (hm : m.Accepts key set)
    (hid : id ∈ m.before.cache.subscribed key.name)
    (hlast : ∀ n ∈ later, ∀ other, ¬n.Accepts key other) (hkept : ∀ n ∈ later, ¬n.Removes key)
    (hdone : ∀ i, t.pending i = []) :
    t.cache.get? key = some set ∧
      ∃ before n after, later = before ++ n :: after ∧ n.Calls id ∧ (∀ k ∈ after, ¬k.Calls id) ∧
        ∀ k ∈ n :: after, k.Shows key (t.cache.get? key) := by
  obtain ⟨hstep, hrun⟩ := h.of_append
  obtain ⟨hfinal, hall⟩ := hrun.get?_eq hlast hkept
  obtain ⟨before, n, after, rfl, hcalls, hno⟩ :=
    Moment.exists_last_call (hrun.exists_calls (hstep.awaits_of_accepts hm hid) hdone)
  refine ⟨hfinal.trans hm.2, before, n, after, rfl, hcalls, hno, fun k hk => ?_⟩
  have hmem : k ∈ before ++ n :: after := List.mem_append_right before hk
  obtain ⟨hbefore, hafter⟩ := hall k hmem
  rw [hfinal]
  refine ⟨hafter, fun next rest hp => ?_⟩
  rw [← hbefore]
  exact (hrun.step_of_mem hmem).reads hp

/-- A handler that reports the set that it reads for a key. -/
def reader (key : Key) : Handler false (Option EndpointSet) := fun _ _ =>
  .read key fun seen => .report seen .done

/-- Two tasks with nothing to deliver share a cache that a reader is subscribed to. -/
def readers : Sharing Bool false (Option EndpointSet) :=
  ⟨(Cache.empty.subscribe "api" (reader (.ofName "api"))).2, fun _ => []⟩

/-- The set that is accepted first and told last. -/
def olderSet : EndpointSet := .ofList [⟨"10.0.0.1", 80⟩]

/-- The set that is accepted last and told first. -/
def newerSet : EndpointSet := .ofList [⟨"10.0.0.2", 80⟩]

/-- The second task overtakes the first one. The last call of the reader is with the older set, and
the reader reads the newer one. -/
theorem last_call_reads_back_overtaken :
    ∃ first m later t, Run readers ([first] ++ m :: later) t ∧
      first.Accepts (.ofName "api") olderSet ∧ m.Accepts (.ofName "api") newerSet ∧
      later.flatMap Moment.events = [.called ⟨1⟩ newerSet, .reported (some newerSet),
        .called ⟨1⟩ olderSet, .reported (some newerSet)] ∧
      t.cache.get? (.ofName "api") = some newerSet ∧
      ∃ before n after, later = before ++ n :: after ∧ n.Calls ⟨1⟩ ∧ (∀ k ∈ after, ¬k.Calls ⟨1⟩) ∧
        ∀ k ∈ n :: after, k.Shows (.ofName "api") (t.cache.get? (.ofName "api")) := by
  have hrun : Run readers ([_] ++ _ :: _) _ :=
    .cons (.operated readers false (.update (.ofName "api") olderSet) rfl) <|
    .cons (.operated _ true (.update (.ofName "api") newerSet) rfl) <|
    .cons (.delivered _ true rfl) <| .cons (.delivered _ true rfl) <|
    .cons (.delivered _ true rfl) <| .cons (.delivered _ true rfl) <|
    .cons (.delivered _ true rfl) <| .cons (.delivered _ false rfl) <|
    .cons (.delivered _ false rfl) <| .cons (.delivered _ false rfl) <|
    .cons (.delivered _ false rfl) <| .cons (.delivered _ false rfl) <| .nil _
  refine ⟨_, _, _, _, hrun, ⟨by decide, rfl⟩, ⟨by decide, rfl⟩, rfl,
    last_call_reads_back hrun ⟨by decide, rfl⟩ (by decide) ?_ ?_ ?_⟩
  · repeat refine List.forall_mem_cons.2 ⟨fun other ha => ha.1 ha.2, ?_⟩
    exact nofun
  · repeat refine List.forall_mem_cons.2 ⟨fun hr => hr.1 hr.2, ?_⟩
    exact nofun
  · intro i
    cases i <;> rfl

end Sharing

end ServiceDiscovery
