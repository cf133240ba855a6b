import ServiceDiscovery.Proofs.Service.CachedSets
import ServiceDiscovery.Proofs.Simulation.Move
import ServiceDiscovery.Proofs.Watch.Plan
import ServiceDiscovery.Registry.Scripted

/-!
# Watchers keep to their plan

One watcher of a service that nobody cancels, from its start on, while the rest of the world does
what it likes. What is seen of the watcher is recorded beside the world: its queries as they are
noted, what the registry shows it, and when it ends. The queries are those of the plan, the watcher
gives up as soon as the plan is spent, and the cached set is the one that was seen last as long as
nobody else touches it.
-/

namespace ServiceDiscovery

variable {σ ρ : Type}

/-- What is seen of a watcher. -/
structure Vigil where
  /-- Its queries, each with the time at which it was sent. -/
  asked : List (Nat × HealthQuery)
  /-- What the queries have shown, each with the time at which the watcher received it. -/
  given : List (Nat × Observation)
  /-- The time at which it ended, if it has. -/
  left : Option Nat
  /-- Whether anybody else has changed the cached set of its key. -/
  disturbed : Bool

/-- What the queries have shown. -/
def Vigil.seen (v : Vigil) : List Observation := v.given.map Prod.snd

/-- The query that is noted, if one is. -/
def Note.query? : Note ρ → Option HealthQuery
  | .asked q => some q
  | _ => none

/-- Whether the next step of a watcher stores or drops the set of its key. -/
def Watcher.isWriting (x : Watcher ρ) : Bool :=
  match x.stage with
  | .storing _ _ | .leaving _ => true
  | _ => false

/-- Whether the next step of a watcher is its last one. -/
def Watcher.isLeaving (x : Watcher ρ) : Bool :=
  match x.stage with
  | .leaving _ => true
  | _ => false

namespace World

/-- The queries that were noted on the way from one world to another, the earliest first. -/
def queriesSince (w w' : World σ ρ) : List (Nat × HealthQuery) :=
  ((w'.notes.take (w'.notes.length - w.notes.length)).filterMap
    fun n => n.2.query?.map fun q => (n.1, q)).reverse

/-- What the registry shows a watcher that moves, if its query is out and answered. -/
def shown [Registry σ] (w : World σ ρ) (j : Nat) (x : Watcher ρ) : List (Nat × Observation) :=
  match x.stage with
  | .asking _ =>
    (((w.watchQueries.get? j).bind fun p => Registry.answer? w.now p w.registry).map
      fun result => (w.now, Answer.observed result)).toList
  | _ => []

/-- Something happens beside a watcher that nobody cancels. -/
structure Beside (j : Nat) (w w' : World σ ρ) : Prop where
  service : w'.service = w.service ∨ ∃ a events,
    w.service.step a = some (w'.service, events) ∧ a.task? ≠ some (.watcher j)
  cancelled : w'.service.cancelled = false
  query : w'.watchQueries.get? j = w.watchQueries.get? j
  pause : w'.pauses.get? j = w.pauses.get? j
  now : w'.now = w.now
  tag : w'.tag = w.tag

/-- A watcher has just been started. -/
structure Begins (p : WatchPlan) (j : Nat) (w : World σ ρ) : Prop where
  watcher : w.service.watchers[j]? = some (.start p.key p.start)
  cancelled : w.service.cancelled = false
  query : w.watchQueries.get? j = none
  pause : w.pauses.get? j = none
  now : w.now = p.begun
  tag : w.tag = p.tag
  watch : w.service.watch = p.watch

end World

namespace Vigil

/-- Where a watcher stands in its plan. -/
inductive Stands (p : WatchPlan) (j : Nat) (w : World σ ρ) (v : Vigil) : WatchStage ρ → Prop
  /-- The next query is due now. -/
  | due {c : Cursor} (hc : c.Describes p v.seen) (hs : ¬ p.Spent v.seen)
      (hq : w.watchQueries.get? j = none) (hp : w.pauses.get? j = none)
      (hl : v.asked.length = v.given.length) (ht : w.now = p.time v.given) :
      Stands p j w v (.asking c)
  /-- A query is out. -/
  | out {c : Cursor} {q : Pending} (hc : c.Describes p v.seen) (hs : ¬ p.Spent v.seen)
      (hq : w.watchQueries.get? j = some q) (hp : w.pauses.get? j = none)
      (hl : v.asked.length = v.given.length + 1) : Stands p j w v (.asking c)
  /-- A set was shown just now and is to be stored. -/
  | storing {c : Cursor} {set : EndpointSet} {earlier : List (Nat × Observation)} {index : Nat}
      (hc : c.Describes p v.seen) (hq : w.watchQueries.get? j = none)
      (hp : w.pauses.get? j = none) (hl : v.asked.length = v.given.length)
      (hg : v.given = earlier ++ [(w.now, .ok (set, index))]) : Stands p j w v (.storing c set)
  /-- A set was shown just now and is being delivered. -/
  | notifying {c : Cursor} {d : Delivery false ρ} {earlier : List (Nat × Observation)}
      {found : EndpointSet × Nat} (hc : c.Describes p v.seen)
      (hq : w.watchQueries.get? j = none) (hp : w.pauses.get? j = none)
      (hl : v.asked.length = v.given.length) (hg : v.given = earlier ++ [(w.now, .ok found)]) :
      Stands p j w v (.notifying c d)
  /-- A query has failed just now and the pause is about to begin. -/
  | failed {c : Cursor} {earlier : List (Nat × Observation)} {f : Failure}
      (hc : c.Describes p v.seen) (hs : ¬ p.Spent v.seen) (hq : w.watchQueries.get? j = none)
      (hp : w.pauses.get? j = none) (hl : v.asked.length = v.given.length)
      (hg : v.given = earlier ++ [(w.now, .error f)]) : Stands p j w v (.pausing c)
  /-- The pause lasts until the next query is due. -/
  | pausing {c : Cursor} (hc : c.Describes p v.seen) (hs : ¬ p.Spent v.seen)
      (hq : w.watchQueries.get? j = none) (hp : w.pauses.get? j = some (p.time v.given))
      (hl : v.asked.length = v.given.length) (ht : w.now ≤ p.time v.given) :
      Stands p j w v (.pausing c)
  /-- The plan was spent just now. -/
  | leaving (hs : p.Spent v.seen) (hq : w.watchQueries.get? j = none)
      (hl : v.asked.length = v.given.length)
      (hg : v.given.getLast?.map Prod.fst = some w.now) : Stands p j w v (.leaving .gaveUp)
  /-- The watcher ended when the plan was spent. -/
  | ended (hs : p.Spent v.seen) (hq : w.watchQueries.get? j = none)
      (hl : v.asked.length = v.given.length) (hv : v.left = v.given.getLast?.map Prod.fst) :
      Stands p j w v (.ended .gaveUp)

/-- The set of the key that should be cached: the one that was seen last, once it is stored. -/
def current (v : Vigil) (initial : Option EndpointSet) : WatchStage ρ → Option EndpointSet
  | .storing _ _ => (lastSet? v.seen.dropLast).or initial
  | _ => (lastSet? v.seen).or initial

/-- The watcher keeps to its plan. -/
structure Keeps (p : WatchPlan) (j : Nat) (initial : Option EndpointSet) (w : World σ ρ)
    (v : Vigil) : Prop where
  cancelled : w.service.cancelled = false
  watch : w.service.watch = p.watch
  tag : w.tag = p.tag
  /-- Each query is the one that the plan gives from what was seen before. -/
  asked : ∀ (k : Nat) q, v.asked[k]? = some q → q = p.query (v.given.take k)
  /-- The plan was not spent before. -/
  early : ∀ k < v.given.length, ¬ p.Spent (v.seen.take k)
  stands : ∃ stage, w.service.watchers[j]? = some ⟨p.key, stage⟩ ∧ Stands p j w v stage ∧
    (v.disturbed = false → Watcher.isOver ⟨p.key, stage⟩ = false →
      w.service.cache.get? p.key = v.current initial stage)

variable {p : WatchPlan} {j : Nat} {initial : Option EndpointSet} {w w' : World σ ρ}
  {v v' : Vigil}

/-! ### What a move adds to the record -/

private theorem queriesSince_of_noted (hn : w.Noted w'.notes) : w.queriesSince w' = [] := by
  obtain ⟨news, he, hq⟩ := hn
  rw [World.queriesSince, he, List.length_append, Nat.add_sub_cancel, List.take_left,
    List.reverse_eq_nil_iff, List.filterMap_eq_nil_iff]
  rintro ⟨time, n⟩ hm
  cases n with
  | asked q => exact absurd rfl (hq _ hm q)
  | _ => rfl

private theorem queriesSince_of_asked {q : HealthQuery}
    (he : w'.notes = (w.now, .asked q) :: w.notes) : w.queriesSince w' = [(w.now, q)] := by
  have hlen : w'.notes.length - w.notes.length = 1 := by
    rw [he, List.length_cons]
    omega
  rw [World.queriesSince, hlen, he]
  rfl

private theorem Stands.congr {stage : WatchStage ρ} (h : Stands p j w v stage)
    (hq : w'.watchQueries.get? j = w.watchQueries.get? j)
    (hp : w'.pauses.get? j = w.pauses.get? j) (hnow : w'.now = w.now) (ha : v'.asked = v.asked)
    (hg : v'.given = v.given) (hl : v'.left = v.left) : Stands p j w' v' stage := by
  obtain ⟨asked, given, left, disturbed⟩ := v
  obtain ⟨asked', given', left', disturbed'⟩ := v'
  cases ha
  cases hg
  cases hl
  cases h with
  | due hc hs hq' hp' hl' ht =>
    exact .due hc hs (hq.trans hq') (hp.trans hp') hl' (hnow.trans ht)
  | out hc hs hq' hp' hl' => exact .out hc hs (hq.trans hq') (hp.trans hp') hl'
  | storing hc hq' hp' hl' hg' =>
    exact .storing hc (hq.trans hq') (hp.trans hp') hl' (hnow ▸ hg')
  | notifying hc hq' hp' hl' hg' =>
    exact .notifying hc (hq.trans hq') (hp.trans hp') hl' (hnow ▸ hg')
  | failed hc hs hq' hp' hl' hg' =>
    exact .failed hc hs (hq.trans hq') (hp.trans hp') hl' (hnow ▸ hg')
  | pausing hc hs hq' hp' hl' ht =>
    exact .pausing hc hs (hq.trans hq') (hp.trans hp') hl' (hnow ▸ ht)
  | leaving hs hq' hl' hg' => exact .leaving hs (hq.trans hq') hl' (hnow ▸ hg')
  | ended hs hq' hl' hv => exact .ended hs (hq.trans hq') hl' hv

variable [Registry σ]

/-- The record after a move of the watcher. -/
def after (v : Vigil) (j : Nat) (x : Watcher ρ) (w w' : World σ ρ) : Vigil where
  asked := v.asked ++ w.queriesSince w'
  given := v.given ++ w.shown j x
  left := if x.isLeaving then some w.now else v.left
  disturbed := v.disturbed ||
    (!x.isWriting && w'.service.cache.get? x.key != w.service.cache.get? x.key)

/-- The worlds that a watcher's vigil leads to, each with what was seen of the watcher. No query of
it breaks down, and time passes only while it waits, up to the end of its pause at most. -/
inductive Leads (p : WatchPlan) (j : Nat) (w₀ : World σ ρ) : World σ ρ → Vigil → Prop
  /-- The watcher has just been started. -/
  | begun (h : w₀.Begins p j) : Leads p j w₀ w₀ ⟨[], [], none, false⟩
  /-- The watcher moves. -/
  | moved {w w' : World σ ρ} {v : Vigil} {x : Watcher ρ} (h : Leads p j w₀ w v)
      (hw : w.service.watchers[j]? = some x) (hb : w.watchQueries.get? j ≠ some .broken)
      (hm : w.moveWatcher j x = some w') : Leads p j w₀ w' (v.after j x w w')
  /-- Something else happens. -/
  | beside {w w' : World σ ρ} {v : Vigil} (h : Leads p j w₀ w v) (hb : w.Beside j w') :
      Leads p j w₀ w' { v with
        disturbed := v.disturbed ||
          w'.service.cache.get? p.key != w.service.cache.get? p.key }
  /-- The watcher waits. -/
  | waited {w : World σ ρ} {v : Vigil} {x : Watcher ρ} (h : Leads p j w₀ w v)
      (hw : w.service.watchers[j]? = some x) (hm : w.moveWatcher j x = none) (millis : Nat)
      (hp : ∀ time, w.pauses.get? j = some time → w.now + millis ≤ time) :
      Leads p j w₀ { w with now := w.now + millis } v

/-! ### The watcher's own moves -/

private theorem undisturbed {key : Key} {x : Watcher ρ} {c c' : HandlerCache false ρ}
    (hd : (v.disturbed || (!x.isWriting && c'.get? key != c.get? key)) = false) :
    v.disturbed = false ∧ (x.isWriting = false → c'.get? key = c.get? key) := by
  obtain ⟨hv, hx⟩ := Bool.or_eq_false_iff.1 hd
  refine ⟨hv, fun hw => ?_⟩
  simpa [hw] using hx

omit [Registry σ] in
private theorem Keeps.quiet (h : Keeps p j initial w v)
    (hc : w'.service.cancelled = w.service.cancelled) (hwatch : w'.service.watch = w.service.watch)
    (htag : w'.tag = w.tag) (ha : v'.asked = v.asked) (hg : v'.given = v.given)
    {stage : WatchStage ρ} (hw : w'.service.watchers[j]? = some ⟨p.key, stage⟩)
    (hstand : Stands p j w' v' stage)
    (hcached : v'.disturbed = false → Watcher.isOver ⟨p.key, stage⟩ = false →
      w'.service.cache.get? p.key = v'.current initial stage) : Keeps p j initial w' v' := by
  refine ⟨hc.trans h.cancelled, hwatch.trans h.watch, htag.trans h.tag, ?_, ?_, stage, hw, hstand,
    hcached⟩
  · rw [ha, hg]
    exact h.asked
  · rw [seen, hg]
    exact h.early

private theorem after_asked {x : Watcher ρ} (hn : w.Noted w'.notes) :
    (v.after j x w w').asked = v.asked := by
  rw [after, queriesSince_of_noted hn, List.append_nil]

private theorem after_given {x : Watcher ρ} (hx : ∀ cursor, x.stage ≠ .asking cursor) :
    (v.after j x w w').given = v.given := by
  have hnone : w.shown j x = [] := by
    obtain ⟨key, stage⟩ := x
    cases stage with
    | asking cursor => exact absurd rfl (hx cursor)
    | _ => rfl
  rw [after, hnone, List.append_nil]

private theorem Keeps.acted (h : Keeps p j initial w v) {x : Watcher ρ}
    (hw : w.service.watchers[j]? = some x) {s : Service ρ} {events : List (Event ρ)}
    {notes : List (Nat × Note ρ)} (hs : w.service.step (.watcher j) = some (s, events))
    (hn : w.Noted notes) :
    Keeps p j initial { w with service := s, notes := notes }
      (v.after j x w { w with service := s, notes := notes }) := by
  obtain ⟨stage, hx, hstand, hcached⟩ := h.stands
  cases hw.symm.trans hx
  have hne : ∀ cursor, stage ≠ .asking cursor := by
    rintro cursor rfl
    simp [Service.step, hw, Service.stepWatcher, Watcher.advance] at hs
  have ha : (v.after j ⟨p.key, stage⟩ w { w with service := s, notes := notes }).asked = v.asked :=
    after_asked hn
  have hg : (v.after j ⟨p.key, stage⟩ w { w with service := s, notes := notes }).given = v.given :=
    after_given hne
  have hseen : (v.after j ⟨p.key, stage⟩ w { w with service := s, notes := notes }).seen = v.seen :=
    congrArg (List.map Prod.snd) hg
  cases Service.transition_of_step hs with
  | stored hx' =>
    cases hw.symm.trans hx'
    cases hstand with
    | storing hc hq hp hl hlast =>
      refine h.quiet rfl rfl rfl ha hg (Service.watchers_setWatcher hw)
        ((Stands.notifying hc hq hp hl hlast).congr rfl rfl rfl ha hg rfl) fun _ _ => ?_
      show (w.service.cache.store _ _).2.2.get? p.key = (lastSet? (v.after ..).seen).or initial
      rw [Cache.get?_store, if_pos rfl, hseen, seen, hlast, List.map_append, List.map_cons,
        List.map_nil, lastSet?_concat_ok, Option.some_or]
  | relayed hx' ho =>
    cases hw.symm.trans hx'
    cases hstand with
    | notifying hc hq hp hl hlast =>
      refine h.quiet rfl rfl rfl ha hg (Service.watchers_setWatcher hw)
        ((Stands.notifying hc hq hp hl hlast).congr rfl rfl rfl ha hg rfl) fun hd _ => ?_
      obtain ⟨hv, hsame⟩ := undisturbed hd
      show _ = (lastSet? (v.after ..).seen).or initial
      rw [hseen]
      exact (hsame rfl).trans (hcached hv rfl)
  | rearmed hx' =>
    cases hw.symm.trans hx'
    cases hstand with
    | notifying hc hq hp hl hlast =>
      have hspent : ¬ p.Spent v.seen := by
        rw [seen, hlast, List.map_append]
        exact p.not_spent_concat_ok _ _
      have htime : w.now = p.time v.given := by rw [hlast, p.time_concat_ok]
      refine h.quiet rfl rfl rfl ha hg (Service.watchers_setWatcher hw)
        ((Stands.due hc hspent hq hp hl htime).congr rfl rfl rfl ha hg rfl) fun hd _ => ?_
      obtain ⟨hv, hsame⟩ := undisturbed hd
      show _ = (lastSet? (v.after ..).seen).or initial
      rw [hseen]
      exact (hsame rfl).trans (hcached hv rfl)
  | left hx' =>
    cases hw.symm.trans hx'
    cases hstand with
    | leaving hspent hq hl hlast =>
      refine h.quiet rfl rfl rfl ha hg (Service.watchers_setWatcher hw)
        (.ended (hseen ▸ hspent) hq ?_ ?_) fun _ ho => Bool.noConfusion ho
      · rw [ha, hg]
        exact hl
      · rw [hg]
        exact hlast.symm

omit [Registry σ] in
/-- Where the watcher stands, and what is cached for it. -/
theorem Keeps.standing (h : Keeps p j initial w v) {key : Key} {stage : WatchStage ρ}
    (hw : w.service.watchers[j]? = some ⟨key, stage⟩) : key = p.key ∧ Stands p j w v stage ∧
      (v.disturbed = false → Watcher.isOver ⟨p.key, stage⟩ = false →
        w.service.cache.get? p.key = v.current initial stage) := by
  obtain ⟨stage', hx, hstand, hcached⟩ := h.stands
  cases hw.symm.trans hx
  exact ⟨rfl, hstand, hcached⟩

private theorem Keeps.asked_query (h : Keeps p j initial w v) {cursor : Cursor}
    (hw : w.service.watchers[j]? = some ⟨p.key, .asking cursor⟩)
    (hq : w.watchQueries.get? j = none) (hs : w'.service = w.service) (htag : w'.tag = w.tag)
    (hp : w'.pauses = w.pauses) {pending : Pending}
    (hout : w'.watchQueries.get? j = some pending)
    (hn : w'.notes = (w.now, .asked (.blocking w.tag p.key cursor.waitIndex
      w.service.watch.waitTime)) :: w.notes) :
    Keeps p j initial w' (v.after j ⟨p.key, .asking cursor⟩ w w') := by
  obtain ⟨-, hstand, hcached⟩ := h.standing hw
  have hg : (v.after j ⟨p.key, .asking cursor⟩ w w').given = v.given := by
    simp [after, World.shown, hq]
  have hseen : (v.after j ⟨p.key, .asking cursor⟩ w w').seen = v.seen :=
    congrArg (List.map Prod.snd) hg
  cases hstand with
  | out _ _ hq' => cases hq.symm.trans hq'
  | due hc hspent _ hpause hl ht =>
    have hquery : (w.now, HealthQuery.blocking w.tag p.key cursor.waitIndex
        w.service.watch.waitTime) = p.query v.given := by
      rw [WatchPlan.query, ← ht, h.tag, hc.waitIndex, h.watch]
      rfl
    have ha : (v.after j ⟨p.key, .asking cursor⟩ w w').asked = v.asked ++ [p.query v.given] := by
      rw [after, queriesSince_of_asked hn, hquery]
    have hlen : (v.after j ⟨p.key, .asking cursor⟩ w w').asked.length = v.given.length + 1 := by
      rw [ha, List.length_append, hl, List.length_singleton]
    refine ⟨?_, ?_, htag.trans h.tag, fun k q hk => ?_, ?_, .asking cursor, ?_, ?_, fun hd _ => ?_⟩
    · rw [hs, h.cancelled]
    · rw [hs, h.watch]
    · rw [hg]
      rw [ha] at hk
      rcases Nat.lt_or_ge k v.asked.length with hlt | hge
      · rw [List.getElem?_append_left hlt] at hk
        exact h.asked k q hk
      · rw [List.getElem?_append_right hge, List.getElem?_singleton] at hk
        split at hk
        · cases hk
          rw [List.take_of_length_le (by omega)]
        · cases hk
    · rw [hg, hseen]
      exact h.early
    · rw [hs, hw]
    · exact .out (hseen ▸ hc) (hseen ▸ hspent) hout (hp ▸ hpause) (hg ▸ hlen)
    · rw [hs, hcached (undisturbed hd).1 rfl]
      exact congrArg (fun seen => (lastSet? seen).or initial) hseen.symm

omit [Registry σ] in
private theorem Keeps.extended (h : Keeps p j initial w v)
    (hc : w'.service.cancelled = w.service.cancelled) (hwatch : w'.service.watch = w.service.watch)
    (htag : w'.tag = w.tag) (ha : v'.asked = v.asked) {shown : Nat × Observation}
    (hg : v'.given = v.given ++ [shown]) (hl : v.asked.length = v.given.length + 1)
    (hspent : ¬ p.Spent v.seen) {stage : WatchStage ρ}
    (hw : w'.service.watchers[j]? = some ⟨p.key, stage⟩) (hstand : Stands p j w' v' stage)
    (hcached : v'.disturbed = false → Watcher.isOver ⟨p.key, stage⟩ = false →
      w'.service.cache.get? p.key = v'.current initial stage) : Keeps p j initial w' v' := by
  refine ⟨hc.trans h.cancelled, hwatch.trans h.watch, htag.trans h.tag, fun k q hk => ?_,
    fun k hk => ?_, stage, hw, hstand, hcached⟩
  · rw [ha] at hk
    have hlt : k < v.asked.length := (List.getElem?_eq_some_iff.1 hk).1
    rw [hg, List.take_append_of_le_length (by omega)]
    exact h.asked k q hk
  · rw [hg, List.length_append, List.length_singleton] at hk
    have hle : k ≤ v.seen.length := by
      rw [seen, List.length_map]
      omega
    rw [seen, hg, List.map_append, ← seen, List.take_append_of_le_length hle]
    rcases Nat.lt_or_eq_of_le hle with hlt | rfl
    · exact h.early k (by simpa [seen] using hlt)
    · rwa [List.take_length]

private theorem Keeps.shown_result (h : Keeps p j initial w v) {cursor : Cursor} {q : Pending}
    (hw : w.service.watchers[j]? = some ⟨p.key, .asking cursor⟩)
    (hq : w.watchQueries.get? j = some q) {result : Except Failure Answer}
    (ha : Registry.answer? w.now q w.registry = some result) {s : Service ρ}
    {events : List (Event ρ)} {notes : List (Nat × Note ρ)}
    (hs : w.service.step (.answerWatcher j result) = some (s, events)) (hn : w.Noted notes) :
    Keeps p j initial
      { w with service := s, watchQueries := w.watchQueries.erase j, notes := notes }
      (v.after j ⟨p.key, .asking cursor⟩ w
        { w with service := s, watchQueries := w.watchQueries.erase j, notes := notes }) := by
  obtain ⟨-, hstand, hcached⟩ := h.standing hw
  generalize hw' : { w with service := s, watchQueries := w.watchQueries.erase j, notes := notes } =
    w'
  have hasked : (v.after j ⟨p.key, .asking cursor⟩ w w').asked = v.asked := by
    subst hw'
    exact after_asked hn
  have hgiven : (v.after j ⟨p.key, .asking cursor⟩ w w').given =
      v.given ++ [(w.now, Answer.observed result)] := by
    simp [after, World.shown, hq, ha]
  have hseen : (v.after j ⟨p.key, .asking cursor⟩ w w').seen =
      v.seen ++ [Answer.observed result] := by
    rw [seen, hgiven, List.map_append]
    rfl
  subst hw'
  cases hstand with
  | due _ _ hq' => cases hq.symm.trans hq'
  | out hc hspent _ hpause hl =>
    have hlen : (v.after j ⟨p.key, .asking cursor⟩ w { w with
        service := s, watchQueries := w.watchQueries.erase j, notes := notes }).asked.length =
        (v.given ++ [(w.now, Answer.observed result)]).length := by
      rw [hasked, hl, List.length_append, List.length_singleton]
    cases Service.transition_of_step hs with
    | @observed _ _ _ _ set index hw' hr =>
      cases hw.symm.trans hw'
      rw [hr] at hseen hgiven hlen
      refine h.extended rfl rfl rfl hasked hgiven hl hspent (Service.watchers_setWatcher hw)
        (.storing (hseen ▸ hc.recordSuccess set index) (Table.get?_erase_self _ _) hpause
          (hgiven ▸ hlen) hgiven) fun hd _ => ?_
      show _ = (lastSet? (v.after ..).seen.dropLast).or initial
      rw [hseen, List.dropLast_concat]
      exact hcached (undisturbed hd).1 rfl
    | @stumbled _ _ _ _ f hw' hr hreached =>
      cases hw.symm.trans hw'
      rw [hr] at hseen hgiven hlen
      have hleft : ¬ p.Spent (v.seen ++ [.error f]) := fun hspent => by
        have hyes := (hc.hasReached_iff f).2 hspent
        rw [← h.watch, hreached] at hyes
        cases hyes
      refine h.extended rfl rfl rfl hasked hgiven hl hspent (Service.watchers_setWatcher hw)
        (.failed (hseen ▸ hc.recordFailure f) (hseen ▸ hleft) (Table.get?_erase_self _ _) hpause
          (hgiven ▸ hlen) hgiven) fun hd _ => ?_
      show _ = (lastSet? (v.after ..).seen).or initial
      rw [hseen, lastSet?_concat_error]
      exact hcached (undisturbed hd).1 rfl
    | @gaveUp _ _ _ _ f hw' hr hreached =>
      cases hw.symm.trans hw'
      rw [hr] at hseen hgiven hlen
      have hover : p.Spent (v.seen ++ [.error f]) :=
        (hc.hasReached_iff f).1 (h.watch ▸ hreached)
      refine h.extended rfl rfl rfl hasked hgiven hl hspent (Service.watchers_setWatcher hw)
        (.leaving (hseen ▸ hover) (Table.get?_erase_self _ _) (hgiven ▸ hlen) ?_) fun hd _ => ?_
      · rw [hgiven, List.getLast?_concat]
        rfl
      · show _ = (lastSet? (v.after ..).seen).or initial
        rw [hseen, lastSet?_concat_error]
        exact hcached (undisturbed hd).1 rfl

private theorem Keeps.begun_pause (h : Keeps p j initial w v) {cursor : Cursor}
    (hw : w.service.watchers[j]? = some ⟨p.key, .pausing cursor⟩)
    (hp : w.pauses.get? j = none) (hs : w'.service = w.service) (htag : w'.tag = w.tag)
    (hq : w'.watchQueries = w.watchQueries) (hnow : w'.now = w.now) (hn : w'.notes = w.notes)
    (hpause : w'.pauses.get? j = some (w.now + w.service.watch.retryDelay.toMillisUp)) :
    Keeps p j initial w' (v.after j ⟨p.key, .pausing cursor⟩ w w') := by
  obtain ⟨-, hstand, hcached⟩ := h.standing hw
  have ha : (v.after j ⟨p.key, .pausing cursor⟩ w w').asked = v.asked :=
    after_asked ⟨[], hn, nofun⟩
  have hg : (v.after j ⟨p.key, .pausing cursor⟩ w w').given = v.given := after_given nofun
  cases hstand with
  | pausing _ _ _ hp' => cases hp.symm.trans hp'
  | failed hc hspent hout _ hl hlast =>
    have htime : p.time v.given = w.now + w.service.watch.retryDelay.toMillisUp := by
      rw [hlast, p.time_concat_error, h.watch]
    have hpausing : Stands p j w' v (.pausing cursor) := by
      refine .pausing hc hspent (hq ▸ hout) (htime ▸ hpause) hl ?_
      rw [hnow, htime]
      exact Nat.le_add_right _ _
    refine h.quiet (congrArg _ hs) (congrArg _ hs) htag ha hg (hs ▸ hw)
      (hpausing.congr rfl rfl rfl ha hg rfl) fun hd _ => ?_
    rw [hs, hcached (undisturbed hd).1 rfl]
    exact congrArg (fun given => (lastSet? (given.map Prod.snd)).or initial) hg.symm

private theorem Keeps.ended_pause (h : Keeps p j initial w v) {cursor : Cursor} {time : Nat}
    (hw : w.service.watchers[j]? = some ⟨p.key, .pausing cursor⟩)
    (hp : w.pauses.get? j = some time) (ht : time ≤ w.now) {s : Service ρ}
    {events : List (Event ρ)} {notes : List (Nat × Note ρ)}
    (hs : w.service.step (.resume j) = some (s, events)) (hn : w.Noted notes) :
    Keeps p j initial { w with service := s, pauses := w.pauses.erase j, notes := notes }
      (v.after j ⟨p.key, .pausing cursor⟩ w
        { w with service := s, pauses := w.pauses.erase j, notes := notes }) := by
  obtain ⟨-, hstand, hcached⟩ := h.standing hw
  have ha : (v.after j ⟨p.key, .pausing cursor⟩ w { w with
      service := s, pauses := w.pauses.erase j, notes := notes }).asked = v.asked :=
    after_asked hn
  have hg : (v.after j ⟨p.key, .pausing cursor⟩ w { w with
      service := s, pauses := w.pauses.erase j, notes := notes }).given = v.given :=
    after_given nofun
  cases hstand with
  | failed _ _ _ hp' => cases hp.symm.trans hp'
  | pausing hc hspent hout hp' hl hle =>
    cases hp.symm.trans hp'
    cases Service.transition_of_step hs with
    | resumed hw' =>
      cases hw.symm.trans hw'
      have hdue : Stands p j { w with
          service := w.service.setWatcher j ⟨p.key, .asking cursor⟩
          pauses := w.pauses.erase j
          notes := notes } v (.asking cursor) :=
        .due hc hspent hout (Table.get?_erase_self _ _) hl (Nat.le_antisymm hle ht)
      refine h.quiet rfl rfl rfl ha hg (Service.watchers_setWatcher hw)
        (hdue.congr rfl rfl rfl ha hg rfl) fun hd _ => ?_
      refine (hcached (undisturbed hd).1 rfl).trans ?_
      exact congrArg (fun given => (lastSet? (given.map Prod.snd)).or initial) hg.symm

/-- A move keeps the watcher to its plan. -/
theorem Keeps.moved (h : Keeps p j initial w v) {x : Watcher ρ}
    (hw : w.service.watchers[j]? = some x) (hb : w.watchQueries.get? j ≠ some .broken)
    (hm : w.moveWatcher j x = some w') : Keeps p j initial w' (v.after j x w w') := by
  cases World.watcherMove_of_moveWatcher hw hm with
  | acted hs hn => exact h.acted hw hs hn
  | asked hx _ hq =>
    cases hw.symm.trans hx
    cases (h.standing hw).1
    exact h.asked_query hw hq rfl rfl rfl (Table.get?_insert_self _ _ _) rfl
  | answered hx _ hq ha hs hn =>
    cases hw.symm.trans hx
    cases (h.standing hw).1
    exact h.shown_result hw hq ha hs hn
  | broke _ _ hq => exact absurd hq hb
  | recalled _ hc | roused _ hc => cases h.cancelled.symm.trans hc
  | pauseBegun hx _ hp =>
    cases hw.symm.trans hx
    cases (h.standing hw).1
    exact h.begun_pause hw hp rfl rfl rfl rfl rfl (Table.get?_insert_self _ _ _)
  | pauseEnded hx _ hp ht hs hn =>
    cases hw.symm.trans hx
    cases (h.standing hw).1
    exact h.ended_pause hw hp ht hs hn

/-! ### Everything else -/

omit [Registry σ] in
private theorem keeps_of_begins (h : w.Begins p j) :
    Keeps p j (w.service.cache.get? p.key) w ⟨[], [], none, false⟩ :=
  ⟨h.cancelled, h.watch, h.tag, nofun, nofun, .asking (.ofIndex p.start), h.watcher,
    .due (Cursor.describes_ofIndex p) p.not_spent_nil h.query h.pause rfl h.now, fun _ _ => rfl⟩

omit [Registry σ] in
private theorem Keeps.beside (h : Keeps p j initial w v) (hb : w.Beside j w') :
    Keeps p j initial w' { v with
      disturbed := v.disturbed || w'.service.cache.get? p.key != w.service.cache.get? p.key } := by
  obtain ⟨stage, hw, hstand, hcached⟩ := h.stands
  have hservice : w'.service.watchers[j]? = some ⟨p.key, stage⟩ ∧
      w'.service.watch = w.service.watch := by
    rcases hb.service with hs | ⟨a, events, hs, ha⟩
    · exact ⟨hs ▸ hw, congrArg _ hs⟩
    · have ht := Service.transition_of_step hs
      exact ⟨Service.watcher_of_task_ne ht ha hw, Service.watch_of_transition ht⟩
  refine ⟨hb.cancelled, hservice.2.trans h.watch, hb.tag.trans h.tag, h.asked, h.early, stage,
    hservice.1, hstand.congr hb.query hb.pause hb.now rfl rfl rfl, fun hd he => ?_⟩
  obtain ⟨hv, hsame⟩ := Bool.or_eq_false_iff.1 hd
  exact (by simpa using hsame : w'.service.cache.get? p.key = _).trans (hcached hv he)

private theorem Keeps.waited (h : Keeps p j initial w v) {x : Watcher ρ}
    (hw : w.service.watchers[j]? = some x) (hm : w.moveWatcher j x = none) (millis : Nat)
    (hp : ∀ time, w.pauses.get? j = some time → w.now + millis ≤ time) :
    Keeps p j initial { w with now := w.now + millis } v := by
  obtain ⟨stage, hx, hstand, hcached⟩ := h.stands
  cases hw.symm.trans hx
  refine ⟨h.cancelled, h.watch, h.tag, h.asked, h.early, stage, hw, ?_, hcached⟩
  rcases World.waits_of_moveWatcher hw hm with ho | ⟨-, hwaits⟩
  · cases hstand with
    | ended hs hq hl hv => exact .ended hs hq hl hv
    | _ => cases ho
  rcases hwaits with ⟨cursor, q, rfl, hq, -, -⟩ | ⟨cursor, time, rfl, hpause, -⟩
  · cases hstand with
    | due _ _ hnone => cases hq.symm.trans hnone
    | out hc hs _ hnone hl => exact .out hc hs hq hnone hl
  · cases hstand with
    | failed _ _ _ hnone => cases hpause.symm.trans hnone
    | pausing hc hs hout hpause' hl _ => exact .pausing hc hs hout hpause' hl (hp _ hpause')

/-- The watcher keeps to its plan all along. -/
theorem Leads.keeps {w₀ : World σ ρ} (h : Leads p j w₀ w v) :
    Keeps p j (w₀.service.cache.get? p.key) w v := by
  induction h with
  | begun h => exact keeps_of_begins h
  | moved _ hw hb hm ih => exact ih.moved hw hb hm
  | beside _ hb ih => exact ih.beside hb
  | waited _ hw hm millis hp ih => exact ih.waited hw hm millis hp

end Vigil

end ServiceDiscovery
