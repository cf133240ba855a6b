import ServiceDiscovery.Config.Environment
import ServiceDiscovery.Json.Printer
import ServiceDiscovery.Proofs.Http.Timeout
import ServiceDiscovery.Proofs.Service.Breakdown
import ServiceDiscovery.Proofs.Service.Departure
import ServiceDiscovery.Proofs.Simulation.Move
import ServiceDiscovery.Url.Latin

/-!
# A service behind HTTP

Watchers whose registry is an agent behind HTTP. If the time to wait for a blocking query is a
duration, every query is answered or fails, and a watcher ends by the release of its key and in no
other way. If it is none, every query breaks down as soon as it is made: the watcher is gone without
a release, and the claim of its key is never given back.
-/

namespace ServiceDiscovery

variable {ρ : Type} {client : AgentClient} {watch : WatchConfig}

namespace LinkedAgent

/-- A query that does not break down is given its answer at once. -/
theorem query_of_some [Url.Idna] {a : LinkedAgent} {q : HealthQuery}
    {answer : Except Failure Answer} (h : a.client.health? a.link q = some answer) (now : Nat) :
    Registry.query now q a = (.given now answer, a) := by
  simp only [Registry.query, h]

/-- A query that breaks down does so at once. -/
theorem query_of_none [Url.Idna] {a : LinkedAgent} {q : HealthQuery}
    (h : a.client.health? a.link q = none) (now : Nat) : Registry.query now q a = (.broken, a) := by
  simp only [Registry.query, h]

/-- An answer that was fixed when the query was made is due from then on. -/
theorem answer?_given [Url.Idna] {time now : Nat} (h : time ≤ now) (answer : Except Failure Answer)
    (a : LinkedAgent) : Registry.answer? now (.given time answer) a = some answer := if_pos h

end LinkedAgent

namespace World

/-- The worlds of a service over an agent's client. Tasks move and callers call in any order, time
passes, and the network may be another one at any time. -/
inductive Online [Url.Idna] (client : AgentClient) (watch : WatchConfig) :
    World LinkedAgent ρ → Prop
  /-- A service has just been started. -/
  | start (link : Link) (tag : Option String) (agent : Agent) :
      Online client watch (.start ⟨client, link⟩ tag (.start client.base agent watch))
  /-- A lookup moves. -/
  | lookup {w w' : World LinkedAgent ρ} {i : Nat} {l : Lookup ρ} (h : Online client watch w)
      (hl : w.service.lookups[i]? = some l) (hm : w.moveLookup i l = some w') :
      Online client watch w'
  /-- A watcher moves. -/
  | watcher {w w' : World LinkedAgent ρ} {j : Nat} {x : Watcher ρ} (h : Online client watch w)
      (hw : w.service.watchers[j]? = some x) (hm : w.moveWatcher j x = some w') :
      Online client watch w'
  /-- A shutdown goes on, or a caller does something. -/
  | outside {w w' : World LinkedAgent ρ} {a : Action ρ} (h : Online client watch w)
      (ha : a.task? = none) (hm : w.act? a = some w') : Online client watch w'
  /-- The network is another one. -/
  | network {w : World LinkedAgent ρ} (h : Online client watch w) (link : Link) :
      Online client watch { w with registry := ⟨client, link⟩ }
  /-- Time passes. -/
  | wait {w : World LinkedAgent ρ} (h : Online client watch w) (millis : Nat) :
      Online client watch { w with now := w.now + millis }

/-- What is always true of a service behind HTTP. -/
structure Linked (client : AgentClient) (watch : WatchConfig) (w : World LinkedAgent ρ) : Prop where
  sameClient : w.registry.client = client
  sameWatch : w.service.watch = watch
  attained : w.service.Attained
  /-- If the time fits, nothing has broken down. -/
  reached : client.Fits watch.waitTime → w.service.Reached
  /-- If the time fits, a query that is out has its answer. -/
  given : client.Fits watch.waitTime → ∀ j p, w.watchQueries.get? j = some p →
    ∃ time answer, p = .given time answer ∧ time ≤ w.now
  /-- If the time does not fit, a query that is out has broken down. -/
  broken : ¬ client.Fits watch.waitTime → ∀ j p, w.watchQueries.get? j = some p → p = .broken

variable {w w' : World LinkedAgent ρ}

private theorem Linked.step (h : Linked client watch w) {a : Action ρ} {s : Service ρ}
    {events : List (Event ρ)} (hs : w.service.step a = some (s, events)) (ha : ∀ j, a ≠ .crash j)
    (hserv : w'.service = s) (hreg : w'.registry = w.registry) (hnow : w'.now = w.now)
    (hq : ∀ j p, w'.watchQueries.get? j = some p → w.watchQueries.get? j = some p) :
    Linked client watch w' := by
  subst hserv
  constructor
  · rw [hreg, h.sameClient]
  · rw [Service.watch_of_transition (Service.transition_of_step hs), h.sameWatch]
  · exact h.attained.step hs
  · intro hf
    exact (h.reached hf).step ha hs
  · intro hf j p hp
    rw [hnow]
    exact h.given hf j p (hq j p hp)
  · intro hf j p hp
    exact h.broken hf j p (hq j p hp)

private theorem get?_of_get?_erase {queries : Table Nat Pending} {j k : Nat} {p : Pending}
    (h : (queries.erase j).get? k = some p) : queries.get? k = some p := by
  rw [Table.get?_erase] at h
  split at h
  · cases h
  · exact h

private theorem Linked.lookupMove [Url.Idna] (h : Linked client watch w) {i : Nat}
    (hm : LookupMove w i w') : Linked client watch w' := by
  cases hm with
  | acted hs => exact h.step hs nofun rfl rfl rfl fun _ _ hp => hp
  | answered _ _ hs => exact h.step hs nofun rfl rfl rfl fun _ _ hp => hp
  | asked _ _ => exact ⟨h.sameClient, h.sameWatch, h.attained, h.reached, h.given, h.broken⟩

private theorem Linked.asked [Url.Idna] (h : Linked client watch w) (j : Nat) (key : Key)
    (index : Nat) (notes : List (Nat × Note ρ)) :
    Linked client watch
      { w with
        registry := (Registry.query w.now
          (.blocking w.tag key index w.service.watch.waitTime) w.registry).2
        watchQueries := w.watchQueries.insert j (Registry.query w.now
          (.blocking w.tag key index w.service.watch.waitTime) w.registry).1
        notes := notes } := by
  have hiff : (w.registry.client.health? w.registry.link
      (.blocking w.tag key index w.service.watch.waitTime)).isSome = true ↔
        client.Fits watch.waitTime := by
    rw [AgentClient.health?_isSome_iff (HealthQuery.waitTime_blocking _ _ _ _), h.sameClient,
      h.sameWatch]
  refine ⟨h.sameClient, h.sameWatch, h.attained, h.reached, fun hf k p hp => ?_,
    fun hf k p hp => ?_⟩
  · rw [Table.get?_insert] at hp
    split at hp
    · obtain ⟨answer, ha⟩ := Option.isSome_iff_exists.1 (hiff.2 hf)
      rw [LinkedAgent.query_of_some ha] at hp
      cases hp
      exact ⟨w.now, answer, rfl, Nat.le_refl _⟩
    · exact h.given hf k p hp
  · rw [Table.get?_insert] at hp
    split at hp
    · rw [LinkedAgent.query_of_none (Option.not_isSome_iff_eq_none.1 (mt hiff.1 hf))] at hp
      cases hp
      rfl
    · exact h.broken hf k p hp

private theorem Linked.watcherMove [Url.Idna] (h : Linked client watch w) {j : Nat}
    (hm : WatcherMove w j w') : Linked client watch w' := by
  cases hm with
  | acted hs _ => exact h.step hs nofun rfl rfl rfl fun _ _ hp => hp
  | asked _ _ _ => exact h.asked j _ _ _
  | answered _ _ _ _ hs _ => exact h.step hs nofun rfl rfl rfl fun _ _ => get?_of_get?_erase
  | recalled _ _ hs _ => exact h.step hs nofun rfl rfl rfl fun _ _ => get?_of_get?_erase
  | roused _ _ hs _ => exact h.step hs nofun rfl rfl rfl fun _ _ hp => hp
  | pauseEnded _ _ _ _ hs _ => exact h.step hs nofun rfl rfl rfl fun _ _ hp => hp
  | pauseBegun _ _ _ => exact ⟨h.sameClient, h.sameWatch, h.attained, h.reached, h.given, h.broken⟩
  | broke _ _ hq hs _ =>
    refine ⟨h.sameClient, ?_, h.attained.step hs, fun hf => ?_, h.given, h.broken⟩
    · exact (Service.watch_of_transition (Service.transition_of_step hs)).trans h.sameWatch
    · obtain ⟨time, answer, hp, -⟩ := h.given hf j _ hq
      cases hp

/-- All this is true of every service behind HTTP. -/
theorem Online.linked [Url.Idna] (h : Online client watch w) : Linked client watch w := by
  induction h with
  | start link tag agent =>
    have hstart : (Service.start client.base agent watch : Service ρ).Reached := .start _ _ _
    refine ⟨rfl, rfl, hstart.attained, fun _ => hstart, fun _ j p hp => ?_, fun _ j p hp => ?_⟩
    · cases hp
    · cases hp
  | lookup _ hl hm ih => exact ih.lookupMove (lookupMove_of_moveLookup hl hm)
  | watcher _ hw hm ih => exact ih.watcherMove (watcherMove_of_moveWatcher hw hm)
  | outside _ ha hm ih =>
    obtain ⟨s, events, notes, hs, -, rfl⟩ := step_of_act? hm
    refine ih.step hs (fun j he => ?_) rfl rfl rfl fun _ _ hp => hp
    rw [he] at ha
    cases ha
  | network _ link ih => exact ⟨rfl, ih.sameWatch, ih.attained, ih.reached, ih.given, ih.broken⟩
  | wait _ millis ih =>
    refine ⟨ih.sameClient, ih.sameWatch, ih.attained, ih.reached, fun hf j p hp => ?_, ih.broken⟩
    obtain ⟨time, answer, he, hle⟩ := ih.given hf j p hp
    exact ⟨time, answer, he, Nat.le_add_right_of_le hle⟩

/-- Every move of a service behind HTTP leads to one. -/
theorem Online.move? [Url.Idna] (h : Online client watch w) (hm : w.move? = some w') :
    Online client watch w' := by
  rcases exists_of_move? hm with ⟨i, l, hl, hm⟩ | ⟨j, x, hw, hm⟩ | ⟨k, hm⟩
  · exact h.lookup hl hm
  · exact h.watcher hw hm
  · exact h.outside rfl hm

/-- So do all moves that are possible at a time. -/
theorem Online.settleFrom [Url.Idna] (h : Online client watch w) (fuel : Nat) :
    Online client watch (w.settleFrom fuel) := by
  induction fuel generalizing w with
  | zero => exact h
  | succ fuel ih =>
    simp only [World.settleFrom]
    split
    · next next hm => exact ih (h.move? hm)
    · exact h

/-! ### When the time fits -/

private theorem Linked.can_move [Url.Idna] (h : Linked client watch w)
    (hf : client.Fits watch.waitTime) {j : Nat} {x : Watcher ρ}
    (hw : w.service.watchers[j]? = some x) (ho : x.isOver = false) :
    (∃ w', w.moveWatcher j x = some w') ∨ ∃ cursor time, x.stage = .pausing cursor ∧
      w.pauses.get? j = some time ∧ w.now < time := by
  cases hm : w.moveWatcher j x with
  | some w' => exact Or.inl ⟨w', rfl⟩
  | none =>
    rcases waits_of_moveWatcher hw hm with ho' | ⟨-, ⟨_, p, -, hq, -, ha⟩ | hpause⟩
    · rw [ho] at ho'
      cases ho'
    · obtain ⟨time, answer, rfl, ht⟩ := h.given hf j p hq
      rw [LinkedAgent.answer?_given ht] at ha
      cases ha
    · exact Or.inr hpause

private theorem Linked.released [Url.Idna] (h : Linked client watch w)
    (hf : client.Fits watch.waitTime) {j : Nat} {x y : Watcher ρ}
    (hw : w.service.watchers[j]? = some x) (ho : x.isOver = false)
    (hm : WatcherMove w j w') (hw' : w'.service.watchers[j]? = some y) (ho' : y.isOver = true) :
    w'.service.cache = w.service.cache.release x.key := by
  rcases hm.service with he | ⟨a, events, hs, -, hcrash⟩
  · rw [he, hw] at hw'
    cases hw'
    rw [ho] at ho'
    cases ho'
  · rcases Service.over_source (Service.transition_of_step hs) hw' ho' with
      hold | ha | ⟨_, _, _, hold, hcache⟩
    · rw [hw] at hold
      cases hold
      rw [ho] at ho'
      cases ho'
    · obtain ⟨_, _, hp, -⟩ := h.given hf j _ (hcrash ha)
      cases hp
    · rw [hw] at hold
      cases hold
      exact hcache

/-! ### When the time does not fit -/

private theorem Online.breaks [Url.Idna] (h : Online client watch w) {j : Nat} {key : Key}
    {cursor : Cursor} (hw : w.service.watchers[j]? = some ⟨key, .asking cursor⟩)
    (hc : w.service.cancelled = false) (hq : w.watchQueries.get? j = some .broken) :
    ∃ v, Online client watch v ∧ w.moveWatcher j ⟨key, .asking cursor⟩ = some v ∧
      v.service = w.service.setWatcher j ⟨key, .crashed⟩ := by
  have hstep := Service.step_of_transition (.crashed hw)
  have hmove : w.moveWatcher j ⟨key, .asking cursor⟩ = w.act? (.crash j) :=
    moveWatcher_of_broken hc hq
  obtain ⟨v, hv⟩ := Option.isSome_iff_exists.1 (show (w.act? (.crash j)).isSome = true by
    simp [act?, hstep])
  obtain ⟨s, events, notes, hs, -, rfl⟩ := step_of_act? hv
  rw [hstep] at hs
  cases hs
  exact ⟨_, h.watcher hw (hmove.trans hv), hmove.trans hv, rfl⟩

/-- What becomes of the watchers of a service behind HTTP, whatever the network does. If the time to
wait for a blocking query is a duration, every query is answered or fails; no watcher is ever stuck
but for its pauses, each ends by the release of its key, and one that was cancelled gets there by
itself. If the time is no duration, every query breaks down; the watcher that made it is gone with
its next moves, and from then on its key is watched for good and nobody holds the claim. -/
theorem watchers_online [Url.Idna] (client : AgentClient) (watch : WatchConfig) :
    (client.Fits watch.waitTime →
      (∀ link tag key index,
        (client.health? link (.blocking tag key index watch.waitTime)).isSome = true) ∧
      ∀ w : World LinkedAgent ρ, Online client watch w →
        w.service.Reached ∧ ∀ j x, w.service.watchers[j]? = some x →
          (x.isOver = true → ∃ exit, x.stage = .ended exit) ∧
          (x.isOver = false →
            ((∃ w', w.moveWatcher j x = some w') ∨ ∃ cursor time, x.stage = .pausing cursor ∧
              w.pauses.get? j = some time ∧ w.now < time) ∧
            (∀ w' y, w.moveWatcher j x = some w' → w'.service.watchers[j]? = some y →
              y.isOver = true → w'.service.cache = w.service.cache.release x.key) ∧
            (w.service.cancelled = true → ∃ s', w.service.Departs j x.key s'))) ∧
    (¬ client.Fits watch.waitTime →
      (∀ link tag key index, client.health? link (.blocking tag key index watch.waitTime) = none) ∧
      ∀ w : World LinkedAgent ρ, Online client watch w → w.service.cancelled = false →
        ∀ j key cursor, w.service.watchers[j]? = some ⟨key, .asking cursor⟩ →
          ∃ u v, (u = w ∨ w.moveWatcher j ⟨key, .asking cursor⟩ = some u) ∧
            u.moveWatcher j ⟨key, .asking cursor⟩ = some v ∧
            v.service = w.service.setWatcher j ⟨key, .crashed⟩ ∧
            ∀ actions s' events, v.service.run actions = some (s', events) →
              s'.watchers[j]? = some ⟨key, .crashed⟩ ∧ key ∈ s'.cache.watching ∧
                ∀ t, s'.held? t ≠ some key) := by
  have hiff (link : Link) (tag : Option String) (key : Key) (index : Nat) :
      (client.health? link (.blocking tag key index watch.waitTime)).isSome = true ↔
        client.Fits watch.waitTime :=
    AgentClient.health?_isSome_iff (HealthQuery.waitTime_blocking _ _ _ _) link
  refine ⟨fun hf => ⟨fun link tag key index => (hiff link tag key index).2 hf, ?_⟩,
    fun hf => ⟨fun link tag key index => ?_, ?_⟩⟩
  · intro w h
    have hl := h.linked
    refine ⟨hl.reached hf, fun j x hw => ⟨(hl.reached hf).ended hw, fun ho => ⟨?_, ?_, ?_⟩⟩⟩
    · exact hl.can_move hf hw ho
    · intro w' y hm hw' ho'
      exact hl.released hf hw ho (watcherMove_of_moveWatcher hw hm) hw' ho'
    · exact fun hc => Service.exists_departure hc hw ho
  · exact Option.not_isSome_iff_eq_none.1 (mt (hiff link tag key index).1 hf)
  · intro w h hc j key cursor hw
    obtain ⟨u, hu, hou, hwu, hcu, hqu⟩ : ∃ u, Online client watch u ∧
        (u = w ∨ w.moveWatcher j ⟨key, .asking cursor⟩ = some u) ∧ u.service = w.service ∧
          u.service.cancelled = false ∧ u.watchQueries.get? j = some .broken := by
      cases hq : w.watchQueries.get? j with
      | some p => exact ⟨w, h, Or.inl rfl, rfl, hc, hq.trans (by rw [h.linked.broken hf j p hq])⟩
      | none =>
        obtain ⟨u, hm, hs, hq'⟩ := moveWatcher_of_none key cursor hc hq
        have hu : Online client watch u := h.watcher hw hm
        exact ⟨u, hu, Or.inr hm, hs, hs ▸ hc, hq'.trans (by rw [hu.linked.broken hf j _ hq'])⟩
    obtain ⟨v, hv, hm, hs⟩ := hu.breaks (by rw [hwu, hw]) hcu hqu
    refine ⟨u, v, hou, hm, by rw [hs, hwu], fun actions s' events hr => ?_⟩
    have hj : j < w.service.watchers.length := (List.getElem?_eq_some_iff.1 hw).1
    have hcrashed : v.service.watchers[j]? = some ⟨key, .crashed⟩ := by
      rw [hs, hwu]
      exact List.getElem?_set_self hj
    exact hv.linked.attained.watched_of_run hcrashed hr

/-- An environment that lets queries be held for as many seconds as can be counted. -/
def longestWait : Environment := fun name =>
  if name = "BEACON_WAIT_TIME_SECS" then some (Utf8.encode "18446744073709551615".toList) else none

/-- The configuration that this environment asks for. -/
def longestConfig : Config :=
  { Config.standard with watch := .withWaitTime .standard (.ofSeconds 18446744073709551615) }

/-- The client under this configuration. -/
def longestClient : AgentClient := ⟨"http://127.0.0.1:8500", .ofSeconds 10⟩

/-- A network that answers every request with one instance. -/
def loneInstance : Link := fun _ =>
  some ⟨200, [(AgentClient.indexHeader, Utf8.encode ['5'])],
    some (Utf8.encode (Json.write (.array [(Entry.ofAddress "api" "10.0.0.1" 80).toJson])))⟩

section

open scoped Url.Latin

/-- A service under this configuration that has just resolved a name and started its watcher. -/
def resolvedOnce : World LinkedAgent Unit :=
  ((start ⟨longestClient, loneInstance⟩ none
    (.start longestClient.base default longestConfig.watch)).act (.resolve "api")).settleFrom 7

private theorem online_resolvedOnce : Online longestClient longestConfig.watch resolvedOnce :=
  ((Online.start loneInstance none default).outside (a := .resolve "api") rfl rfl).settleFrom 7

set_option maxRecDepth 1000 in
private theorem watchers_resolvedOnce :
    resolvedOnce.service.watchers[0]? = some ⟨.ofName "api", .asking ⟨5, 0⟩⟩ := rfl

set_option maxRecDepth 1000 in
private theorem cancelled_resolvedOnce : resolvedOnce.service.cancelled = false := rfl

/-- Under the standard configuration the time fits and no watcher breaks down. Under the one that
the environment asks for it does not: the first watcher breaks down with its first query, and its
key stays watched for good. -/
theorem watchers_online_longest :
    longestClient.Fits WatchConfig.standard.waitTime ∧
      (∀ w : World LinkedAgent Unit, Online longestClient .standard w → w.service.Reached) ∧
      Config.ofEnvironment longestWait = .ok longestConfig ∧
      AgentClient.ofConfig longestConfig = .ok longestClient ∧
      ¬ longestClient.Fits longestConfig.watch.waitTime ∧
      ∃ u v, (u = resolvedOnce ∨
          resolvedOnce.moveWatcher 0 ⟨.ofName "api", .asking ⟨5, 0⟩⟩ = some u) ∧
        u.moveWatcher 0 ⟨.ofName "api", .asking ⟨5, 0⟩⟩ = some v ∧
        ∀ actions s' events, v.service.run actions = some (s', events) →
          Key.ofName "api" ∈ s'.cache.watching ∧ ∀ t, s'.held? t ≠ some (.ofName "api") := by
  have hfits : longestClient.Fits WatchConfig.standard.waitTime := by decide
  have hlongest : ¬ longestClient.Fits longestConfig.watch.waitTime := by decide
  obtain ⟨hstandard, -⟩ := @watchers_online Unit _ longestClient .standard
  obtain ⟨-, hbroken⟩ := @watchers_online Unit _ longestClient longestConfig.watch
  obtain ⟨u, v, hu, hv, -, hlater⟩ := (hbroken hlongest).2 resolvedOnce online_resolvedOnce
    cancelled_resolvedOnce 0 _ _ watchers_resolvedOnce
  refine ⟨hfits, fun w h => ((hstandard hfits).2 w h).1, rfl, rfl, hlongest, u, v, hu, hv, ?_⟩
  intro actions s' events hr
  exact (hlater actions s' events hr).2

end

end World

end ServiceDiscovery
