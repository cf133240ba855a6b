import ServiceDiscovery.Proofs.Retry.Attempts
import ServiceDiscovery.Proofs.Service.Aftermath
import ServiceDiscovery.Proofs.Service.Departure
import ServiceDiscovery.Proofs.Service.Subjects
import ServiceDiscovery.Service.Startup

/-!
# The gate of a start

What a start has to have seen before it returns. What is seen of it is recorded beside it: the
reports of the agent, the lookups it calls and what they return. It returns a service only after the
agent has reported and every service that is waited for has resolved, in the listed order and each
within the retry policy. If an operation fails for good, its last failure is returned, nothing is
looked up any more, and the abandoned service is shut down first.
-/

namespace ServiceDiscovery

variable {ρ : Type}

/-- What is seen of a start. -/
structure StartRecord where
  /-- What the inspections of the agent gave. -/
  reports : List (Except Failure Agent)
  /-- The names that were looked up. -/
  called : List String
  /-- What the lookups returned, each under its name. -/
  returned : List (String × Except Failure EndpointSet)

namespace StartRecord

/-- Nothing was seen yet. -/
def empty : StartRecord := ⟨[], [], []⟩

/-- The record after a step of a start. -/
def after (r : StartRecord) (s : Startup ρ) (a : StartAction ρ) : StartRecord :=
  match a, s.phase with
  | .inspected result, .inspecting _ => { r with reports := r.reports ++ [result] }
  | .proceed, .gating _ (name :: _) (.calling _) => { r with called := r.called ++ [name] }
  | .proceed, .gating service (name :: _) (.waiting _ i) =>
    { r with
      returned := r.returned ++
        ((service.lookups[i]?.bind Lookup.result?).map fun result => (name, result)).toList }
  | _, _ => r

/-- Services that have resolved one after the other, each within the retry policy and to a set that
is not empty, and what the lookups returned. -/
inductive Passed (p : RetryPolicy) :
    List String → List (String × Except Failure EndpointSet) → Prop
  /-- No service. -/
  | none : Passed p [] []
  /-- One service more. -/
  | concat {names : List String} {returned : List (String × Except Failure EndpointSet)}
      {name : String} {outcomes : List (Except Failure EndpointSet)} {set : EndpointSet}
      (h : Passed p names returned) (ht : p.Tried outcomes (.ok set))
      (hs : set.isEmpty = false) :
      Passed p (names ++ [name]) (returned ++ outcomes.map fun o => (name, o))

/-- The agent has reported, and all services that are waited for have resolved. -/
structure Complete (config : Config) (agent : Agent) (r : StartRecord) : Prop where
  reported : config.connectRetry.Tried r.reports (.ok agent)
  passed : Passed config.connectRetry config.waitServices r.returned
  called : r.called = r.returned.map Prod.fst

/-- The agent has reported, some services have resolved, and a service has been looked up with the
given outcomes. -/
structure UpTo (config : Config) (agent : Agent) (earlier : List String) (name : String)
    (later : List String) (outcomes : List (Except Failure EndpointSet)) (r : StartRecord) :
    Prop where
  reported : config.connectRetry.Tried r.reports (.ok agent)
  listed : config.waitServices = earlier ++ name :: later
  returned : ∃ passed, Passed config.connectRetry earlier passed ∧
    r.returned = passed ++ outcomes.map fun o => (name, o)

end StartRecord

namespace Startup

/-- The runs of a start until it returns, each with what is seen of it. While it lasts, the tasks of
the service do steps of their own, and nobody else has the service. -/
inductive Course (s₀ : Startup ρ) (r₀ : StartRecord) : Startup ρ → StartRecord → Prop
  /-- No step. -/
  | none : Course s₀ r₀ s₀ r₀
  /-- One step more. -/
  | step {s s' : Startup ρ} {r : StartRecord} {a : StartAction ρ} {events : List (Event ρ)}
      (h : Course s₀ r₀ s r) (hr : s.result? = .none) (ha : ∀ b, a = .service b → b.IsOwn)
      (hs : s.step a = some (s', events)) : Course s₀ r₀ s' (r.after s a)

/-- The failure that a start returns, or will return when the service is shut down. -/
def failure? (s : Startup ρ) : Option Failure :=
  match s.phase with
  | .refused f | .gating _ _ (.leaving f _) | .abandoned f _ => some f
  | _ => none

end Startup

namespace StartRecord

/-- The service while it starts: no lookup but the busy one is under way, and there are as many
shutdown calls as the start has made. -/
structure Serves (r : StartRecord) (service : Service ρ) (busy : Option Nat) (calls : Nat) :
    Prop where
  attained : service.Attained
  fruitful : service.Fruitful
  concerns : service.Concerns r.called
  settled : service.Settled busy
  shutdowns : service.shutdowns.length = calls

/-- The record is one that leads a start to a phase. -/
inductive Shows (config : Config) (r : StartRecord) : StartPhase ρ → Prop
  /-- The agent is being inspected. -/
  | inspecting {attempt : UInt32} (ht : config.connectRetry.Trying attempt r.reports)
      (hc : r.called = []) (hr : r.returned = []) : Shows config r (.inspecting attempt)
  /-- The agent will be inspected again. -/
  | resting {attempt : UInt32} {pause : Duration}
      (ht : config.connectRetry.Trying (attempt + 1) r.reports) (hc : r.called = [])
      (hr : r.returned = []) : Shows config r (.resting attempt pause)
  /-- The agent did not report. -/
  | refused {f : Failure} (ht : config.connectRetry.Tried r.reports (.error f))
      (hc : r.called = []) (hr : r.returned = []) : Shows config r (.refused f)
  /-- All services have resolved. -/
  | passed {service : Service ρ} {attempt : UInt32} (hu : r.Complete config service.agent)
      (hv : r.Serves service .none 0) : Shows config r (.gating service [] (.calling attempt))
  /-- A service is to be looked up. -/
  | calling {service : Service ρ} {earlier later : List String} {name : String}
      {outcomes : List (Except Failure EndpointSet)} {attempt : UInt32}
      (hu : r.UpTo config service.agent earlier name later outcomes)
      (ht : config.connectRetry.Trying attempt outcomes) (hc : r.called = r.returned.map Prod.fst)
      (hv : r.Serves service .none 0) :
      Shows config r (.gating service (name :: later) (.calling attempt))
  /-- A lookup is out. -/
  | waiting {service : Service ρ} {earlier later : List String} {name : String}
      {outcomes : List (Except Failure EndpointSet)} {attempt : UInt32} {i : Nat}
      (hu : r.UpTo config service.agent earlier name later outcomes)
      (ht : config.connectRetry.Trying attempt outcomes)
      (hc : r.called = r.returned.map Prod.fst ++ [name]) (hv : r.Serves service (some i) 0) :
      Shows config r (.gating service (name :: later) (.waiting attempt i))
  /-- A service will be looked up again. -/
  | pausing {service : Service ρ} {earlier later : List String} {name : String}
      {outcomes : List (Except Failure EndpointSet)} {attempt : UInt32} {pause : Duration}
      (hu : r.UpTo config service.agent earlier name later outcomes)
      (ht : config.connectRetry.Trying (attempt + 1) outcomes)
      (hc : r.called = r.returned.map Prod.fst) (hv : r.Serves service .none 0) :
      Shows config r (.gating service (name :: later) (.pausing attempt pause))
  /-- A service did not resolve, and the shutdown goes on. -/
  | leaving {service : Service ρ} {earlier later : List String} {name : String}
      {outcomes : List (Except Failure EndpointSet)} {f : Failure}
      (hu : r.UpTo config service.agent earlier name later outcomes)
      (ht : config.connectRetry.Tried outcomes (.error f))
      (hc : r.called = r.returned.map Prod.fst) (hv : r.Serves service .none 1) :
      Shows config r (.gating service (name :: later) (.leaving f 0))
  /-- The start has returned the service. -/
  | ready {service : Service ρ} (hu : r.Complete config service.agent)
      (hv : r.Serves service .none 0) : Shows config r (.ready service)
  /-- The start has returned a failure after the shutdown. -/
  | abandoned {service : Service ρ} {earlier later : List String} {name : String}
      {outcomes : List (Except Failure EndpointSet)} {f : Failure}
      (hu : r.UpTo config service.agent earlier name later outcomes)
      (ht : config.connectRetry.Tried outcomes (.error f))
      (hc : r.called = r.returned.map Prod.fst) (hv : r.Serves service .none 1)
      (hd : service.shutdowns = [.returned]) : Shows config r (.abandoned f service)

variable {r : StartRecord} {config : Config} {service next : Service ρ} {busy : Option Nat}
  {calls : Nat} {earlier later : List String} {name : String}
  {outcomes : List (Except Failure EndpointSet)}

/-! ### The service of a start -/

/-- A new service has done nothing. -/
theorem serves_start (r : StartRecord) (registry : String) (agent : Agent) (watch : WatchConfig) :
    r.Serves (.start registry agent watch : Service ρ) .none 0 :=
  ⟨.start registry agent watch, nofun, ⟨nofun, nofun⟩, nofun, rfl⟩

/-- A step of the service's own tasks, or of a shutdown. -/
theorem Serves.of_step (h : r.Serves service busy calls) {a : Action ρ} {events : List (Event ρ)}
    (hs : service.step a = some (next, events)) (ha : a.IsOwn) : r.Serves next busy calls := by
  have ht := Service.transition_of_step hs
  obtain ⟨hcall, hshut⟩ := ha.not_outside
  exact ⟨h.attained.step hs, h.fruitful.of_transition ht,
    h.concerns.of_transition ht fun name hn => absurd hn (hcall name),
    h.settled.of_transition ht hcall, (Service.length_shutdowns_of_transition ht hshut).trans
      h.shutdowns⟩

private theorem Serves.called (h : r.Serves service .none calls) (name : String) :
    { r with called := r.called ++ [name] }.Serves
      { service with lookups := service.lookups ++ [Lookup.arriving name] }
      (some service.lookups.length) calls where
  attained := h.attained.step (a := .resolve name) rfl
  fruitful := h.fruitful.of_transition (.called name)
  concerns := by
    have ht := Service.Transition.called (s := service) name
    refine (h.concerns.mono (List.subset_append_left _ _)).of_transition ht fun other ho => ?_
    cases ho
    exact List.mem_concat_self
  settled i l hl hi := by
    rw [List.getElem?_append] at hl
    split at hl
    · exact h.settled i l hl nofun
    · next hge =>
      rw [List.getElem?_singleton] at hl
      split at hl
      · next heq =>
        refine absurd (congrArg some ?_) hi
        omega
      · cases hl
  shutdowns := h.shutdowns

private theorem Serves.returned {i : Nat} (h : r.Serves service (some i) calls)
    {result : Except Failure EndpointSet} (hl : service.lookups[i]? = some (.finished result))
    (returned : List (String × Except Failure EndpointSet)) :
    { r with returned := returned }.Serves service .none calls where
  attained := h.attained
  fruitful := h.fruitful
  concerns := h.concerns
  settled k l hk _ := by
    by_cases he : i = k
    · subst he
      exact ⟨result, Option.some.inj (hk.symm.trans hl)⟩
    · exact h.settled k l hk fun hi => he (Option.some.inj hi)
  shutdowns := h.shutdowns

private theorem Serves.shutdown (h : r.Serves service .none 0) :
    r.Serves { service with shutdowns := service.shutdowns ++ [.cancelling] } .none 1 where
  attained := h.attained.step (a := .callShutdown) rfl
  fruitful := h.fruitful.of_transition .shutdownCalled
  concerns := h.concerns.of_transition .shutdownCalled nofun
  settled := h.settled
  shutdowns := by
    rw [List.length_append, h.shutdowns]
    rfl

/-! ### The steps of a start -/

private theorem UpTo.concat {agent : Agent} (h : r.UpTo config agent earlier name later outcomes)
    (result : Except Failure EndpointSet) :
    { r with returned := r.returned ++ [(name, result)] }.UpTo config agent earlier name later
      (outcomes ++ [result]) := by
  obtain ⟨passed, hp, hr⟩ := h.returned
  refine ⟨h.reported, h.listed, passed, hp, ?_⟩
  rw [hr, List.map_append, List.append_assoc]
  rfl

/-- A service that was looked up with success has resolved. -/
theorem UpTo.passed {agent : Agent} (h : r.UpTo config agent earlier name later outcomes)
    {set : EndpointSet} (ht : config.connectRetry.Tried outcomes (.ok set))
    (hs : set.isEmpty = false) : Passed config.connectRetry (earlier ++ [name]) r.returned := by
  obtain ⟨passed, hp, hr⟩ := h.returned
  exact hr ▸ hp.concat ht hs

/-- When some services have resolved, the next one is to be looked up, if there is one. -/
theorem shows_calling (hr : config.connectRetry.Tried r.reports (.ok service.agent))
    (hl : config.waitServices = earlier ++ later)
    (hp : Passed config.connectRetry earlier r.returned) (hc : r.called = r.returned.map Prod.fst)
    (hv : r.Serves service .none 0) : r.Shows config (.gating service later (.calling 0)) := by
  cases later with
  | nil =>
    rw [List.append_nil] at hl
    exact .passed ⟨hr, hl ▸ hp, hc⟩ hv
  | cons name rest =>
    exact .calling ⟨hr, hl, r.returned, hp, (List.append_nil _).symm⟩ (.first _) hc hv

private theorem shows_afterInspection {s : Startup ρ} {attempt : UInt32}
    (ht : s.config.connectRetry.Trying attempt r.reports) (hc : r.called = [])
    (hr : r.returned = []) (result : Except Failure Agent) :
    { r with reports := r.reports ++ [result] }.Shows s.config
      (s.afterInspection attempt result) := by
  cases result with
  | ok agent =>
    have hl : s.config.waitServices = [] ++ s.config.waitServices := rfl
    refine shows_calling (ht.succeeded agent) hl ?_ ?_ (serves_start ..)
    · exact hr ▸ Passed.none
    · rw [hc, hr]
      rfl
  | error f =>
    simp only [Startup.afterInspection]
    split
    · next pause hp => exact .resting (ht.again hp) hc hr
    · next hp => exact .refused (ht.failed hp) hc hr

private theorem shows_afterLookup {s : Startup ρ} {attempt : UInt32} {i : Nat}
    (hu : r.UpTo s.config service.agent earlier name later outcomes)
    (ht : s.config.connectRetry.Trying attempt outcomes)
    (hc : r.called = r.returned.map Prod.fst ++ [name]) (hv : r.Serves service (some i) 0)
    {result : Except Failure EndpointSet} (hl : service.lookups[i]? = some (.finished result)) :
    { r with returned := r.returned ++ [(name, result)] }.Shows s.config
      (s.afterLookup service name later attempt result) := by
  have hu' := hu.concat result
  have hv' := hv.returned hl (r.returned ++ [(name, result)])
  have hc' : r.called = (r.returned ++ [(name, result)]).map Prod.fst := by
    rw [hc, List.map_append]
    rfl
  cases result with
  | ok set =>
    have hne : set.isEmpty = false := hv.fruitful _ (List.mem_of_getElem? hl) set rfl
    exact shows_calling hu.reported (hu.listed.trans (by simp))
      (hu'.passed (ht.succeeded set) hne) hc' hv'
  | error f =>
    simp only [Startup.afterLookup]
    split
    · next pause hp => exact .pausing hu' (ht.again hp) hc' hv'
    · next hp =>
      rw [hv.shutdowns]
      exact .leaving hu' (ht.failed hp) hc' hv'.shutdown

private theorem Shows.of_own_step {names : List String} {gate : Gate}
    (h : r.Shows config (.gating service names gate)) {a : Action ρ} {events : List (Event ρ)}
    (hs : service.step a = some (next, events)) (ha : a.IsOwn) :
    r.Shows config (.gating next names gate) := by
  have hagent := Service.agent_of_transition (Service.transition_of_step hs)
  cases h with
  | passed hu hv => exact .passed (hagent ▸ hu) (hv.of_step hs ha)
  | calling hu ht hc hv => exact .calling (hagent ▸ hu) ht hc (hv.of_step hs ha)
  | waiting hu ht hc hv => exact .waiting (hagent ▸ hu) ht hc (hv.of_step hs ha)
  | pausing hu ht hc hv => exact .pausing (hagent ▸ hu) ht hc (hv.of_step hs ha)
  | leaving hu ht hc hv => exact .leaving (hagent ▸ hu) ht hc (hv.of_step hs ha)

private theorem Shows.proceed {s : Startup ρ} {names : List String} {gate : Gate}
    {phase : StartPhase ρ} (hp : s.phase = .gating service names gate)
    (h : r.Shows s.config (.gating service names gate))
    (hs : s.proceed service names gate = some phase) :
    (r.after s .proceed).Shows s.config phase := by
  obtain ⟨registry, config, phase'⟩ := s
  cases hp
  cases h with
  | passed hu hv =>
    cases hs
    exact .ready hu hv
  | @calling _ _ _ name _ _ hu ht hc hv =>
    cases hs
    refine .waiting ⟨hu.reported, hu.listed, hu.returned⟩ ht ?_ (hv.called name)
    exact congrArg (· ++ [name]) hc
  | @waiting _ _ later name _ attempt i hu ht hc hv =>
    obtain ⟨result, hresult, he⟩ := Option.map_eq_some_iff.1 hs
    obtain ⟨l, hl, hfin⟩ := Option.bind_eq_some_iff.1 hresult
    cases l with
    | finished result' =>
      cases hfin
      cases he
      have hafter : r.after ⟨registry, config, .gating service (name :: later)
          (.waiting attempt i)⟩ .proceed =
          { r with returned := r.returned ++ [(name, result)] } := by
        simp [after, hl, Lookup.result?]
      exact hafter ▸ shows_afterLookup hu ht hc hv hl
    | _ => cases hfin
  | pausing hu ht hc hv => cases hs
  | leaving hu ht hc hv =>
    simp only [Startup.proceed] at hs
    split at hs
    · next hd =>
      cases hs
      obtain ⟨d, hone⟩ := List.length_eq_one_iff.1 hv.shutdowns
      rw [hone] at hd
      cases hd
      exact .abandoned hu ht hc hv hone
    · cases hs

/-- Every step of a start keeps to what the record shows. -/
theorem Shows.of_step {s s' : Startup ρ} (h : r.Shows s.config s.phase) (hr : s.result? = none)
    {a : StartAction ρ} (ha : ∀ b, a = .service b → b.IsOwn) {events : List (Event ρ)}
    (hs : s.step a = some (s', events)) :
    s'.config = s.config ∧ (r.after s a).Shows s.config s'.phase := by
  obtain ⟨registry, config, phase⟩ := s
  cases phase with
  | inspecting attempt =>
    cases h with
    | inspecting ht hc hr =>
      cases a with
      | inspected result =>
        cases hs
        exact ⟨rfl, shows_afterInspection ht hc hr result⟩
      | _ => cases hs
  | resting attempt pause =>
    cases h with
    | resting ht hc hr =>
      cases a with
      | resume =>
        cases hs
        exact ⟨rfl, .inspecting ht hc hr⟩
      | _ => cases hs
  | gating service names gate =>
    cases a with
    | service b =>
      obtain ⟨⟨next, events⟩, hb, he⟩ := Option.map_eq_some_iff.1 hs
      cases he
      exact ⟨rfl, h.of_own_step hb (ha b rfl)⟩
    | proceed =>
      obtain ⟨phase, hp, he⟩ := Option.map_eq_some_iff.1 hs
      cases he
      exact ⟨rfl, Shows.proceed rfl h hp⟩
    | resume =>
      cases h with
      | pausing hu ht hc hv =>
        cases hs
        exact ⟨rfl, .calling hu ht hc hv⟩
      | _ => cases hs
    | inspected result => cases hs
  | refused f | ready service | abandoned f service => cases hr

private theorem Serves.finished (h : r.Serves service .none calls) :
    ∀ l ∈ service.lookups, l.result?.isSome = true := fun l hl => by
  obtain ⟨k, hk⟩ := List.mem_iff_getElem?.1 hl
  obtain ⟨result, rfl⟩ := h.settled k l hk nofun
  rfl

end StartRecord

namespace Startup

variable {s₀ s s' : Startup ρ} {r₀ r r' : StartRecord} {config : Config}

/-- A run after a run. -/
theorem Course.trans (h : Course s₀ r₀ s r) (h' : Course s r s' r') : Course s₀ r₀ s' r' := by
  induction h' with
  | none => exact h
  | step _ hr ha hs ih => exact ih.step hr ha hs

/-- All along a start the record shows where it is. -/
theorem Course.shows {registry : String} (h : Course (begin registry config) .empty s r) :
    s.config = config ∧ r.Shows config s.phase := by
  induction h with
  | none => exact ⟨rfl, .inspecting (.first _) rfl rfl⟩
  | step _ hr ha hs ih =>
    obtain ⟨hconfig, hshows⟩ := ih
    obtain ⟨hkept, hnext⟩ := StartRecord.Shows.of_step (hconfig ▸ hshows) hr ha hs
    exact ⟨hkept.trans hconfig, hconfig ▸ hnext⟩

/-- The service's own steps are steps of the start. -/
theorem Course.of_run {service next : Service ρ} {names : List String} {gate : Gate}
    (hp : s.phase = .gating service names gate) {actions : List (Action ρ)}
    {events : List (Event ρ)} (hr : service.run actions = some (next, events))
    (ha : ∀ a ∈ actions, a.IsOwn) (r : StartRecord) :
    Course s r { s with phase := .gating next names gate } r := by
  induction actions generalizing s service events with
  | nil =>
    cases hr
    exact hp ▸ .none
  | cons a rest ih =>
    obtain ⟨t, first, later, hs, hrun, -⟩ := Service.step_of_run_cons hr
    have hstep : s.step (.service a) = some ({ s with phase := .gating t names gate }, first) := by
      simp [Startup.step, hp, hs]
    have hfirst : Course s r { s with phase := .gating t names gate } r :=
      (Course.none : Course s r s r).step (by rw [result?, hp])
        (fun b hb => StartAction.service.inj hb ▸ ha a List.mem_cons_self) hstep
    exact hfirst.trans (ih rfl hrun fun b hb => ha b (List.mem_cons_of_mem a hb))

/-- The start and its record after some steps; none if one is not possible, or comes after the
return. -/
def play : List (StartAction ρ) → Startup ρ → StartRecord → Option (Startup ρ × StartRecord)
  | [], s, r => some (s, r)
  | a :: rest, s, r =>
    if s.result?.isSome then none else (s.step a).bind fun o => play rest o.1 (r.after s a)

/-- Steps that are played are a run. -/
theorem Course.play {actions : List (StartAction ρ)} (h : Course s₀ r₀ s r)
    (ha : ∀ a ∈ actions, ∀ b, a = .service b → b.IsOwn)
    (hp : Startup.play actions s r = some (s', r')) : Course s₀ r₀ s' r' := by
  induction actions generalizing s r with
  | nil =>
    cases hp
    exact h
  | cons a rest ih =>
    rw [Startup.play] at hp
    split at hp
    · cases hp
    · next hr =>
      obtain ⟨⟨t, events⟩, hs, hp⟩ := Option.bind_eq_some_iff.1 hp
      have hnone : s.result? = .none := by simpa using hr
      exact ih (h.step hnone (ha a List.mem_cons_self) hs)
        (fun b hb => ha b (List.mem_cons_of_mem a hb)) hp

end Startup

end ServiceDiscovery
