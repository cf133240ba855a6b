import ServiceDiscovery.Proofs.Subscription.Delivery

/-!
# The log of a delivery

A delivery is run one operation after the other, with a stack of what is still to be done. Here each
part of it is taken as a whole: what happens from its start to its end, with all that its handlers
set off in between, and the cache that it leaves. The rules say who is called: all handlers that
were subscribed to the name when a set was accepted, each once and in their order, whatever any of
them does, and nobody else. A delivery comes to an end exactly if the rules give it a log.
-/

namespace ServiceDiscovery

/-- Something that happens in a cache. -/
inductive Deed (ρ : Type)
  /-- A set is accepted in place of another one or of none, while these subscriptions are there. -/
  | accepted (key : Key) (set : EndpointSet) (subscribed : List SubscriptionId)
  /-- The set of a key is dropped. -/
  | removed (key : Key)
  /-- An observer sees something of a handler. -/
  | seen (event : Event ρ)

/-- What an observer sees of a deed. -/
def Deed.seen? {ρ : Type} : Deed ρ → Option (Event ρ)
  | .seen event => some event
  | .accepted _ _ _ | .removed _ => none

/-- The numbers of the subscriptions of a name. -/
def Cache.subscribed {η : Type} (c : Cache η) (name : String) : List SubscriptionId :=
  (c.hub.handlers name).map Prod.fst

/-- What happens when the set of a key is to be dropped. -/
def Cache.removal {η ρ : Type} (c : Cache η) (key : Key) : List (Deed ρ) :=
  if (c.get? key).isSome then [.removed key] else []

/-- Nothing is seen when a set is dropped. -/
theorem Cache.filterMap_removal {η ρ : Type} (c : Cache η) (key : Key) :
    (c.removal key : List (Deed ρ)).filterMap Deed.seen? = [] := by
  rw [removal]
  split <;> rfl

namespace Delivery

variable {writes : Bool} {ρ : Type} {c c' : HandlerCache writes ρ} {d : Delivery writes ρ}

/-- What a part of a delivery does on a cache: the log, and the cache at its end. -/
inductive Does : HandlerCache writes ρ → Frame writes ρ → List (Deed ρ) → HandlerCache writes ρ →
    Prop
  /-- A handler returns. -/
  | done (c : HandlerCache writes ρ) : Does c (.run .done) [] c
  /-- A handler fails. -/
  | failed (c : HandlerCache writes ρ) : Does c (.run .fail) [] c
  /-- A handler reports something. -/
  | reported {c c' : HandlerCache writes ρ} {r : ρ} {next : Script writes ρ} {log : List (Deed ρ)}
      (h : Does c (.run next) log c') :
      Does c (.run (.report r next)) (.seen (.reported r) :: log) c'
  /-- A handler reads a cached set. -/
  | read {c c' : HandlerCache writes ρ} {key : Key} {next : Option EndpointSet → Script writes ρ}
      {log : List (Deed ρ)} (h : Does c (.run (next (c.get? key))) log c') :
      Does c (.run (.read key next)) log c'
  /-- A handler offers the set that is stored. -/
  | refused {c c' : HandlerCache writes ρ} {allowed : writes = true} {key : Key} {set : EndpointSet}
      {next : Bool → Script writes ρ} {log : List (Deed ρ)} (h : c.get? key = some set)
      (hn : Does c (.run (next false)) log c') :
      Does c (.run (.write allowed key set next)) log c'
  /-- A handler offers another set, which is delivered before the handler goes on. -/
  | accepted {c c₁ c' : HandlerCache writes ρ} {allowed : writes = true} {key : Key}
      {set : EndpointSet} {next : Bool → Script writes ρ} {told log : List (Deed ρ)}
      (h : c.get? key ≠ some set)
      (ht : Does (c.update key set).2.2 (.call set (c.hub.handlers key.name)) told c₁)
      (hn : Does c₁ (.run (next true)) log c') :
      Does c (.run (.write allowed key set next))
        (.accepted key set (c.subscribed key.name) :: told ++ log) c'
  /-- A handler drops a cached set. -/
  | invalidated {c c' : HandlerCache writes ρ} {key : Key} {next : Bool → Script writes ρ}
      {log : List (Deed ρ)}
      (h : Does (c.invalidate key).2 (.run (next (c.invalidate key).1)) log c') :
      Does c (.run (.invalidate key next)) (c.removal key ++ log) c'
  /-- A handler subscribes a handler. -/
  | subscribed {c c' : HandlerCache writes ρ} {name : String} {handler : Handler writes ρ}
      {next : SubscriptionId → Script writes ρ} {log : List (Deed ρ)}
      (h : Does (c.subscribe name handler).2 (.run (next (c.subscribe name handler).1)) log c') :
      Does c (.run (.subscribe name handler next)) log c'
  /-- A handler cancels a subscription. -/
  | unsubscribed {c c' : HandlerCache writes ρ} {name : String} {id : SubscriptionId}
      {next : Bool → Script writes ρ} {log : List (Deed ρ)}
      (h : Does (c.unsubscribe name id).2 (.run (next (c.unsubscribe name id).1)) log c') :
      Does c (.run (.unsubscribe name id next)) log c'
  /-- There is no handler left to be called. -/
  | told (c : HandlerCache writes ρ) (set : EndpointSet) : Does c (.call set []) [] c
  /-- A handler is called, and when it has ended, the others are. -/
  | tell {c c₁ c' : HandlerCache writes ρ} {set : EndpointSet} {id : SubscriptionId}
      {handler : Handler writes ρ} {handlers : List (SubscriptionId × Handler writes ρ)}
      {log told : List (Deed ρ)} (h : Does c (.run (handler id set)) log c₁)
      (hs : Does c₁ (.call set handlers) told c') :
      Does c (.call set ((id, handler) :: handlers)) (.seen (.called id set) :: log ++ told) c'

/-- What a whole delivery does on a cache. -/
inductive DoesAll : HandlerCache writes ρ → Delivery writes ρ → List (Deed ρ) →
    HandlerCache writes ρ → Prop
  /-- Nothing is left to be done. -/
  | nil (c : HandlerCache writes ρ) : DoesAll c [] [] c
  /-- The top of the stack is done first. -/
  | cons {c c₁ c' : HandlerCache writes ρ} {frame : Frame writes ρ} {d : Delivery writes ρ}
      {log later : List (Deed ρ)} (h : Does c frame log c₁) (hs : DoesAll c₁ d later c') :
      DoesAll c (frame :: d) (log ++ later) c'

/-! ### A delivery that ends -/

/-- A delivery on a cache comes to an end, with what was seen of it. -/
def Ends (c : HandlerCache writes ρ) (d : Delivery writes ρ) (c' : HandlerCache writes ρ)
    (events : List (Event ρ)) : Prop :=
  ∃ fuel, finish fuel c d = some (c', events)

/-- Where nothing is left to be done, a delivery has ended. -/
theorem ends_nil {events : List (Event ρ)} : Ends c [] c' events ↔ c' = c ∧ events = [] := by
  have hf (fuel : Nat) : finish fuel c [] = some (c, []) := by cases fuel <;> rfl
  simp only [Ends, hf, Option.some.injEq, Prod.mk.injEq, exists_const]
  exact and_congr eq_comm eq_comm

/-- A delivery that ends comes to its end from what its next operation leaves. -/
theorem finish_of_step {o : Outcome writes ρ} (ho : step c d = some o) {fuel : Nat}
    {events : List (Event ρ)} (h : finish fuel c d = some (c', events)) :
    ∃ n later, fuel = n + 1 ∧ finish n o.cache o.rest = some (c', later) ∧
      events = o.events ++ later := by
  cases fuel with
  | zero => simp [finish, ho] at h
  | succ n =>
    rw [finish] at h
    simp only [ho, Option.map_eq_some_iff, Prod.mk.injEq] at h
    obtain ⟨⟨c₁, later⟩, h, rfl, rfl⟩ := h
    exact ⟨n, later, rfl, h, rfl⟩

/-- A delivery that ends in some number of operations ends in any greater number. -/
theorem finish_mono {fuel more : Nat} (hle : fuel ≤ more) {events : List (Event ρ)}
    (h : finish fuel c d = some (c', events)) : finish more c d = some (c', events) := by
  induction fuel using Nat.strongRecOn generalizing more c d events with
  | ind fuel ih =>
    cases ho : step c d with
    | none =>
      cases step_eq_none ho
      obtain ⟨rfl, rfl⟩ := ends_nil.1 ⟨fuel, h⟩
      cases more <;> rfl
    | some o =>
      obtain ⟨n, later, rfl, hrest, rfl⟩ := finish_of_step ho h
      obtain ⟨m, rfl⟩ := Nat.exists_eq_add_of_lt (Nat.lt_of_succ_le hle)
      have hmore : finish (n + m) o.cache o.rest = some (c', later) :=
        ih n (Nat.lt_succ_self n) (Nat.le_add_right n m) hrest
      rw [finish]
      simp [ho, hmore]

/-- A delivery ends if what one operation leaves of it ends. -/
theorem Ends.of_step {c₁ : HandlerCache writes ρ} {rest : Delivery writes ρ}
    {first later events : List (Event ρ)} (ho : step c d = some ⟨c₁, rest, first⟩)
    (h : Ends c₁ rest c' later) (he : events = first ++ later) : Ends c d c' events := by
  obtain ⟨fuel, h⟩ := h
  refine ⟨fuel + 1, ?_⟩
  rw [finish]
  simp [ho, h, he]

/-- A delivery ends in one way only. -/
theorem Ends.unique {c₁ c₂ : HandlerCache writes ρ} {events others : List (Event ρ)}
    (h : Ends c d c₁ events) (h' : Ends c d c₂ others) : c₁ = c₂ ∧ events = others := by
  obtain ⟨fuel, h⟩ := h
  induction fuel using Nat.strongRecOn generalizing c d events others with
  | ind fuel ih =>
    cases ho : step c d with
    | none =>
      cases step_eq_none ho
      obtain ⟨rfl, rfl⟩ := ends_nil.1 ⟨fuel, h⟩
      obtain ⟨rfl, rfl⟩ := ends_nil.1 h'
      exact ⟨rfl, rfl⟩
    | some o =>
      obtain ⟨n, later, rfl, hrest, rfl⟩ := finish_of_step ho h
      obtain ⟨fuel', h'⟩ := h'
      obtain ⟨n', later', -, hrest', rfl⟩ := finish_of_step ho h'
      obtain ⟨rfl, rfl⟩ := ih n (Nat.lt_succ_self n) ⟨n', hrest'⟩ hrest
      exact ⟨rfl, rfl⟩

/-- A set that is stored already leaves a handler that offers it nothing to wait for. -/
theorem step_write_of_eq {allowed : writes = true} {key : Key} {set : EndpointSet}
    {next : Bool → Script writes ρ} (h : c.get? key = some set) :
    step c (.run (.write allowed key set next) :: d) = some ⟨c, .run (next false) :: d, []⟩ := by
  simp only [step, runScript, Cache.update, Cache.store_of_eq h]
  rfl

/-- Another set is stored, and its delivery comes before the rest of the handler. -/
theorem step_write_of_ne {allowed : writes = true} {key : Key} {set : EndpointSet}
    {next : Bool → Script writes ρ} (h : c.get? key ≠ some set) :
    step c (.run (.write allowed key set next) :: d) =
      some ⟨(c.update key set).2.2,
        ofNotification (c.hub.notification key.name set) ++ .run (next true) :: d, []⟩ := by
  simp only [step, runScript, Cache.update, Cache.store_of_ne h]

/-- What one operation of a handler does to the content of a key. A set that comes to it is told to
the handlers of its name. -/
theorem content_of_step {o : Outcome writes ρ} (ho : step c d = some o) (key : Key) :
    (o.cache.get? key = c.get? key ∨ o.cache.get? key = none) ∨
      writes = true ∧ ∃ set rest, o.cache.get? key = some set ∧
        o.rest = ofNotification (c.hub.notification key.name set) ++ rest := by
  cases d with
  | nil => cases ho
  | cons frame d =>
    cases frame with
    | call set handlers =>
      cases handlers <;> cases ho <;> exact Or.inl (Or.inl rfl)
    | run script =>
      cases script with
      | done | fail | report | read | subscribe | unsubscribe =>
        cases ho
        exact Or.inl (Or.inl rfl)
      | invalidate dropped next =>
        cases ho
        exact Or.inl (c.get?_invalidate_or dropped key)
      | write allowed k set next =>
        by_cases hg : c.get? k = some set
        · rw [step_write_of_eq hg] at ho
          cases ho
          exact Or.inl (Or.inl rfl)
        · rw [step_write_of_ne hg] at ho
          cases ho
          have hget : (c.update k set).2.2.get? key = if k = key then some set else c.get? key :=
            Cache.get?_store c k key set
          split at hget
          · next hk =>
            subst hk
            exact Or.inr ⟨allowed, set, _, hget, rfl⟩
          · exact Or.inl (Or.inl hget)

/-! ### A delivery that ends has a log -/

/-- The delivery of a notification calls the handlers of the name. -/
theorem DoesAll.of_notification {hub : Hub (Handler writes ρ)} {name : String} {set : EndpointSet}
    {log : List (Deed ρ)} (h : DoesAll c (ofNotification (hub.notification name set) ++ d) log c') :
    DoesAll c (.call set (hub.handlers name) :: d) log c' := by
  rcases ofNotification_eq hub name set with hcall | ⟨hnone, hempty⟩
  · rwa [hcall] at h
  · rw [hempty] at h
    rw [hnone]
    exact .cons (.told c set) h

/-- A log of a stack is one of its top and one of the rest. -/
theorem DoesAll.of_cons {frame : Frame writes ρ} {log : List (Deed ρ)}
    (h : DoesAll c (frame :: d) log c') :
    ∃ top rest c₁, log = top ++ rest ∧ Does c frame top c₁ ∧ DoesAll c₁ d rest c' := by
  cases h with
  | cons h hs => exact ⟨_, _, _, rfl, h, hs⟩

private theorem DoesAll.of_step_run {o : Outcome writes ρ} {script : Script writes ρ}
    (ho : step c (.run script :: d) = some o) {log : List (Deed ρ)}
    (h : DoesAll o.cache o.rest log c') :
    ∃ whole, DoesAll c (.run script :: d) whole c' ∧
      whole.filterMap Deed.seen? = o.events ++ log.filterMap Deed.seen? := by
  cases script with
  | done =>
    cases ho
    exact ⟨_, .cons (.done c) h, rfl⟩
  | fail =>
    cases ho
    exact ⟨_, .cons (.failed c) h, rfl⟩
  | report r next =>
    cases ho
    obtain ⟨top, rest, c₁, rfl, htop, hrest⟩ := h.of_cons
    exact ⟨_, .cons (.reported htop) hrest, rfl⟩
  | read key next =>
    cases ho
    obtain ⟨top, rest, c₁, rfl, htop, hrest⟩ := h.of_cons
    exact ⟨_, .cons (.read htop) hrest, rfl⟩
  | write allowed key set next =>
    by_cases hg : c.get? key = some set
    · rw [step_write_of_eq hg] at ho
      cases ho
      obtain ⟨top, rest, c₁, rfl, htop, hrest⟩ := h.of_cons
      exact ⟨_, .cons (.refused hg htop) hrest, rfl⟩
    · rw [step_write_of_ne hg] at ho
      cases ho
      obtain ⟨told, _, c₁, rfl, htold, h⟩ := h.of_notification.of_cons
      obtain ⟨top, rest, c₂, rfl, htop, hrest⟩ := h.of_cons
      refine ⟨_, .cons (.accepted hg htold htop) hrest, ?_⟩
      simp [List.filterMap_cons, Deed.seen?]
  | invalidate key next =>
    cases ho
    obtain ⟨top, rest, c₁, rfl, htop, hrest⟩ := h.of_cons
    refine ⟨_, .cons (.invalidated htop) hrest, ?_⟩
    rw [List.append_assoc, List.filterMap_append, Cache.filterMap_removal]
    rfl
  | subscribe name handler next =>
    cases ho
    obtain ⟨top, rest, c₁, rfl, htop, hrest⟩ := h.of_cons
    exact ⟨_, .cons (.subscribed htop) hrest, rfl⟩
  | unsubscribe name id next =>
    cases ho
    obtain ⟨top, rest, c₁, rfl, htop, hrest⟩ := h.of_cons
    exact ⟨_, .cons (.unsubscribed htop) hrest, rfl⟩

/-- A log of what one operation leaves gives one of the whole delivery. -/
theorem DoesAll.of_step {o : Outcome writes ρ} (ho : step c d = some o) {log : List (Deed ρ)}
    (h : DoesAll o.cache o.rest log c') :
    ∃ whole, DoesAll c d whole c' ∧
      whole.filterMap Deed.seen? = o.events ++ log.filterMap Deed.seen? := by
  cases d with
  | nil => cases ho
  | cons frame rest =>
    cases frame with
    | call set handlers =>
      cases handlers with
      | nil =>
        cases ho
        exact ⟨_, .cons (.told c set) h, rfl⟩
      | cons handler handlers =>
        cases ho
        obtain ⟨body, _, c₁, rfl, hbody, h⟩ := h.of_cons
        obtain ⟨told, rest, c₂, rfl, htold, hrest⟩ := h.of_cons
        refine ⟨_, .cons (.tell hbody htold) hrest, ?_⟩
        simp [Deed.seen?]
    | run script => exact DoesAll.of_step_run ho h

/-- A delivery that ends has a log, which shows what was seen. -/
theorem Ends.doesAll {events : List (Event ρ)} (h : Ends c d c' events) :
    ∃ log, DoesAll c d log c' ∧ log.filterMap Deed.seen? = events := by
  obtain ⟨fuel, h⟩ := h
  induction fuel using Nat.strongRecOn generalizing c d events with
  | ind fuel ih =>
    cases ho : step c d with
    | none =>
      cases step_eq_none ho
      obtain ⟨rfl, rfl⟩ := ends_nil.1 ⟨fuel, h⟩
      exact ⟨[], .nil _, rfl⟩
    | some o =>
      obtain ⟨n, later, rfl, hrest, rfl⟩ := finish_of_step ho h
      obtain ⟨log, hlog, rfl⟩ := ih n (Nat.lt_succ_self n) hrest
      exact hlog.of_step ho

/-! ### A log leads to the end of the delivery -/

/-- The delivery of a notification ends as calling the handlers of the name does. -/
theorem Ends.notification {hub : Hub (Handler writes ρ)} {name : String} {set : EndpointSet}
    {events : List (Event ρ)} (h : Ends c (.call set (hub.handlers name) :: d) c' events) :
    Ends c (ofNotification (hub.notification name set) ++ d) c' events := by
  rcases ofNotification_eq hub name set with hcall | ⟨hnone, hempty⟩
  · rwa [hcall]
  · rw [hnone] at h
    rw [hempty]
    obtain ⟨fuel, h⟩ := h
    obtain ⟨n, later, -, h, rfl⟩ := finish_of_step rfl h
    exact ⟨n, h⟩

/-- What a part of a delivery does is what its operations do, up to where the rest begins. -/
theorem Does.ends {frame : Frame writes ρ} {log : List (Deed ρ)} (h : Does c frame log c')
    {rest : Delivery writes ρ} {c'' : HandlerCache writes ρ} {later : List (Event ρ)}
    (hr : Ends c' rest c'' later) :
    Ends c (frame :: rest) c'' (log.filterMap Deed.seen? ++ later) := by
  -- A delivery that a handler sets off ends where the handler goes on, so the rest varies.
  induction h generalizing rest later with
  | done c | failed c | told c set => exact .of_step rfl hr rfl
  | reported h ih => exact .of_step rfl (ih hr) rfl
  | read h ih | subscribed h ih | unsubscribed h ih => exact .of_step rfl (ih hr) rfl
  | refused hg hn ih => exact .of_step (step_write_of_eq hg) (ih hr) rfl
  | accepted hg ht hn iht ihn =>
    refine .of_step (step_write_of_ne hg) (iht (ihn hr)).notification ?_
    simp [List.filterMap_cons, Deed.seen?]
  | invalidated h ih =>
    rw [List.filterMap_append, Cache.filterMap_removal]
    exact .of_step rfl (ih hr) rfl
  | tell h hs ih ihs =>
    refine .of_step rfl (ih (ihs hr)) ?_
    simp [Deed.seen?]

/-- A delivery ends exactly if it has a log, and what is seen of it is what the log shows. -/
theorem ends_iff {events : List (Event ρ)} :
    Ends c d c' events ↔ ∃ log, DoesAll c d log c' ∧ log.filterMap Deed.seen? = events := by
  constructor
  · exact Ends.doesAll
  · rintro ⟨log, h, rfl⟩
    induction h with
    | nil c => exact ends_nil.2 ⟨rfl, rfl⟩
    | cons h _ ih =>
      rw [List.filterMap_append]
      exact h.ends ih

end Delivery

end ServiceDiscovery
