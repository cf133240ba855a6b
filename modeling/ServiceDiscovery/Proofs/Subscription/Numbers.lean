import ServiceDiscovery.Proofs.Subscription.Notification

/-!
# Numbers of subscriptions

A subscription's number stands under one name only and is never given out again, so it tells under
which name a handler was subscribed. A delivery owes a set to the subscriptions that it is still to
call with it: each of them is called with this set, and nobody else is.
-/

namespace ServiceDiscovery

namespace Hub

variable {η : Type} {h h' : Hub η}

/-- The numbers that are subscribed under a name. -/
def numbers (h : Hub η) (name : String) : List SubscriptionId := (h.handlers name).map Prod.fst

/-- Each number was given out and stands under one name. -/
structure Numbered (h : Hub η) : Prop where
  issued : ∀ name, ∀ id ∈ h.numbers name, id.number ≤ h.issued
  once : ∀ a b, ∀ id ∈ h.numbers a, id ∈ h.numbers b → a = b

/-- What one operation does to the subscriptions. -/
inductive Change (h : Hub η) : Hub η → Prop
  /-- They stay. -/
  | same : Change h h
  /-- A handler is subscribed. -/
  | subscribed (name : String) (handler : η) : Change h (h.subscribe name handler).2
  /-- A subscription is cancelled. -/
  | unsubscribed (name : String) (id : SubscriptionId) : Change h (h.unsubscribe name id).2

/-- A subscription adds a new number under its name. -/
theorem mem_numbers_subscribe {name other : String} {handler : η} {id : SubscriptionId} :
    id ∈ (h.subscribe name handler).2.numbers other ↔
      id ∈ h.numbers other ∨ name = other ∧ id = ⟨h.issued + 1⟩ := by
  rw [numbers, handlers_subscribe]
  split
  · next hn => simp [numbers, hn]
  · next hn => simp [numbers, hn]

/-- A cancellation adds no number. -/
theorem mem_numbers_of_unsubscribe {name other : String} {id x : SubscriptionId}
    (hx : x ∈ (h.unsubscribe name id).2.numbers other) : x ∈ h.numbers other := by
  rw [numbers, handlers_unsubscribe] at hx
  split at hx
  · exact List.map_subset _ List.eraseP_subset hx
  · exact hx

/-- Without subscriptions no number stands under two names. -/
theorem numbered_empty : (empty : Hub η).Numbered := ⟨nofun, nofun⟩

/-- A number that was given out is not put under another name later. -/
theorem Change.mem_numbers (hc : Change h h') {name : String} {id : SubscriptionId}
    (hi : id.number ≤ h.issued) (hm : id ∈ h'.numbers name) : id ∈ h.numbers name := by
  cases hc with
  | same => exact hm
  | subscribed other handler =>
    rcases mem_numbers_subscribe.1 hm with hm | ⟨-, rfl⟩
    · exact hm
    · exact absurd hi (Nat.not_succ_le_self h.issued)
  | unsubscribed other x => exact mem_numbers_of_unsubscribe hm

/-- No number is taken back. -/
theorem Change.issued_le (hc : Change h h') : h.issued ≤ h'.issued := by
  cases hc with
  | same => exact Nat.le_refl _
  | subscribed name handler => exact Nat.le_succ _
  | unsubscribed name id =>
    rw [unsubscribe]
    split <;> exact Nat.le_refl _

/-- Every operation keeps the numbers apart. -/
theorem Numbered.of_change (hn : h.Numbered) (hc : Change h h') : h'.Numbered := by
  have hle := hc.issued_le
  cases hc with
  | same => exact hn
  | subscribed name handler =>
    refine ⟨?_, ?_⟩
    · intro other id hm
      rcases mem_numbers_subscribe.1 hm with hm | ⟨-, rfl⟩
      · exact Nat.le_trans (hn.issued other id hm) hle
      · exact Nat.le_refl _
    · intro a b id ha hb
      rcases mem_numbers_subscribe.1 ha with ha | ⟨rfl, rfl⟩
      · rcases mem_numbers_subscribe.1 hb with hb | ⟨-, rfl⟩
        · exact hn.once a b id ha hb
        · exact absurd (hn.issued a _ ha) (Nat.not_succ_le_self h.issued)
      · rcases mem_numbers_subscribe.1 hb with hb | ⟨rfl, -⟩
        · exact absurd (hn.issued b _ hb) (Nat.not_succ_le_self h.issued)
        · rfl
  | unsubscribed name id =>
    refine ⟨?_, ?_⟩
    · intro other x hm
      exact Nat.le_trans (hn.issued other x (mem_numbers_of_unsubscribe hm)) hle
    · intro a b x ha hb
      exact hn.once a b x (mem_numbers_of_unsubscribe ha) (mem_numbers_of_unsubscribe hb)

end Hub

/-- Storing a set leaves the subscriptions. -/
theorem Cache.hub_store {η : Type} (c : Cache η) (key : Key) (set : EndpointSet) :
    (c.store key set).2.2.hub = c.hub := by
  rw [store]
  split <;> rfl

/-- A part of a delivery is still to call a subscription with a set. -/
def Frame.Owes {writes : Bool} {ρ : Type} (id : SubscriptionId) (set : EndpointSet) :
    Frame writes ρ → Prop
  | .call x handlers => x = set ∧ id ∈ handlers.map Prod.fst
  | .run _ => False

namespace Delivery

variable {writes : Bool} {ρ : Type} {c : HandlerCache writes ρ} {d : Delivery writes ρ}
  {o : Outcome writes ρ} {id : SubscriptionId} {set : EndpointSet}

/-- A delivery is still to call a subscription with a set. -/
def Owes (d : Delivery writes ρ) (id : SubscriptionId) (set : EndpointSet) : Prop :=
  ∃ frame ∈ d, frame.Owes id set

/-- Only a delivery that goes on owes anything. -/
theorem Owes.ne_nil (h : d.Owes id set) : d ≠ [] := by
  obtain ⟨frame, hf, -⟩ := h
  exact List.ne_nil_of_mem hf

/-- A notification owes its set to the subscriptions of its name. -/
theorem owes_ofNotification {hub : Hub (Handler writes ρ)} {name : String} {x : EndpointSet} :
    (ofNotification (hub.notification name x)).Owes id set ↔ x = set ∧ id ∈ hub.numbers name := by
  rcases ofNotification_eq hub name x with hcall | ⟨hnone, hempty⟩
  · simp [hcall, Owes, Frame.Owes, Hub.numbers]
  · simp [hempty, hnone, Owes, Hub.numbers]

/-- An operation changes the subscriptions in one of the three ways. -/
theorem change_of_step (ho : step c d = some o) : c.hub.Change o.cache.hub := by
  cases d with
  | nil => cases ho
  | cons frame rest =>
    cases frame with
    | call x handlers =>
      cases handlers with
      | nil | cons handler handlers =>
        cases ho
        exact .same
    | run script =>
      cases script with
      | done | fail | report _ _ | read _ _ | invalidate _ _ =>
        cases ho
        exact .same
      | subscribe name handler next =>
        cases ho
        exact .subscribed name handler
      | unsubscribe name x next =>
        cases ho
        exact .unsubscribed name x
      | write allowed key x next =>
        cases ho
        show c.hub.Change (c.store key x).2.2.hub
        rw [Cache.hub_store]
        exact .same

/-- A set that is owed is handed over by the next operation, or is still owed after it. -/
theorem owes_of_step (ho : step c d = some o) (h : d.Owes id set) :
    o.rest.Owes id set ∨ .called id set ∈ o.events := by
  obtain ⟨frame, hf, hid⟩ := h
  cases d with
  | nil => cases hf
  | cons top d =>
    rcases List.mem_cons.1 hf with rfl | hf
    · cases frame with
      | run script => cases hid
      | call x handlers =>
        cases handlers with
        | nil => cases hid.2
        | cons handler handlers =>
          cases ho
          obtain ⟨rfl, hid⟩ := hid
          rcases List.mem_cons.1 hid with rfl | hid
          · exact Or.inr (List.mem_singleton_self _)
          · exact Or.inl ⟨.call x handlers, by simp, rfl, hid⟩
    · obtain ⟨above, hrest, -⟩ := rest_of_step ho
      rw [hrest]
      exact Or.inl ⟨frame, List.mem_append_right above hf, hid⟩

/-- A subscription is only called with a set that is owed to it. -/
theorem owes_of_called (ho : step c d = some o) (h : .called id set ∈ o.events) :
    d.Owes id set := by
  cases d with
  | nil => cases ho
  | cons frame rest =>
    cases frame with
    | call x handlers =>
      cases handlers with
      | nil =>
        cases ho
        cases h
      | cons handler handlers =>
        cases ho
        cases List.mem_singleton.1 h
        exact ⟨_, List.mem_cons_self, rfl, List.mem_cons_self⟩
    | run script =>
      cases script with
      | done | fail | read _ _ | invalidate _ _ | subscribe _ _ _ | unsubscribe _ _ _ =>
        cases ho
        cases h
      | report r next =>
        cases ho
        cases List.mem_singleton.1 h
      | write allowed key x next =>
        by_cases hg : c.get? key = some x
        · rw [step_write_of_eq hg] at ho
          cases ho
          cases h
        · rw [step_write_of_ne hg] at ho
          cases ho
          cases h

/-- The handlers of a service put no set of their own on a delivery. -/
theorem owes_of_rest {c : HandlerCache false ρ} {d : Delivery false ρ} {o : Outcome false ρ}
    (ho : step c d = some o) (h : o.rest.Owes id set) : d.Owes id set := by
  obtain ⟨frame, hf, hid⟩ := h
  cases d with
  | nil => cases ho
  | cons top rest =>
    cases top with
    | call x handlers =>
      cases handlers with
      | nil =>
        cases ho
        exact ⟨frame, List.mem_cons_of_mem _ hf, hid⟩
      | cons handler handlers =>
        cases ho
        rcases List.mem_cons.1 hf with rfl | hf
        · cases hid
        · rcases List.mem_cons.1 hf with rfl | hf
          · exact ⟨_, List.mem_cons_self, hid.1, List.mem_cons_of_mem _ hid.2⟩
          · exact ⟨frame, List.mem_cons_of_mem _ hf, hid⟩
    | run script =>
      cases script with
      | done | fail =>
        cases ho
        exact ⟨frame, List.mem_cons_of_mem _ hf, hid⟩
      | report _ _ | read _ _ | invalidate _ _ | subscribe _ _ _ | unsubscribe _ _ _ =>
        cases ho
        rcases List.mem_cons.1 hf with rfl | hf
        · cases hid
        · exact ⟨frame, List.mem_cons_of_mem _ hf, hid⟩
      | write allowed _ _ _ => cases allowed

end Delivery

end ServiceDiscovery
