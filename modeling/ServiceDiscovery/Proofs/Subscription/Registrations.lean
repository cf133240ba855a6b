import ServiceDiscovery.Subscription.Hub

/-!
# Subscriptions as a log of calls

The lists of handlers hold what the calls so far have left, and nothing else. A log of the calls
with their answers says which subscriptions stand under a name: those that were made to it and whose
number no later call took out under the same name. The lists agree with the log after any calls. The
lists are never empty, and the numbers in them are those that were given out, in ascending order, so
a number stands at most once.
-/

namespace ServiceDiscovery.Hub

variable {η : Type} {h : Hub η}

/-- A call that changes the subscriptions. -/
inductive Call (η : Type)
  /-- A handler is to be subscribed to a name. -/
  | subscribe (name : String) (handler : η)
  /-- A number is to be cancelled under a name, whether it stands there or not. -/
  | unsubscribe (name : String) (id : SubscriptionId)

/-- A call with its answer. -/
inductive Exchange (η : Type)
  /-- A handler was subscribed to a name, and its number returned. -/
  | subscribed (name : String) (handler : η) (id : SubscriptionId)
  /-- A number was to be cancelled under a name, and it was there or not. -/
  | unsubscribed (name : String) (id : SubscriptionId) (found : Bool)

/-- The call that was answered. -/
def Exchange.call : Exchange η → Call η
  | .subscribed name handler _ => .subscribe name handler
  | .unsubscribed name id _ => .unsubscribe name id

/-- The number that was given out. -/
def Exchange.issued? : Exchange η → Option SubscriptionId
  | .subscribed _ _ id => some id
  | .unsubscribed _ _ _ => none

/-- Whether a number was taken out under a name. -/
def Exchange.removes (name : String) (id : SubscriptionId) : Exchange η → Bool
  | .subscribed _ _ _ => false
  | .unsubscribed n x found => found && n = name && x = id

/-- Makes a call. -/
def perform (h : Hub η) : Call η → Exchange η × Hub η
  | .subscribe name handler =>
    let (id, h) := h.subscribe name handler
    (.subscribed name handler id, h)
  | .unsubscribe name id =>
    let (found, h) := h.unsubscribe name id
    (.unsubscribed name id found, h)

/-- Makes calls one after the other. -/
def performAll (h : Hub η) : List (Call η) → List (Exchange η) × Hub η
  | [] => ([], h)
  | call :: calls =>
    let (exchange, h) := h.perform call
    let (log, h) := h.performAll calls
    (exchange :: log, h)

/-- Nothing in a log takes a number out under a name. -/
def stays (name : String) (id : SubscriptionId) (log : List (Exchange η)) : Bool :=
  log.all fun exchange => !exchange.removes name id

/-- The subscriptions that stand under a name after a log: those to this name whose number nothing
later took out there. -/
def standing (name : String) : List (Exchange η) → List (SubscriptionId × η)
  | [] => []
  | .unsubscribed _ _ _ :: later => standing name later
  | .subscribed n handler id :: later =>
    if n = name ∧ stays name id later then (id, handler) :: standing name later
    else standing name later

/-- Subscriptions agree with a log of calls: what is delivered, what is counted, and what the next
call finds is as the log tells. -/
structure Agrees (h : Hub η) (log : List (Exchange η)) : Prop where
  /-- No number is given out twice, and each is larger than those before it. -/
  ascending : (log.filterMap Exchange.issued?).Pairwise fun a b => a.number < b.number
  /-- The handlers of a name are those that stand, in their order. -/
  handlers : ∀ name, h.handlers name = standing name log
  /-- They are counted with repeats. -/
  count : ∀ name, h.count name = (standing name log).length
  /-- There is nothing to deliver exactly if none stands. -/
  silent : ∀ name set, h.notification name set = none ↔ standing name log = []
  /-- What there is to deliver is for all that stand, in their order. -/
  told : ∀ name set n, h.notification name set = some n → n = ⟨set, standing name log⟩
  /-- A number is found under a name exactly if it stands there. -/
  found : ∀ name id, (h.unsubscribe name id).1 = true ↔ id ∈ (standing name log).map Prod.fst
  /-- What is found is one subscription of the name, and only this one is taken out. -/
  removal : ∀ name id, (h.unsubscribe name id).1 = true →
    ∃ front handler back, standing name log = front ++ (id, handler) :: back ∧
      ∀ other, (h.unsubscribe name id).2.handlers other =
        if name = other then front ++ back else standing other log
  /-- Where a number is not found, nothing changes. -/
  refusal : ∀ name id, (h.unsubscribe name id).1 = false → (h.unsubscribe name id).2 = h

/-- What a log leaves of earlier subscriptions stands before what it adds. -/
theorem standing_append (name : String) (log later : List (Exchange η)) :
    standing name (log ++ later) =
      (standing name log).filter (fun s => stays name s.1 later) ++ standing name later := by
  induction log with
  | nil => rfl
  | cons exchange log ih =>
    cases exchange with
    | unsubscribed n id found => exact ih
    | subscribed n handler id =>
      have hstays : stays name id (log ++ later) = (stays name id log && stays name id later) :=
        List.all_append
      rw [List.cons_append, standing, standing, ih, hstays]
      by_cases hn : n = name
      · cases hlog : stays name id log <;> cases hlater : stays name id later <;>
          simp [hn, hlater]
      · simp [hn]

/-- The numbers that stand were given out, in this order. -/
theorem standing_sublist (name : String) (log : List (Exchange η)) :
    ((standing name log).map Prod.fst).Sublist (log.filterMap Exchange.issued?) := by
  induction log with
  | nil => exact .slnil
  | cons exchange log ih =>
    cases exchange with
    | unsubscribed n id found => exact ih
    | subscribed n handler id =>
      rw [standing]
      split
      · exact ih.cons_cons id
      · exact ih.cons id

private theorem eraseP_eq_filter {l : List (SubscriptionId × η)} (hl : (l.map Prod.fst).Nodup)
    (id : SubscriptionId) : l.eraseP (fun s => s.1 = id) = l.filter fun s => s.1 ≠ id := by
  induction l with
  | nil => rfl
  | cons s l ih =>
    rw [List.map_cons, List.nodup_cons] at hl
    by_cases hs : s.1 = id
    · have hrest : l.filter (fun s => s.1 ≠ id) = l := by
        refine List.filter_eq_self.2 fun t ht => ?_
        have hne : t.1 ≠ id := fun he => hl.1 (by rw [hs, ← he]; exact List.mem_map_of_mem ht)
        simpa using hne
      rw [List.eraseP_cons_of_pos (by simpa using hs), List.filter_cons_of_neg (by simpa using hs),
        hrest]
    · rw [List.eraseP_cons_of_neg (by simpa using hs), List.filter_cons_of_pos (by simpa using hs),
        ih hl.2]

/-! ### What the lists record -/

/-- The lists hold what stands after a log, a list for each name under which something stands, and
the numbers that the log gave out are those up to the last one. -/
structure Records (h : Hub η) (log : List (Exchange η)) : Prop where
  handlers : ∀ name, h.handlers name = standing name log
  issued : log.filterMap Exchange.issued? = (List.range' 1 h.issued).map SubscriptionId.mk
  filled : ∀ name, h.lists.get? name ≠ some []

variable {log : List (Exchange η)}

/-- Without subscriptions there is nothing to record. -/
theorem records_empty : (empty : Hub η).Records [] := ⟨fun _ => rfl, rfl, nofun⟩

/-- Recorded numbers ascend. -/
theorem Records.ascending (hr : h.Records log) :
    (log.filterMap Exchange.issued?).Pairwise fun a b => a.number < b.number := by
  rw [hr.issued, List.pairwise_map]
  exact List.pairwise_lt_range'

private theorem Records.nodup (hr : h.Records log) (name : String) :
    ((h.handlers name).map Prod.fst).Nodup := by
  rw [hr.handlers]
  refine List.Pairwise.imp ?_ (hr.ascending.sublist (standing_sublist name log))
  intro a b hlt heq
  exact Nat.lt_irrefl _ (heq ▸ hlt)

/-- A subscription is recorded. -/
theorem Records.subscribe (hr : h.Records log) (name : String) (handler : η) :
    (h.subscribe name handler).2.Records
      (log ++ [.subscribed name handler (h.subscribe name handler).1]) where
  handlers other := by
    rw [handlers_subscribe, standing_append, ← hr.handlers]
    have hall : (h.handlers other).filter (fun s =>
        stays other s.1 [.subscribed name handler (h.subscribe name handler).1]) =
          h.handlers other := List.filter_eq_self.2 fun _ _ => rfl
    rw [hall, standing]
    by_cases hn : name = other
    · simp [hn, stays, standing, Hub.subscribe]
    · simp [hn, standing]
  issued := by
    rw [List.filterMap_append, hr.issued]
    simp [Exchange.issued?, Hub.subscribe, List.range'_concat, Nat.add_comm]
  filled other := by
    show (h.lists.insert name _).get? other ≠ some []
    rw [Table.get?_insert]
    split
    · simp
    · exact hr.filled other

/-- A number is found under a name exactly if it stands in the name's list. -/
theorem unsubscribe_fst (h : Hub η) (name : String) (id : SubscriptionId) :
    (h.unsubscribe name id).1 = h.isSubscribed name id := by
  rw [unsubscribe]
  cases h.isSubscribed name id <;> rfl

/-- Where a number is not found, a cancellation changes nothing. -/
theorem unsubscribe_of_not_found {name : String} {id : SubscriptionId}
    (hf : (h.unsubscribe name id).1 = false) : (h.unsubscribe name id).2 = h := by
  rw [unsubscribe_fst] at hf
  rw [unsubscribe, if_neg (by simp [hf])]

private theorem get?_without_ne_nil (h : Hub η) (name other : String) (id : SubscriptionId)
    (hf : h.lists.get? other ≠ some []) : (h.without name id).get? other ≠ some [] := by
  rw [without]
  split
  · rw [Table.get?_erase]
    split
    · simp
    · exact hf
  · next hrest =>
    rw [Table.get?_insert]
    split
    · simpa using hrest
    · exact hf

/-- A cancellation is recorded, whether it finds something or not. -/
theorem Records.unsubscribe (hr : h.Records log) (name : String) (id : SubscriptionId) :
    (h.unsubscribe name id).2.Records
      (log ++ [.unsubscribed name id (h.unsubscribe name id).1]) := by
  have hissued : ∀ found,
      (log ++ [Exchange.unsubscribed name id found]).filterMap Exchange.issued? =
      log.filterMap Exchange.issued? := by
    intro found
    rw [List.filterMap_append]
    exact List.append_nil _
  have hstanding : ∀ other,
      standing other (log ++ [.unsubscribed name id (h.unsubscribe name id).1]) =
        (h.handlers other).filter fun s =>
          !((h.unsubscribe name id).1 && name = other && s.1 = id) := by
    intro other
    rw [standing_append, ← hr.handlers]
    simp [stays, Exchange.removes, standing, eq_comm]
  cases hf : (h.unsubscribe name id).1 with
  | false =>
    rw [hf] at hstanding
    rw [unsubscribe_of_not_found hf]
    refine ⟨fun other => ?_, (hissued false).trans hr.issued, hr.filled⟩
    rw [hstanding]
    exact (List.filter_eq_self.2 fun _ _ => rfl).symm
  | true =>
    rw [hf] at hstanding
    have hs := hf
    rw [unsubscribe_fst] at hs
    refine ⟨fun other => ?_, ?_, fun other => ?_⟩
    · rw [handlers_unsubscribe, hstanding, eraseP_eq_filter (hr.nodup other)]
      by_cases hn : name = other
      · simp [hn]
      · rw [if_neg hn, decide_eq_false hn]
        exact (List.filter_eq_self.2 fun _ _ => rfl).symm
    · rw [hissued, hr.issued, Hub.unsubscribe, if_pos hs]
    · rw [Hub.unsubscribe, if_pos hs]
      exact get?_without_ne_nil h name other id (hr.filled other)

/-- Every call is recorded. -/
theorem Records.perform (hr : h.Records log) (call : Call η) :
    (h.perform call).2.Records (log ++ [(h.perform call).1]) := by
  cases call with
  | subscribe name handler => exact hr.subscribe name handler
  | unsubscribe name id => exact hr.unsubscribe name id

/-- Calls that follow one another are recorded. -/
theorem Records.performAll (hr : h.Records log) (calls : List (Call η)) :
    (h.performAll calls).2.Records (log ++ (h.performAll calls).1) := by
  induction calls generalizing h log with
  | nil =>
    rw [Hub.performAll, List.append_nil]
    exact hr
  | cons call calls ih =>
    have hrest := ih (hr.perform call)
    rw [List.append_assoc] at hrest
    exact hrest

/-- What is recorded is what the lists show. -/
theorem Records.agrees (hr : h.Records log) : h.Agrees log where
  ascending := hr.ascending
  handlers := hr.handlers
  count name := congrArg List.length (hr.handlers name)
  silent name set := by
    have hfilled := hr.filled name
    rw [← hr.handlers, notification, Option.map_eq_none_iff, Hub.handlers]
    cases hl : h.lists.get? name with
    | none => simp
    | some l =>
      rw [hl] at hfilled
      simpa using hfilled
  told name set n hn := by
    obtain ⟨hset, hhandlers⟩ := notification_eq_some hn
    rw [← hr.handlers, ← hset, ← hhandlers]
  found name id := by
    rw [unsubscribe_fst, isSubscribed, ← hr.handlers]
    simp
  removal name id hf := by
    have hs := hf
    rw [unsubscribe_fst, isSubscribed, List.any_eq_true] at hs
    obtain ⟨s, hmem, hs⟩ := hs
    obtain ⟨t, front, back, -, ht, hlist, herase⟩ :=
      List.exists_of_eraseP (p := fun s => decide (s.1 = id)) hmem hs
    have hid : t.1 = id := of_decide_eq_true ht
    subst hid
    refine ⟨front, t.2, back, (hr.handlers name).symm.trans hlist, fun other => ?_⟩
    rw [handlers_unsubscribe, ← hr.handlers]
    split
    · next hn => rw [← hn, herase]
    · rfl
  refusal _ _ := unsubscribe_of_not_found

private theorem map_call_performAll (h : Hub η) (calls : List (Call η)) :
    (h.performAll calls).1.map Exchange.call = calls := by
  induction calls generalizing h with
  | nil => rfl
  | cons call calls ih =>
    have hcall : (h.perform call).1.call = call := by
      cases call <;> rfl
    rw [performAll, List.map_cons, hcall, ih]

/-- After any calls, the subscriptions agree with the log of these calls. -/
theorem performed_agrees (calls : List (Call η)) :
    ((empty : Hub η).performAll calls).1.map Exchange.call = calls ∧
      (empty.performAll calls).2.Agrees (empty.performAll calls).1 :=
  ⟨map_call_performAll empty calls, (records_empty.performAll calls).agrees⟩

end ServiceDiscovery.Hub
