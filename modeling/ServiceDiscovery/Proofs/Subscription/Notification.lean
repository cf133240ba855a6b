import Mathlib.Data.List.Chain
import ServiceDiscovery.Proofs.Subscription.Depth

/-!
# Who is told what

The operations of a cache, each run to the end of the delivery that it sets off. Whatever the
handlers do meanwhile, a set that differs from the stored one is told to the handlers that were
subscribed to the key's name when it was accepted, to each once, in their order, and nobody is
called for anything else. The contents of a key follow one another without repetition.
-/

namespace ServiceDiscovery

/-! ### Calls for accepted sets -/

/-- In a log, these subscriptions are called with a set, one after the other. Any other call is one
of those for a set that is accepted in between. -/
inductive Notifies {ρ : Type} : EndpointSet → List SubscriptionId → List (Deed ρ) → Prop
  /-- Nobody is to be called, and nothing happens. -/
  | nobody (set : EndpointSet) : Notifies set [] []
  /-- The first of them is called. -/
  | called {set : EndpointSet} {id : SubscriptionId} {ids : List SubscriptionId}
      {log : List (Deed ρ)} (h : Notifies set ids log) :
      Notifies set (id :: ids) (.seen (.called id set) :: log)
  /-- A handler reports something. -/
  | reported {set : EndpointSet} {ids : List SubscriptionId} {log : List (Deed ρ)} {r : ρ}
      (h : Notifies set ids log) : Notifies set ids (.seen (.reported r) :: log)
  /-- A set is dropped. -/
  | removed {set : EndpointSet} {ids : List SubscriptionId} {log : List (Deed ρ)} {key : Key}
      (h : Notifies set ids log) : Notifies set ids (.removed key :: log)
  /-- Another set is accepted, and those that are subscribed are called with it at once. -/
  | accepted {set other : EndpointSet} {ids subscribed : List SubscriptionId}
      {told log : List (Deed ρ)} {key : Key} (ht : Notifies other subscribed told)
      (h : Notifies set ids log) :
      Notifies set ids (.accepted key other subscribed :: told ++ log)

/-- Two logs after each other call those of the first and then those of the second. -/
theorem Notifies.append {ρ : Type} {set : EndpointSet} {ids others : List SubscriptionId}
    {log later : List (Deed ρ)} (h : Notifies set ids log) (hl : Notifies set others later) :
    Notifies set (ids ++ others) (log ++ later) := by
  induction h with
  | nobody set => exact hl
  | called h ih => exact .called (ih hl)
  | reported h ih => exact .reported (ih hl)
  | removed h ih => exact .removed (ih hl)
  | accepted ht h _ ih =>
    rw [List.append_assoc]
    exact .accepted ht (ih hl)

/-- A set that is dropped calls nobody. -/
theorem Notifies.removal {η ρ : Type} {set : EndpointSet} {ids : List SubscriptionId}
    {log : List (Deed ρ)} (h : Notifies set ids log) (c : Cache η) (key : Key) :
    Notifies set ids (c.removal key ++ log) := by
  rw [Cache.removal]
  split
  · exact .removed h
  · exact h

/-! ### The contents of a key -/

/-- What a deed makes the content of a key, if it changes it. -/
def Deed.content? {ρ : Type} (key : Key) : Deed ρ → Option (Option EndpointSet)
  | .accepted other set _ => if other = key then some (some set) else none
  | .removed other => if other = key then some none else none
  | .seen _ => none

/-- What a key comes to have, one content after the other. -/
def contents {ρ : Type} (key : Key) (log : List (Deed ρ)) : List (Option EndpointSet) :=
  log.filterMap (Deed.content? key)

/-- Contents that follow a first one, each different from the one before, up to a last one. -/
def Leads (first : Option EndpointSet) (later : List (Option EndpointSet))
    (last : Option EndpointSet) : Prop :=
  (first :: later).IsChain (· ≠ ·) ∧ later.getLastD first = last

/-- Nothing leads from a content to itself. -/
theorem leads_nil (content : Option EndpointSet) : Leads content [] content :=
  ⟨List.isChain_singleton content, rfl⟩

/-- The next content is another one, and the rest leads on from there. -/
theorem leads_cons {first next last : Option EndpointSet} {later : List (Option EndpointSet)} :
    Leads first (next :: later) last ↔ first ≠ next ∧ Leads next later last := by
  rw [Leads, List.isChain_cons_cons, List.getLastD_cons, Leads, and_assoc]

/-- What leads to a content and what leads on from there. -/
theorem Leads.append {first middle last : Option EndpointSet}
    {before after : List (Option EndpointSet)} (h : Leads first before middle)
    (ha : Leads middle after last) : Leads first (before ++ after) last := by
  induction before generalizing first with
  | nil =>
    obtain ⟨-, rfl⟩ := h
    exact ha
  | cons next before ih =>
    obtain ⟨hne, h⟩ := leads_cons.1 h
    exact leads_cons.2 ⟨hne, ih h⟩

/-- The contents of two logs after each other. -/
theorem contents_append {ρ : Type} (key : Key) (log later : List (Deed ρ)) :
    contents key (log ++ later) = contents key log ++ contents key later :=
  List.filterMap_append

/-- An accepted set comes to its key alone, in place of another content. -/
theorem leads_accepted {η ρ : Type} {c c' : Cache η} {key other : Key} {set : EndpointSet}
    {ids : List SubscriptionId} {log : List (Deed ρ)} {last : Option EndpointSet}
    (h : c.get? key ≠ some set)
    (hc : c'.get? other = if key = other then some set else c.get? other)
    (hl : Leads (c'.get? other) (contents other log) last) :
    Leads (c.get? other) (contents other (.accepted key set ids :: log)) last := by
  rw [hc] at hl
  by_cases hk : key = other
  · subst hk
    rw [if_pos rfl] at hl
    simpa [contents, Deed.content?] using leads_cons.2 ⟨h, hl⟩
  · simpa [contents, Deed.content?, hk] using hl

/-- A set that is dropped goes from its key alone. -/
theorem leads_removal {η ρ : Type} {c c' : Cache η} {key : Key}
    (hc : ∀ other, c'.get? other = if key = other then none else c.get? other) (other : Key) :
    Leads (c.get? other) (contents other (c.removal key : List (Deed ρ))) (c'.get? other) := by
  rw [hc]
  by_cases hk : key = other
  · subst hk
    rw [if_pos rfl, Cache.removal]
    cases hg : c.get? key with
    | none => exact leads_nil none
    | some set =>
      have hne : some set ≠ none := Option.some_ne_none set
      simpa [contents, Deed.content?] using leads_cons.2 ⟨hne, leads_nil none⟩
  · rw [if_neg hk, Cache.removal]
    split
    · simpa [contents, Deed.content?, hk] using leads_nil _
    · exact leads_nil _

variable {writes : Bool} {ρ : Type}

/-- Whether a log has the calls that a part of a delivery has to make, and no others but for sets
that are accepted in between. -/
def Frame.Calls : Frame writes ρ → List (Deed ρ) → Prop
  | .call set handlers, log => Notifies set (handlers.map Prod.fst) log
  | .run _, log => ∀ set, Notifies set [] log

namespace Delivery

variable {c c' : HandlerCache writes ρ}

/-- A part of a delivery makes the calls that it has to make. -/
theorem Does.calls {frame : Frame writes ρ} {log : List (Deed ρ)} (h : Does c frame log c') :
    frame.Calls log := by
  induction h with
  | done c | failed c => exact fun set => .nobody set
  | reported h ih => exact fun set => .reported (ih set)
  | read h ih | subscribed h ih | unsubscribed h ih => exact ih
  | refused hg hn ih => exact ih
  | accepted hg ht hn iht ihn => exact fun set => .accepted iht (ihn set)
  | invalidated h ih => exact fun set => (ih set).removal _ _
  | told c set => exact .nobody set
  | tell h hs ih ihs => exact .called ((ih _).append ihs)

/-- The contents of a key go on from the one at the beginning to the one at the end. -/
theorem Does.leads {frame : Frame writes ρ} {log : List (Deed ρ)} (h : Does c frame log c')
    (key : Key) : Leads (c.get? key) (contents key log) (c'.get? key) := by
  induction h with
  | done c | failed c => exact leads_nil _
  | reported h ih => exact ih
  | read h ih | subscribed h ih | unsubscribed h ih => exact ih
  | refused hg hn ih => exact ih
  | @accepted c c₁ c' allowed k set next told log hg ht hn iht ihn =>
    refine leads_accepted hg (Cache.get?_store c k key set) ?_
    rw [List.append_eq, contents_append]
    exact iht.append ihn
  | @invalidated c c' k next log h ih =>
    rw [contents_append]
    exact (leads_removal (Cache.get?_invalidate c k) key).append ih
  | told c set => exact leads_nil _
  | @tell c c₁ c' set id handler handlers log told h hs ih ihs =>
    show Leads _ (contents key (log ++ told)) _
    rw [contents_append]
    exact ih.append ihs

end Delivery

/-! ### The operations of a cache -/

namespace Cache

/-- Something that the owner of a cache does with it. -/
inductive Operation (writes : Bool) (ρ : Type)
  /-- A set is stored for a key. -/
  | update (key : Key) (set : EndpointSet)
  /-- A set is stored for a key, and the key is claimed for watching. -/
  | seed (key : Key) (set : EndpointSet)
  /-- The set of a key is dropped. -/
  | invalidate (key : Key)
  /-- The set of a key is dropped, and its claim is given back. -/
  | release (key : Key)
  /-- A handler is subscribed to a name. -/
  | subscribe (name : String) (handler : Handler writes ρ)
  /-- A subscription is cancelled. -/
  | unsubscribe (name : String) (id : SubscriptionId)

namespace Operation

/-- What an operation gives to deliver, and the cache that it leaves. -/
def apply (c : HandlerCache writes ρ) :
    Operation writes ρ → Option (Notification (Handler writes ρ)) × HandlerCache writes ρ
  | .update key set => (c.update key set).2
  | .seed key set => (c.seed key set).2
  | .invalidate key => (none, (c.invalidate key).2)
  | .release key => (none, c.release key)
  | .subscribe name handler => (none, (c.subscribe name handler).2)
  | .unsubscribe name id => (none, (c.unsubscribe name id).2)

/-- The set that an operation offers for a key. -/
def offer? : Operation writes ρ → Option (Key × EndpointSet)
  | .update key set | .seed key set => some (key, set)
  | .invalidate _ | .release _ | .subscribe _ _ | .unsubscribe _ _ => none

/-- What an operation that offers no set does to the contents of a cache. -/
def removal (c : HandlerCache writes ρ) : Operation writes ρ → List (Deed ρ)
  | .invalidate key | .release key => c.removal key
  | .update _ _ | .seed _ _ | .subscribe _ _ | .unsubscribe _ _ => []

end Operation

variable {c c' : HandlerCache writes ρ} {o : Operation writes ρ} {ops : List (Operation writes ρ)}
  {log : List (Deed ρ)} {events : List (Event ρ)}

/-- The cache after operations, each with its delivery, and all that was seen; none if a delivery
takes more than `fuel` operations of handlers. -/
def perform (fuel : Nat) : HandlerCache writes ρ → List (Operation writes ρ) →
    Option (HandlerCache writes ρ × List (Event ρ))
  | c, [] => some (c, [])
  | c, o :: ops =>
    (Delivery.complete fuel (o.apply c).1 (o.apply c).2).bind fun p =>
      (perform fuel p.1 ops).map fun q => (q.1, p.2 ++ q.2)

/-- Operations come to their ends one after the other, with what is seen of them. -/
def Performs (c : HandlerCache writes ρ) (ops : List (Operation writes ρ))
    (events : List (Event ρ)) (c' : HandlerCache writes ρ) : Prop :=
  ∃ fuel, perform fuel c ops = some (c', events)

/-- There is a bound to the depth of the delivery of each operation. -/
def Shallow : HandlerCache writes ρ → List (Operation writes ρ) → Prop
  | _, [] => True
  | c, o :: ops =>
    Delivery.Shallow (o.apply c).2 (.ofNotification (o.apply c).1) ∧
      ∀ c₁ events, Delivery.Ends (o.apply c).2 (.ofNotification (o.apply c).1) c₁ events →
        Shallow c₁ ops

/-- What happens in an operation and its delivery, and the cache after it. -/
inductive Happens (c : HandlerCache writes ρ) (o : Operation writes ρ) : List (Deed ρ) →
    HandlerCache writes ρ → Prop
  /-- The set that is stored is not accepted, and nobody is called. -/
  | refused {key : Key} {set : EndpointSet} (ho : o.offer? = some (key, set))
      (h : c.get? key = some set) : Happens c o [] (o.apply c).2
  /-- Another set is accepted, and all handlers of the key's name are called. -/
  | accepted {c' : HandlerCache writes ρ} {key : Key} {set : EndpointSet} {told : List (Deed ρ)}
      (ho : o.offer? = some (key, set)) (h : c.get? key ≠ some set)
      (ht : Delivery.Does (o.apply c).2 (.call set (c.hub.handlers key.name)) told c') :
      Happens c o (.accepted key set (c.subscribed key.name) :: told) c'
  /-- Nothing is offered, and nobody is called. -/
  | quiet (ho : o.offer? = none) : Happens c o (o.removal c) (o.apply c).2

/-- What happens in operations one after the other. -/
inductive HappensAll : HandlerCache writes ρ → List (Operation writes ρ) → List (Deed ρ) →
    HandlerCache writes ρ → Prop
  /-- Nothing is to be done. -/
  | nil (c : HandlerCache writes ρ) : HappensAll c [] [] c
  /-- The first operation happens before the others. -/
  | cons {c c₁ c' : HandlerCache writes ρ} {o : Operation writes ρ}
      {ops : List (Operation writes ρ)} {log later : List (Deed ρ)} (h : Happens c o log c₁)
      (hs : HappensAll c₁ ops later c') : HappensAll c (o :: ops) (log ++ later) c'

private theorem Operation.apply_refused {key : Key} {set : EndpointSet}
    (ho : o.offer? = some (key, set)) (h : c.get? key = some set) : (o.apply c).1 = none := by
  cases o with
  | update | seed =>
    cases ho
    show (c.store key set).2.1 = none
    rw [store_of_eq h]
  | invalidate | release | subscribe | unsubscribe => cases ho

/-- An operation that offers another set gives the notification of the key's name to deliver. -/
theorem Operation.apply_accepted {key : Key} {set : EndpointSet}
    (ho : o.offer? = some (key, set)) (h : c.get? key ≠ some set) :
    (o.apply c).1 = c.hub.notification key.name set := by
  cases o with
  | update | seed =>
    cases ho
    show (c.store key set).2.1 = _
    rw [store_of_ne h]
  | invalidate | release | subscribe | unsubscribe => cases ho

/-- An operation that offers nothing gives nothing to deliver. -/
theorem Operation.apply_quiet (ho : o.offer? = none) : (o.apply c).1 = none := by
  cases o with
  | update | seed => cases ho
  | invalidate | release | subscribe | unsubscribe => rfl

/-- A set that is offered is the one that its key has afterwards; other keys keep theirs. -/
theorem Operation.get?_apply {key : Key} {set : EndpointSet} (ho : o.offer? = some (key, set))
    (other : Key) : (o.apply c).2.get? other = if key = other then some set else c.get? other := by
  cases o with
  | update =>
    cases ho
    exact get?_store c key other set
  | seed =>
    cases ho
    exact get?_seed c key other set
  | invalidate | release | subscribe | unsubscribe => cases ho

/-- An operation that offers nothing leaves every key with its set or with none. -/
theorem Operation.get?_apply_quiet (ho : o.offer? = none) (key : Key) :
    (o.apply c).2.get? key = c.get? key ∨ (o.apply c).2.get? key = none := by
  cases o with
  | update | seed => cases ho
  | invalidate dropped => exact c.get?_invalidate_or dropped key
  | release released => exact c.get?_release_or released key
  | subscribe | unsubscribe => exact Or.inl rfl

private theorem Operation.filterMap_removal (c : HandlerCache writes ρ) (o : Operation writes ρ) :
    (o.removal c).filterMap Deed.seen? = [] := by
  cases o with
  | invalidate key | release key => exact Cache.filterMap_removal c key
  | update | seed | subscribe | unsubscribe => rfl

/-- What is seen of an operation's delivery is what the log of the operation shows. -/
theorem ends_apply_iff :
    Delivery.Ends (o.apply c).2 (.ofNotification (o.apply c).1) c' events ↔
      ∃ log, Happens c o log c' ∧ log.filterMap Deed.seen? = events := by
  constructor
  · intro h
    cases ho : o.offer? with
    | none =>
      rw [Operation.apply_quiet ho] at h
      obtain ⟨rfl, rfl⟩ := Delivery.ends_nil.1 h
      exact ⟨_, .quiet ho, o.filterMap_removal c⟩
    | some offer =>
      obtain ⟨key, set⟩ := offer
      by_cases hg : c.get? key = some set
      · rw [Operation.apply_refused ho hg] at h
        obtain ⟨rfl, rfl⟩ := Delivery.ends_nil.1 h
        exact ⟨_, .refused ho hg, rfl⟩
      · rw [Operation.apply_accepted ho hg] at h
        obtain ⟨log, hlog, rfl⟩ := h.doesAll
        rw [← List.append_nil (Delivery.ofNotification _)] at hlog
        obtain ⟨told, rest, c₁, rfl, htold, hrest⟩ := hlog.of_notification.of_cons
        cases hrest
        refine ⟨_, .accepted ho hg htold, ?_⟩
        simp [List.filterMap_cons, Deed.seen?]
  · rintro ⟨log, h, rfl⟩
    cases h with
    | refused ho hg =>
      rw [Operation.apply_refused ho hg]
      exact Delivery.ends_nil.2 ⟨rfl, rfl⟩
    | quiet ho =>
      rw [Operation.apply_quiet ho]
      exact Delivery.ends_nil.2 ⟨rfl, o.filterMap_removal c⟩
    | accepted ho hg ht =>
      have hends := (ht.ends (Delivery.ends_nil.2 ⟨rfl, rfl⟩)).notification
      rw [List.append_nil, List.append_nil] at hends
      rw [Operation.apply_accepted ho hg]
      exact hends

/-- What is called in an operation is called for a set that is accepted in it. -/
theorem Happens.notifies (h : Happens c o log c') (set : EndpointSet) : Notifies set [] log := by
  cases h with
  | refused ho hg => exact .nobody set
  | accepted ho hg ht =>
    rw [← List.append_nil (_ :: _)]
    exact .accepted ht.calls (.nobody set)
  | quiet ho =>
    cases o with
    | invalidate key | release key =>
      rw [← List.append_nil (Operation.removal _ _)]
      exact (Notifies.nobody set).removal c key
    | update | seed | subscribe | unsubscribe => exact .nobody set

/-- The contents of a key go on through an operation. -/
theorem Happens.leads (h : Happens c o log c') (key : Key) :
    Leads (c.get? key) (contents key log) (c'.get? key) := by
  cases h with
  | @refused k set ho hg =>
    have hsame : (o.apply c).2.get? key = c.get? key := by
      rw [Operation.get?_apply ho]
      split
      · next hk => rw [← hk, hg]
      · rfl
    rw [hsame]
    exact leads_nil _
  | accepted ho hg ht => exact leads_accepted hg (Operation.get?_apply ho key) (ht.leads key)
  | quiet ho =>
    cases o with
    | update | seed => cases ho
    | invalidate k => exact leads_removal (get?_invalidate c k) key
    | release k => exact leads_removal (get?_release c k) key
    | subscribe | unsubscribe => exact leads_nil _

/-- What is called in a run of operations is called for the sets that are accepted in it. -/
theorem HappensAll.notifies (h : HappensAll c ops log c') (set : EndpointSet) :
    Notifies set [] log := by
  induction h with
  | nil c => exact .nobody set
  | cons h _ ih => exact (h.notifies set).append ih

/-- The contents of a key go on through a run of operations. -/
theorem HappensAll.leads (h : HappensAll c ops log c') (key : Key) :
    Leads (c.get? key) (contents key log) (c'.get? key) := by
  induction h with
  | nil c => exact leads_nil _
  | cons h _ ih =>
    rw [contents_append]
    exact (h.leads key).append ih

/-- Operations that come to their ends within some number of steps do so within any greater one. -/
theorem perform_mono {fuel more : Nat} (hle : fuel ≤ more)
    (h : perform fuel c ops = some (c', events)) : perform more c ops = some (c', events) := by
  induction ops generalizing c events with
  | nil => exact h
  | cons o ops ih =>
    obtain ⟨⟨c₁, first⟩, hfirst, h⟩ := Option.bind_eq_some_iff.1 h
    obtain ⟨⟨c₂, later⟩, hlater, h⟩ := Option.map_eq_some_iff.1 h
    cases h
    have hfirst : Delivery.complete more (o.apply c).1 (o.apply c).2 = some (c₁, first) :=
      Delivery.finish_mono hle hfirst
    simp [perform, hfirst, ih hlater]

/-- Operations come to their ends if the first one does and then the others do. -/
theorem performs_cons :
    Performs c (o :: ops) events c' ↔ ∃ c₁ first later,
      Delivery.Ends (o.apply c).2 (.ofNotification (o.apply c).1) c₁ first ∧
        Performs c₁ ops later c' ∧ events = first ++ later := by
  constructor
  · rintro ⟨fuel, h⟩
    obtain ⟨⟨c₁, first⟩, hfirst, h⟩ := Option.bind_eq_some_iff.1 h
    obtain ⟨⟨c₂, later⟩, hlater, h⟩ := Option.map_eq_some_iff.1 h
    cases h
    exact ⟨c₁, first, later, ⟨fuel, hfirst⟩, ⟨fuel, hlater⟩, rfl⟩
  · rintro ⟨c₁, first, later, ⟨fuel, hfirst⟩, ⟨more, hlater⟩, rfl⟩
    have hfirst : Delivery.complete (max fuel more) (o.apply c).1 (o.apply c).2 =
        some (c₁, first) :=
      Delivery.finish_mono (Nat.le_max_left fuel more) hfirst
    have hlater : perform (max fuel more) c₁ ops = some (c', later) :=
      perform_mono (Nat.le_max_right fuel more) hlater
    refine ⟨max fuel more, ?_⟩
    simp [perform, hfirst, hlater]

/-- What is seen of a run of operations is what its log shows. -/
theorem HappensAll.performs (h : HappensAll c ops log c') :
    Performs c ops (log.filterMap Deed.seen?) c' := by
  induction h with
  | nil c => exact ⟨0, rfl⟩
  | cons h _ ih =>
    rw [List.filterMap_append]
    exact performs_cons.2 ⟨_, _, _, ends_apply_iff.2 ⟨_, h, rfl⟩, ih, rfl⟩

/-- Operations are performed in one way only. -/
theorem Performs.unique {c₁ c₂ : HandlerCache writes ρ} {others : List (Event ρ)}
    (h : Performs c ops events c₁) (h' : Performs c ops others c₂) : events = others ∧ c₁ = c₂ := by
  induction ops generalizing c events others with
  | nil =>
    obtain ⟨fuel, h⟩ := h
    obtain ⟨fuel', h'⟩ := h'
    cases h
    cases h'
    exact ⟨rfl, rfl⟩
  | cons o ops ih =>
    obtain ⟨d, first, later, hfirst, hlater, rfl⟩ := performs_cons.1 h
    obtain ⟨d', first', later', hfirst', hlater', rfl⟩ := performs_cons.1 h'
    obtain ⟨rfl, rfl⟩ := hfirst.unique hfirst'
    obtain ⟨rfl, rfl⟩ := ih hlater hlater'
    exact ⟨rfl, rfl⟩

/-- Operations whose deliveries have bounded depth all come to their ends. -/
theorem Shallow.happensAll (h : Shallow c ops) : ∃ log c', HappensAll c ops log c' := by
  induction ops generalizing c with
  | nil => exact ⟨[], c, .nil c⟩
  | cons o ops ih =>
    obtain ⟨hfirst, hlater⟩ := h
    obtain ⟨c₁, events, hends⟩ := Delivery.shallow_iff_ends.1 hfirst
    obtain ⟨log, hlog, -⟩ := ends_apply_iff.1 hends
    obtain ⟨later, c', hlater⟩ := ih (hlater c₁ events hends)
    exact ⟨_, c', .cons hlog hlater⟩

/-- Operations that come to their ends have deliveries of bounded depth. -/
theorem Performs.shallow (h : Performs c ops events c') : Shallow c ops := by
  induction ops generalizing c events with
  | nil => exact trivial
  | cons o ops ih =>
    obtain ⟨c₁, first, later, hfirst, hlater, -⟩ := performs_cons.1 h
    refine ⟨Delivery.shallow_iff_ends.2 ⟨c₁, first, hfirst⟩, fun c₂ other hother => ?_⟩
    obtain ⟨rfl, -⟩ := hfirst.unique hother
    exact ih hlater

/-- Operations of a cache tell their handlers exactly the accepted sets. If the handlers store sets
only to a bounded depth, all operations come to their ends, in one way, and what is seen of them is
what their log shows. In the log, an operation that offers the stored set or none calls nobody, nor
does a handler that offers the stored set; another set calls all handlers that are subscribed to
its key's name at that moment, each once for every subscription and in their order, with that set,
and there are no other calls. The contents that a key comes to have are each different from the one
before, and the last of them is the one that it has in the end. -/
theorem notified_exactly (c : HandlerCache writes ρ) (ops : List (Operation writes ρ))
    (h : Shallow c ops) :
    ∃ log c', HappensAll c ops log c' ∧
      (∀ events c'', Performs c ops events c'' ↔
        events = log.filterMap Deed.seen? ∧ c'' = c') ∧
      (∀ set, Notifies set [] log) ∧
      ∀ key, (c.get? key :: contents key log).IsChain (· ≠ ·) ∧
        (contents key log).getLastD (c.get? key) = c'.get? key := by
  obtain ⟨log, c', hlog⟩ := h.happensAll
  refine ⟨log, c', hlog, fun events c'' => ⟨fun hp => hp.unique hlog.performs, ?_⟩,
    hlog.notifies, hlog.leads⟩
  rintro ⟨rfl, rfl⟩
  exact hlog.performs

/-- A handler that stores its set for another key, then cancels a subscription, and fails. -/
def relay (key : Key) (name : String) (id : SubscriptionId) : Handler true Unit := fun _ set =>
  .write rfl key set fun _ => .unsubscribe name id fun _ => .fail

/-- The set of one endpoint. -/
def relayedSet : EndpointSet := .ofList [⟨"10.0.0.1", 80⟩]

/-- A set is offered twice for a service whose first handler relays it and cancels the second one.
It is dropped, and then offered for the service of that name in a datacenter. -/
def relaying : List (Operation true Unit) :=
  [.subscribe "api" (relay (.ofName "copy") "api" ⟨2⟩), .subscribe "api" fun _ _ => .done,
    .subscribe "copy" fun _ _ => .done, .update (.ofName "api") relayedSet,
    .update (.ofName "api") relayedSet, .invalidate (.ofName "api"),
    .seed ⟨"api", some "dc1"⟩ relayedSet]

/-- The cache after the relayed operations. -/
def relayed : HandlerCache true Unit := ((perform 10 .empty relaying).getD (.empty, [])).1

/-- The handler that is cancelled meanwhile is still called for the first set, after the one that
is told of the relayed set; the set that is offered again is told to nobody. -/
theorem notified_exactly_relayed :
    Shallow .empty relaying ∧ ∃ log, HappensAll .empty relaying log relayed ∧
      log.filterMap Deed.seen? = [.called ⟨1⟩ relayedSet, .called ⟨3⟩ relayedSet,
        .called ⟨2⟩ relayedSet, .called ⟨1⟩ relayedSet] ∧
      (∀ set, Notifies set [] log) ∧
      (contents (.ofName "api") log).getLastD none = none ∧
      relayed.get? (.ofName "copy") = some relayedSet := by
  have hrun : Performs .empty relaying [.called ⟨1⟩ relayedSet, .called ⟨3⟩ relayedSet,
      .called ⟨2⟩ relayedSet, .called ⟨1⟩ relayedSet] relayed := ⟨10, rfl⟩
  obtain ⟨log, c', hlog, hseen, hcalls, hcontents⟩ :=
    notified_exactly .empty relaying hrun.shallow
  obtain ⟨hevents, rfl⟩ := (hseen _ _).1 hrun
  exact ⟨hrun.shallow, log, hlog, hevents.symm, hcalls, (hcontents _).2, rfl⟩

end Cache

end ServiceDiscovery
