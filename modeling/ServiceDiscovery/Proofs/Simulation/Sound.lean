import ServiceDiscovery.Proofs.Registry.Memory
import ServiceDiscovery.Proofs.Simulation.Turn

/-!
# Sound worlds

What holds of a world over a registry in memory after any turns. Queries are out for tasks that wait
for them and no others, a watcher's query waits after the index that the watcher stands at, no query
breaks down, and nobody knows an index that the registry has not reached.
-/

namespace ServiceDiscovery

/-- An action that is a turn is not one that the registry or a cancellation causes. -/
theorem Turn.ne_of_action? {ρ : Type} {turn : Turn ρ} {a : Action ρ}
    (h : turn.action? = some a) :
    a.task? = turn.task? ∧ (∀ i result, a ≠ .answerLookup i result) ∧
      (∀ j result, a ≠ .answerWatcher j result) ∧ (∀ j, a ≠ .cancel j) ∧ ∀ j, a ≠ .crash j := by
  cases turn with
  | task t =>
    cases h
    cases t <;> refine ⟨rfl, ?_, ?_, ?_, ?_⟩ <;> intros <;> intro he <;> cases he
  | outside a ha =>
    cases h
    refine ⟨ha, ?_, ?_, ?_, ?_⟩ <;> intros <;> rintro rfl <;> cases ha
  | write c | bump | wait millis => cases h

namespace World

variable {ρ : Type}

/-- The registry gives what an action receives. -/
def Gives (w : World MemoryRegistry ρ) : Action ρ → Prop
  | .answerLookup i result =>
    ∃ p, w.lookupQueries.get? i = some p ∧ w.registry.answer? w.now p = some result
  | .answerWatcher j result =>
    ∃ p, w.watchQueries.get? j = some p ∧ w.registry.answer? w.now p = some result
  | .crash j => w.watchQueries.get? j = some .broken
  | _ => True

/-- A turn does one step of the service at most, with what the registry gives. -/
theorem TurnTo.service {w w' : World MemoryRegistry ρ} {turn : Turn ρ} (h : TurnTo w turn w') :
    w'.service = w.service ∨ ∃ a events, a.task? = turn.task? ∧ w.Gives a ∧
      w.service.step a = some (w'.service, events) := by
  cases h with
  | @acted _ a _ events _ ha hs =>
    refine Or.inr ⟨a, events, (Turn.ne_of_action? ha).1, ?_, hs⟩
    obtain ⟨-, hl, hw, -, hb⟩ := Turn.ne_of_action? ha
    cases a with
    | answerLookup i result => exact absurd rfl (hl i result)
    | answerWatcher j result => exact absurd rfl (hw j result)
    | crash j => exact absurd rfl (hb j)
    | _ => trivial
  | lookupAnswered hq ha hs => exact Or.inr ⟨.answerLookup _ _, _, rfl, ⟨_, hq, ha⟩, hs⟩
  | watcherAnswered hq ha hs => exact Or.inr ⟨.answerWatcher _ _, _, rfl, ⟨_, hq, ha⟩, hs⟩
  | watcherCrashed hq hs => exact Or.inr ⟨.crash _, _, rfl, hq, hs⟩
  | watcherRecalled hs | watcherRoused _ hs => exact Or.inr ⟨.cancel _, _, rfl, trivial, hs⟩
  | pauseEnded hs => exact Or.inr ⟨.resume _, _, rfl, trivial, hs⟩
  | lookupAsked _ _ | watcherAsked _ _ | pauseBegun _ _ | wrote _ _ | bumped _ | waited _ =>
    exact Or.inl rfl

/-- No turn sets the index of the registry back. -/
theorem TurnTo.index_le {w w' : World MemoryRegistry ρ} {turn : Turn ρ} (h : TurnTo w turn w') :
    w.registry.index ≤ w'.registry.index := by
  cases h with
  | wrote _ hi | bumped hi => exact hi
  | lookupAsked _ _ | watcherAsked _ _ => simp
  | acted _ _ | lookupAnswered _ _ _ | watcherAnswered _ _ _ | watcherCrashed _ _
  | watcherRecalled _ | watcherRoused _ _ | pauseBegun _ _ | pauseEnded _ | waited _ =>
    exact Nat.le_refl _

/-- No turn sets the clock back. -/
theorem TurnTo.now_le {w w' : World MemoryRegistry ρ} {turn : Turn ρ} (h : TurnTo w turn w') :
    w.now ≤ w'.now := by
  cases h with
  | waited millis => exact Nat.le_add_right _ _
  | _ => exact Nat.le_refl _

private theorem TurnTo.tag {w w' : World MemoryRegistry ρ} {turn : Turn ρ} (h : TurnTo w turn w') :
    w'.tag = w.tag := by
  cases h <;> rfl

/-- No turn changes the settings of the watchers. -/
theorem TurnTo.watch {w w' : World MemoryRegistry ρ} {turn : Turn ρ} (h : TurnTo w turn w') :
    w'.service.watch = w.service.watch := by
  rcases h.service with he | ⟨a, events, -, -, hstep⟩
  · rw [he]
  · exact Service.watch_of_transition (Service.transition_of_step hstep)

/-- A query of a lookup that waits for it: its outcome is fixed, and due. -/
def LookupAsked (w : World MemoryRegistry ρ) (i : Nat) (p : Pending) : Prop :=
  ∃ key time result, w.service.lookups[i]? = some (.asking key) ∧ p = .given time result ∧
    time ≤ w.now ∧
    ∀ answer, result = .ok answer → 0 < answer.index ∧ answer.index ≤ w.registry.index

/-- A query of a watcher that waits for it: it is held at the watcher's index, or has failed. -/
def WatcherAsked (w : World MemoryRegistry ρ) (j : Nat) (p : Pending) : Prop :=
  ∃ key cursor, w.service.watchers[j]? = some ⟨key, .asking cursor⟩ ∧
    ((∃ wait deadline,
      p = .blocked (.blocking w.tag key cursor.waitIndex wait) cursor.waitIndex deadline) ∨
    ∃ time f, p = .given time (.error f) ∧ time ≤ w.now)

/-- What holds of a world after any turns. -/
structure Sound (w : World MemoryRegistry ρ) : Prop where
  reached : w.service.Reached
  index_pos : 0 < w.registry.index
  lookupQuery : ∀ i p, w.lookupQueries.get? i = some p → w.LookupAsked i p
  watchQuery : ∀ j p, w.watchQueries.get? j = some p → w.WatcherAsked j p
  inHand : ∀ t x, w.service.inHand? t = some x → 0 < x.index ∧ x.index ≤ w.registry.index
  position : ∀ t key n, w.service.position? t = some (key, n) → 0 < n ∧ n ≤ w.registry.index

/-- A world at the start of the clock is sound. -/
theorem sound_start {registry : MemoryRegistry} (hr : 0 < registry.index) (tag : Option String)
    (address : String) (agent : Agent) (watch : WatchConfig) :
    (start registry tag (.start address agent watch) : World MemoryRegistry ρ).Sound := by
  constructor
  · exact .start address agent watch
  · exact hr
  · intro i p hp
    cases hp
  · intro j p hp
    cases hp
  · intro t x hx
    cases t <;> cases hx
  · intro t key n hp
    cases t <;> cases hp

section

variable {w w' : World MemoryRegistry ρ} {turn : Turn ρ}

/-- What a lookup is given comes with an index that the registry has reached. -/
theorem Sound.answer_lookup (hs : w.Sound) {i : Nat} {answer : Answer}
    (h : w.Gives (.answerLookup i (.ok answer))) :
    0 < answer.index ∧ answer.index ≤ w.registry.index := by
  obtain ⟨p, hq, ha⟩ := h
  obtain ⟨key, time, result, -, rfl, ht, hi⟩ := hs.lookupQuery i p hq
  simp only [MemoryRegistry.answer?, if_pos ht] at ha
  cases ha
  exact hi answer rfl

/-- What a watcher is given is what the registry shows when it gives it. -/
theorem Sound.answer_watcher (hs : w.Sound) {j : Nat} {key : Key} {cursor : Cursor}
    {answer : Answer} (hw : w.service.watchers[j]? = some ⟨key, .asking cursor⟩)
    (h : w.Gives (.answerWatcher j (.ok answer))) :
    answer.endpoints = (w.registry.shown w.tag key, w.registry.index) := by
  obtain ⟨p, hq, ha⟩ := h
  obtain ⟨key', cursor', hw', hp⟩ := hs.watchQuery j p hq
  rw [hw] at hw'
  cases hw'
  rcases hp with ⟨wait, deadline, rfl⟩ | ⟨time, f, rfl, ht⟩
  · obtain ⟨shown, he, hshown⟩ := MemoryRegistry.answer?_blocked ha
    cases he
    exact hshown
  · simp only [MemoryRegistry.answer?, if_pos ht] at ha
    cases ha

/-- No query breaks down. -/
theorem Sound.not_gives_crash (hs : w.Sound) (j : Nat) : ¬ w.Gives (.crash j) := by
  intro h
  obtain ⟨key, cursor, -, hp⟩ := hs.watchQuery j .broken h
  rcases hp with ⟨wait, deadline, he⟩ | ⟨time, f, he, -⟩ <;> cases he

/-- A watcher that is answered goes on from the index of the registry. -/
theorem Sound.waitIndex_recordSuccess (hs : w.Sound) {j : Nat} {key : Key} {cursor : Cursor}
    {answer : Answer} (hw : w.service.watchers[j]? = some ⟨key, .asking cursor⟩)
    (h : w.Gives (.answerWatcher j (.ok answer))) :
    (cursor.recordSuccess answer.index).waitIndex = w.registry.index := by
  have hi : answer.index = w.registry.index := congrArg Prod.snd (hs.answer_watcher hw h)
  have hle := (hs.position _ _ _ (Service.position?_of_asking hw)).2
  have hpos := hs.index_pos
  rw [Cursor.recordSuccess, hi, if_neg (by omega)]

/-- The service stays reached, as no query breaks down. -/
theorem Sound.reached_turn (hs : w.Sound) (h : TurnTo w turn w') : w'.service.Reached := by
  rcases h.service with he | ⟨a, events, -, hg, hstep⟩
  · exact he ▸ hs.reached
  · refine .step hs.reached ?_ hstep
    rintro j rfl
    exact hs.not_gives_crash j hg

/-- Nobody gets something in hand from an index that the registry has not reached. -/
theorem Sound.inHand_turn (hs : w.Sound) (h : TurnTo w turn w') (t : Task) (x : Finding)
    (hx : w'.service.inHand? t = some x) : 0 < x.index ∧ x.index ≤ w.registry.index := by
  rcases h.service with he | ⟨a, events, -, hg, hstep⟩
  · exact hs.inHand t x (he ▸ hx)
  cases Service.findingSource_of_transition (Service.transition_of_step hstep) hx with
  | kept hx' => exact hs.inHand t x hx'
  | @found i answer _ ha _ he =>
    subst ha
    have hi : answer.index = x.index := congrArg Prod.snd he
    exact hi ▸ hs.answer_lookup hg
  | observed _ ha hw _ hn =>
    subst ha
    rw [hn, hs.waitIndex_recordSuccess hw hg]
    exact ⟨hs.index_pos, Nat.le_refl _⟩

/-- Nobody comes to an index that the registry has not reached. -/
theorem Sound.position_turn (hs : w.Sound) (h : TurnTo w turn w') (t : Task) (key : Key) (n : Nat)
    (hp : w'.service.position? t = some (key, n)) : 0 < n ∧ n ≤ w.registry.index := by
  rcases h.service with he | ⟨a, events, -, hg, hstep⟩
  · exact hs.position t key n (he ▸ hp)
  cases Service.positionSource_of_transition (Service.transition_of_step hstep) hp with
  | kept hp' => exact hs.position t key n hp'
  | seeded _ hx _ => exact hs.inHand t _ hx
  | spawned _ hp' _ hn =>
    have hi := hs.position _ _ _ hp'
    omega
  | answered _ ha hw hn =>
    subst ha
    rw [hn, hs.waitIndex_recordSuccess hw hg]
    exact ⟨hs.index_pos, Nat.le_refl _⟩

/-- A lookup waits before and after for a query that was out before or is asked now. -/
def LookupWaited (w : World MemoryRegistry ρ) (s : Service ρ) (i : Nat) (p : Pending) : Prop :=
  ∃ key, w.service.lookups[i]? = some (.asking key) ∧ s.lookups[i]? = some (.asking key) ∧
    (w.lookupQueries.get? i = some p ∨ p = (w.registry.query w.now (.immediate w.tag key)).1)

private theorem lookupWaited_same (hs : w.Sound) {i : Nat} {p : Pending}
    (hp : w.lookupQueries.get? i = some p) : w.LookupWaited w.service i p := by
  obtain ⟨key, -, -, hl, -⟩ := hs.lookupQuery i p hp
  exact ⟨key, hl, hl, Or.inl hp⟩

private theorem lookupWaited_step (hs : w.Sound) {a : Action ρ} {s : Service ρ}
    {events : List (Event ρ)} (ha : w.service.step a = some (s, events)) {i : Nat}
    (hne : ∀ result, a ≠ .answerLookup i result) {p : Pending}
    (hp : w.lookupQueries.get? i = some p) : w.LookupWaited s i p := by
  obtain ⟨key, -, -, hl, -⟩ := hs.lookupQuery i p hp
  have hl' := Service.lookup_asking_of_transition (Service.transition_of_step ha) hl hne
  exact ⟨key, hl, hl', Or.inl hp⟩

/-- A lookup's query that is out after a turn was out before or is asked now. -/
theorem Sound.lookupWaited (hs : w.Sound) (h : TurnTo w turn w') {i : Nat} {p : Pending}
    (hp : w'.lookupQueries.get? i = some p) : w.LookupWaited w'.service i p := by
  cases h with
  | acted ha hs' => exact lookupWaited_step hs hs' ((Turn.ne_of_action? ha).2.1 i) hp
  | @lookupAsked k key notes hl hq =>
    simp only [Table.get?_insert] at hp
    split at hp
    · next hk =>
      subst hk
      exact ⟨key, hl, hl, Or.inr (Option.some.inj hp).symm⟩
    · exact lookupWaited_same hs hp
  | lookupAnswered hq ha hs' =>
    simp only [Table.get?_erase] at hp
    split at hp
    · cases hp
    · next hk => exact lookupWaited_step hs hs' (fun _ he => hk (Action.answerLookup.inj he).1) hp
  | watcherAnswered _ _ hs' | watcherCrashed _ hs' | watcherRecalled hs' | watcherRoused _ hs'
  | pauseEnded hs' => exact lookupWaited_step hs hs' (fun _ he => by cases he) hp
  | watcherAsked _ _ | pauseBegun _ _ | wrote _ _ | bumped _ | waited _ =>
    exact lookupWaited_same hs hp

/-- A watcher waits before and after for a query that was out before or is asked now. -/
def WatcherWaited (w : World MemoryRegistry ρ) (s : Service ρ) (j : Nat) (p : Pending) : Prop :=
  ∃ key cursor, w.service.watchers[j]? = some ⟨key, .asking cursor⟩ ∧
    s.watchers[j]? = some ⟨key, .asking cursor⟩ ∧
    (w.watchQueries.get? j = some p ∨
      ∃ wait, p = (w.registry.query w.now (.blocking w.tag key cursor.waitIndex wait)).1)

private theorem watcherWaited_same (hs : w.Sound) {j : Nat} {p : Pending}
    (hp : w.watchQueries.get? j = some p) : w.WatcherWaited w.service j p := by
  obtain ⟨key, cursor, hw, -⟩ := hs.watchQuery j p hp
  exact ⟨key, cursor, hw, hw, Or.inl hp⟩

private theorem watcherWaited_step (hs : w.Sound) {a : Action ρ} {s : Service ρ}
    {events : List (Event ρ)} (ha : w.service.step a = some (s, events)) {j : Nat}
    (hne : ∀ result, a ≠ .answerWatcher j result) (hc : a ≠ .cancel j) (hb : a ≠ .crash j)
    {p : Pending} (hp : w.watchQueries.get? j = some p) : w.WatcherWaited s j p := by
  obtain ⟨key, cursor, hw, -⟩ := hs.watchQuery j p hp
  have hw' := Service.watcher_asking_of_transition (Service.transition_of_step ha) hw hne hc hb
  exact ⟨key, cursor, hw, hw', Or.inl hp⟩

/-- A watcher's query that is out after a turn was out before or is asked now. -/
theorem Sound.watcherWaited (hs : w.Sound) (h : TurnTo w turn w') {j : Nat} {p : Pending}
    (hp : w'.watchQueries.get? j = some p) : w.WatcherWaited w'.service j p := by
  cases h with
  | acted ha hs' =>
    obtain ⟨-, -, hne, hc, hb⟩ := Turn.ne_of_action? ha
    exact watcherWaited_step hs hs' (hne j) (hc j) (hb j) hp
  | @watcherAsked k key cursor notes hw hq =>
    simp only [Table.get?_insert] at hp
    split at hp
    · next hk =>
      subst hk
      exact ⟨key, cursor, hw, hw, Or.inr ⟨_, (Option.some.inj hp).symm⟩⟩
    · exact watcherWaited_same hs hp
  | watcherAnswered hq ha hs' =>
    simp only [Table.get?_erase] at hp
    split at hp
    · cases hp
    · next hk =>
      refine watcherWaited_step hs hs' ?_ (fun he => by cases he) (fun he => by cases he) hp
      exact fun _ he => hk (Action.answerWatcher.inj he).1
  | watcherRecalled hs' =>
    simp only [Table.get?_erase] at hp
    split at hp
    · cases hp
    · next hk =>
      refine watcherWaited_step hs hs' (fun _ he => by cases he) ?_ (fun he => by cases he) hp
      exact fun he => hk (Action.cancel.inj he)
  | @watcherRoused k key cursor _ _ _ hw hs' =>
    -- a watcher that pauses has no query out, so this one is another watcher's
    refine watcherWaited_step hs hs' (fun _ he => by cases he) ?_ (fun he => by cases he) hp
    intro he
    obtain ⟨key', cursor', hw', -⟩ := hs.watchQuery j p hp
    rw [← Action.cancel.inj he, hw] at hw'
    cases hw'
  | watcherCrashed hq _ => exact absurd hq (hs.not_gives_crash _)
  | lookupAnswered _ _ hs' | pauseEnded hs' =>
    refine watcherWaited_step hs hs' ?_ ?_ ?_ hp <;> intros <;> intro he <;> cases he
  | lookupAsked _ _ | pauseBegun _ _ | wrote _ _ | bumped _ | waited _ =>
    exact watcherWaited_same hs hp

/-- Queries of lookups are out for lookups that wait for them and no others. -/
theorem Sound.lookupQuery_turn (hs : w.Sound) (h : TurnTo w turn w') (i : Nat) (p : Pending)
    (hp : w'.lookupQueries.get? i = some p) : w'.LookupAsked i p := by
  obtain ⟨key, hl, hl', hold | rfl⟩ := hs.lookupWaited h hp
  · obtain ⟨-, time, result, -, he, ht, hi⟩ := hs.lookupQuery i p hold
    refine ⟨key, time, result, hl', he, Nat.le_trans ht h.now_le, fun answer ha => ?_⟩
    exact ⟨(hi answer ha).1, Nat.le_trans (hi answer ha).2 h.index_le⟩
  · obtain ⟨result, he, hshown⟩ := w.registry.query_immediate w.now w.tag key
    refine ⟨key, w.now, result, hl', he, h.now_le, fun answer ha => ?_⟩
    have hi : answer.index = w.registry.index := congrArg Prod.snd (hshown answer ha)
    exact ⟨hi ▸ hs.index_pos, hi ▸ h.index_le⟩

/-- Queries of watchers are out for watchers that wait for them and no others. -/
theorem Sound.watchQuery_turn (hs : w.Sound) (h : TurnTo w turn w') (j : Nat) (p : Pending)
    (hp : w'.watchQueries.get? j = some p) : w'.WatcherAsked j p := by
  obtain ⟨key, cursor, hw, hw', hold | ⟨wait, rfl⟩⟩ := hs.watcherWaited h hp
  · obtain ⟨key₀, cursor₀, hw₀, hp₀⟩ := hs.watchQuery j p hold
    rw [hw] at hw₀
    cases hw₀
    refine ⟨key, cursor, hw', ?_⟩
    rw [h.tag]
    rcases hp₀ with hheld | ⟨time, f, he, ht⟩
    · exact Or.inl hheld
    · exact Or.inr ⟨time, f, he, Nat.le_trans ht h.now_le⟩
  · refine ⟨key, cursor, hw', ?_⟩
    rw [h.tag]
    rcases w.registry.query_blocking w.now w.tag key cursor.waitIndex wait with
      ⟨f, he⟩ | he
    · exact Or.inr ⟨w.now, f, he, h.now_le⟩
    · exact Or.inl ⟨wait, _, he⟩

/-- A sound world stays sound. -/
theorem Sound.after (hs : w.Sound) (h : TurnTo w turn w') : w'.Sound := by
  constructor
  · exact hs.reached_turn h
  · exact Nat.lt_of_lt_of_le hs.index_pos h.index_le
  · exact hs.lookupQuery_turn h
  · exact hs.watchQuery_turn h
  · intro t x hx
    obtain ⟨hpos, hle⟩ := hs.inHand_turn h t x hx
    exact ⟨hpos, Nat.le_trans hle h.index_le⟩
  · intro t key n hp
    obtain ⟨hpos, hle⟩ := hs.position_turn h t key n hp
    exact ⟨hpos, Nat.le_trans hle h.index_le⟩

end

end World

end ServiceDiscovery
