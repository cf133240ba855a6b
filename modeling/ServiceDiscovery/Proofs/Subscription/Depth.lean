import ServiceDiscovery.Proofs.Subscription.Log

/-!
# How deep a delivery goes

A handler that stores a set has a delivery of its own on top of the one that called it, whose
handlers may store sets again. A handler by itself always comes to its end, so a delivery goes on
forever only by getting deeper and deeper. It ends exactly if there is a bound to its depth.
-/

namespace ServiceDiscovery.Delivery

variable {writes : Bool} {ρ : Type} {c c' : HandlerCache writes ρ} {d d' : Delivery writes ρ}

/-- What a delivery comes to on its way: a cache, with what is still to be done then. -/
inductive Visits : HandlerCache writes ρ → Delivery writes ρ → HandlerCache writes ρ →
    Delivery writes ρ → Prop
  /-- A delivery begins where it is. -/
  | here (c : HandlerCache writes ρ) (d : Delivery writes ρ) : Visits c d c d
  /-- After one operation it goes on with what is left. -/
  | next {c c' : HandlerCache writes ρ} {d d' : Delivery writes ρ} {o : Outcome writes ρ}
      (ho : step c d = some o) (h : Visits o.cache o.rest c' d') : Visits c d c' d'

/-- A delivery never has more frames than this on its stack. -/
def Within (bound : Nat) (c : HandlerCache writes ρ) (d : Delivery writes ρ) : Prop :=
  ∀ c' d', Visits c d c' d' → d'.length ≤ bound

/-- There is a bound to the depth of a delivery. -/
def Shallow (c : HandlerCache writes ρ) (d : Delivery writes ρ) : Prop := ∃ bound, Within bound c d

variable {bound : Nat} {rest : Delivery writes ρ}

private theorem Within.of_step {o : Outcome writes ρ} (h : Within bound c d)
    (ho : step c d = some o) : Within bound o.cache o.rest :=
  fun c' d' hv => h c' d' (.next ho hv)

private theorem Within.notification {hub : Hub (Handler writes ρ)} {name : String}
    {set : EndpointSet}
    (hcall : ∀ handlers, Within bound c (.call set handlers :: rest) →
      ∃ log c', Does c (.call set handlers) log c' ∧ Within bound c' rest)
    (h : Within bound c (ofNotification (hub.notification name set) ++ rest)) :
    ∃ log c', Does c (.call set (hub.handlers name)) log c' ∧ Within bound c' rest := by
  rcases ofNotification_eq hub name set with hcalls | ⟨hnone, hempty⟩
  · rw [hcalls] at h
    exact hcall _ h
  · rw [hempty] at h
    rw [hnone]
    exact ⟨[], c, .told c set, h⟩

/-- The top of a stack comes to its end within the room that is left above the rest. -/
theorem Within.does {frame : Frame writes ρ} (h : Within bound c (frame :: rest)) {room : Nat}
    (hroom : bound ≤ rest.length + room) :
    ∃ log c', Does c frame log c' ∧ Within bound c' rest := by
  induction room generalizing c frame rest with
  | zero =>
    have hdeep := h _ _ (.here c _)
    simp only [List.length_cons] at hdeep
    omega
  | succ room ih =>
    -- Whatever a handler has put on top of the frame has less room.
    have above {c : HandlerCache writes ρ} {top base : Frame writes ρ}
        (h : Within bound c (top :: base :: rest)) :
        ∃ log c', Does c top log c' ∧ Within bound c' (base :: rest) :=
      ih h (by simp only [List.length_cons]; omega)
    cases frame with
    | call set handlers =>
      induction handlers generalizing c with
      | nil => exact ⟨[], c, .told c set, h.of_step rfl⟩
      | cons handler handlers ihs =>
        obtain ⟨log, c₁, hlog, h⟩ := above (h.of_step rfl)
        obtain ⟨told, c₂, htold, h⟩ := ihs h
        exact ⟨_, c₂, .tell hlog htold, h⟩
    | run script =>
      induction script generalizing c with
      | done => exact ⟨[], c, .done c, h.of_step rfl⟩
      | fail => exact ⟨[], c, .failed c, h.of_step rfl⟩
      | report r next ihn =>
        obtain ⟨log, c₁, hlog, h⟩ := ihn (h.of_step rfl)
        exact ⟨_, c₁, .reported hlog, h⟩
      | read key next ihn =>
        obtain ⟨log, c₁, hlog, h⟩ := ihn _ (h.of_step rfl)
        exact ⟨_, c₁, .read hlog, h⟩
      | write allowed key set next ihn =>
        by_cases hg : c.get? key = some set
        · obtain ⟨log, c₁, hlog, h⟩ := ihn _ (h.of_step (step_write_of_eq hg))
          exact ⟨_, c₁, .refused hg hlog, h⟩
        · obtain ⟨told, c₁, htold, h⟩ :=
            Within.notification (fun _ => above) (h.of_step (step_write_of_ne hg))
          obtain ⟨log, c₂, hlog, h⟩ := ihn _ h
          exact ⟨_, c₂, .accepted hg htold hlog, h⟩
      | invalidate key next ihn =>
        obtain ⟨log, c₁, hlog, h⟩ := ihn _ (h.of_step rfl)
        exact ⟨_, c₁, .invalidated hlog, h⟩
      | subscribe name handler next _ ihn =>
        obtain ⟨log, c₁, hlog, h⟩ := ihn _ (h.of_step rfl)
        exact ⟨_, c₁, .subscribed hlog, h⟩
      | unsubscribe name id next ihn =>
        obtain ⟨log, c₁, hlog, h⟩ := ihn _ (h.of_step rfl)
        exact ⟨_, c₁, .unsubscribed hlog, h⟩

/-- A delivery of bounded depth has a log. -/
theorem Within.doesAll (h : Within bound c d) : ∃ log c', DoesAll c d log c' := by
  induction d generalizing c with
  | nil => exact ⟨[], c, .nil c⟩
  | cons frame rest ih =>
    obtain ⟨log, c₁, hlog, h⟩ := h.does (Nat.le_add_left bound rest.length)
    obtain ⟨later, c₂, hlater⟩ := ih h
    exact ⟨_, c₂, .cons hlog hlater⟩

/-- One operation puts at most two frames in place of the top of the stack, and leaves the rest. -/
theorem rest_of_step {top : Frame writes ρ} {o : Outcome writes ρ}
    (ho : step c (top :: d) = some o) : ∃ above, o.rest = above ++ d ∧ above.length ≤ 2 := by
  cases top with
  | call set handlers =>
    cases handlers with
    | nil =>
      cases ho
      exact ⟨[], rfl, Nat.zero_le 2⟩
    | cons handler handlers =>
      cases ho
      exact ⟨[_, _], rfl, Nat.le_refl 2⟩
  | run script =>
    cases script with
    | done | fail =>
      cases ho
      exact ⟨[], rfl, Nat.zero_le 2⟩
    | report | read | invalidate | subscribe | unsubscribe =>
      cases ho
      exact ⟨[_], rfl, Nat.le_succ 1⟩
    | write allowed key set next =>
      by_cases hg : c.get? key = some set
      · rw [step_write_of_eq hg] at ho
        cases ho
        exact ⟨[_], rfl, Nat.le_succ 1⟩
      · rw [step_write_of_ne hg] at ho
        cases ho
        rcases ofNotification_eq c.hub key.name set with hcall | ⟨-, hempty⟩
        · rw [hcall]
          exact ⟨[_, _], rfl, Nat.le_refl 2⟩
        · rw [hempty]
          exact ⟨[_], rfl, Nat.le_succ 1⟩

/-- One operation makes the stack at most one frame higher. -/
theorem length_rest_le {o : Outcome writes ρ} (ho : step c d = some o) :
    o.rest.length ≤ d.length + 1 := by
  cases d with
  | nil => cases ho
  | cons top d =>
    obtain ⟨above, hrest, habove⟩ := rest_of_step ho
    rw [hrest, List.length_append, List.length_cons]
    omega

/-- A delivery that ends gets no deeper than it has operations. -/
theorem within_of_finish {fuel : Nat} {events : List (Event ρ)}
    (h : finish fuel c d = some (c', events)) : Within (d.length + fuel) c d := by
  intro c₁ d₁ hv
  induction hv generalizing fuel events with
  | here c d => exact Nat.le_add_right _ _
  | next ho _ ih =>
    obtain ⟨n, later, rfl, hrest, -⟩ := finish_of_step ho h
    have hone := length_rest_le ho
    have hlater := ih hrest
    omega

/-- A delivery ends exactly if there is a bound to its depth. -/
theorem shallow_iff_ends : Shallow c d ↔ ∃ c' events, Ends c d c' events := by
  constructor
  · rintro ⟨bound, h⟩
    obtain ⟨log, c', hlog⟩ := h.doesAll
    exact ⟨c', _, ends_iff.2 ⟨log, hlog, rfl⟩⟩
  · rintro ⟨c', events, fuel, h⟩
    exact ⟨_, within_of_finish h⟩

end ServiceDiscovery.Delivery
