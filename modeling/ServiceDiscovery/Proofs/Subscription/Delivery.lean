import ServiceDiscovery.Subscription.Delivery

/-!
# Deliveries end

One operation of a delivery after the other, with the cache changed by anybody in between. A handler
that may not write sets puts no delivery on top of its own, so each operation leaves less to be done
and every delivery of a service ends, whatever its handlers read.
-/

namespace ServiceDiscovery.Delivery

variable {writes : Bool} {ρ : Type}

/-- A delivery can go on unless nothing is left of it. -/
theorem step_eq_none {c : HandlerCache writes ρ} {d : Delivery writes ρ} (h : d.step c = none) :
    d = [] := by
  cases d with
  | nil => rfl
  | cons frame rest =>
    cases frame with
    | run script => cases h
    | call set handlers => cases handlers <;> cases h

/-- What one operation on some cache leaves of a delivery. -/
def Follows (d' d : Delivery writes ρ) : Prop := ∃ c o, step c d = some o ∧ o.rest = d'

private theorem acc_of_step {d : Delivery writes ρ}
    (h : ∀ c o, step c d = some o → Acc Follows o.rest) : Acc Follows d := by
  refine .intro d ?_
  rintro d' ⟨c, o, ho, rfl⟩
  exact h c o ho

private theorem acc_run {rest : Delivery false ρ} (h : Acc Follows rest) (script : Script false ρ) :
    Acc Follows (.run script :: rest) := by
  induction script with
  | done | fail =>
    refine acc_of_step fun c o ho => ?_
    cases ho
    exact h
  | report r next ih =>
    refine acc_of_step fun c o ho => ?_
    cases ho
    exact ih
  | read key next ih | invalidate key next ih | unsubscribe name id next ih =>
    refine acc_of_step fun c o ho => ?_
    cases ho
    exact ih _
  | subscribe name handler next _ ih =>
    refine acc_of_step fun c o ho => ?_
    cases ho
    exact ih _
  | write allowed _ _ _ _ => cases allowed

private theorem acc_call {rest : Delivery false ρ} (h : Acc Follows rest) (set : EndpointSet)
    (handlers : List (SubscriptionId × Handler false ρ)) :
    Acc Follows (.call set handlers :: rest) := by
  induction handlers with
  | nil =>
    refine acc_of_step fun c o ho => ?_
    cases ho
    exact h
  | cons handler handlers ih =>
    refine acc_of_step fun c o ho => ?_
    cases ho
    exact acc_run ih _

/-- A delivery to handlers that may not write sets ends. -/
theorem wellFounded_follows : WellFounded (@Follows false ρ) := by
  refine ⟨fun d => ?_⟩
  induction d with
  | nil =>
    refine acc_of_step fun c o ho => ?_
    cases ho
  | cons frame rest ih =>
    cases frame with
    | call set handlers => exact acc_call ih set handlers
    | run script => exact acc_run ih script

end ServiceDiscovery.Delivery
