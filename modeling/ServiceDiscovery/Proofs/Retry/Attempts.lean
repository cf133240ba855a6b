import Mathlib.Data.List.Basic
import ServiceDiscovery.Retry

/-!
# Attempts under a retry policy

The outcomes of the attempts at one operation, the first one first. While the operation is being
tried, every outcome so far was a failure that may pass; it has been tried when an attempt
succeeded, failed for good, or was the last one allowed. A policy allows one attempt at least.
-/

namespace ServiceDiscovery.RetryPolicy

variable {α : Type} {p : RetryPolicy} {attempt : UInt32} {outcomes : List (Except Failure α)}

/-- The number of attempts that a policy allows. -/
def budget (p : RetryPolicy) : Nat := max 1 p.maxAttempts.toNat

/-- Every outcome is a failure that may pass. -/
def AllPassing (outcomes : List (Except Failure α)) : Prop :=
  ∀ o ∈ outcomes, ∃ f, o = .error f ∧ f.isRetryable = true

/-- The attempts before the one with a number, which is still allowed. -/
structure Trying (p : RetryPolicy) (attempt : UInt32) (outcomes : List (Except Failure α)) :
    Prop where
  length : outcomes.length = attempt.toNat
  passing : AllPassing outcomes
  allowed : attempt.toNat < p.budget

/-- All attempts at an operation, the last of which gave its result. -/
structure Tried (p : RetryPolicy) (outcomes : List (Except Failure α))
    (result : Except Failure α) : Prop where
  last : outcomes.getLast? = some result
  earlier : AllPassing outcomes.dropLast
  within : outcomes.length ≤ p.budget
  /-- A failure that may pass is a result only if no further attempt is allowed. -/
  spent : ∀ f, result = .error f → f.isRetryable = true → outcomes.length = p.budget

/-- The first attempt is always allowed. -/
theorem Trying.first (p : RetryPolicy) : p.Trying 0 ([] : List (Except Failure α)) :=
  ⟨rfl, nofun, Nat.lt_of_lt_of_le Nat.zero_lt_one (Nat.le_max_left _ _)⟩

private theorem Trying.tried (h : p.Trying attempt outcomes) {result : Except Failure α}
    (hs : ∀ f, result = .error f → f.isRetryable = true → attempt.toNat + 1 = p.budget) :
    p.Tried (outcomes ++ [result]) result where
  last := List.getLast?_concat
  earlier := by
    rw [List.dropLast_concat]
    exact h.passing
  within := by
    rw [List.length_append, h.length]
    exact h.allowed
  spent f hf hr := by
    rw [List.length_append, h.length]
    exact hs f hf hr

/-- After a success the operation has been tried. -/
theorem Trying.succeeded (h : p.Trying attempt outcomes) (a : α) :
    p.Tried (outcomes ++ [.ok a]) (.ok a) :=
  h.tried nofun

/-- After a failure without a pause the operation has been tried. -/
theorem Trying.failed (h : p.Trying attempt outcomes) {f : Failure}
    (hp : p.pause? attempt f = none) : p.Tried (outcomes ++ [.error f]) (.error f) := by
  refine h.tried fun g hg hr => ?_
  cases hg
  have hno : ¬ attempt.toNat + 1 < p.maxAttempts.toNat := fun hlt => by
    simp [pause?, hr, hlt] at hp
  have hallowed := h.allowed
  simp only [budget] at hallowed ⊢
  omega

/-- After a failure with a pause the next attempt is allowed. -/
theorem Trying.again (h : p.Trying attempt outcomes) {f : Failure} {pause : Duration}
    (hp : p.pause? attempt f = some pause) :
    p.Trying (attempt + 1) (outcomes ++ [.error f]) := by
  have hnext := toNat_succ_of_pause? hp
  refine ⟨?_, fun o ho => ?_, ?_⟩
  · rw [List.length_append, h.length, hnext]
    rfl
  · rcases List.mem_append.1 ho with ho | ho
    · exact h.passing o ho
    · cases List.mem_singleton.1 ho
      refine ⟨f, rfl, ?_⟩
      simp only [pause?] at hp
      split at hp
      · next hc => exact hc.1
      · cases hp
  · rw [hnext]
    exact Nat.lt_of_lt_of_le (lt_of_pause? hp) (Nat.le_max_right _ _)

end ServiceDiscovery.RetryPolicy
