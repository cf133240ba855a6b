import ServiceDiscovery.Duration
import ServiceDiscovery.Failure
import ServiceDiscovery.Numeric.Shortest

/-!
# Retrying

How often an operation is tried and how long the pause after each failed attempt is. Attempts are
counted from zero. An operation is tried again after a failure that may pass, until it has been
tried as often as allowed; there is no pause after the last attempt.
-/

namespace ServiceDiscovery

/-- The length of the pause after each failed attempt. -/
inductive Backoff
  /-- No pause. -/
  | none
  /-- The same pause each time. -/
  | constant (delay : Duration)
  /-- A pause that grows by `delay` each time, up to `max`. -/
  | linear (delay max : Duration)
  /-- A pause that starts with `initial` and is multiplied each time, up to `max`. -/
  | exponential (initial max : Duration) (multiplier : Float)

/-- A retry policy: the number of attempts, the first included, and the pauses between them. -/
structure RetryPolicy where
  maxAttempts : UInt32
  backoff : Backoff

namespace Backoff

/-- The result of the squarings left for `n`: `acc` holds the factors gathered so far. -/
def powerFrom : (fuel : Nat) → (base acc : Float) → (n : Nat) → Float
  | 0, _, acc, _ => acc
  | fuel + 1, base, acc, n =>
    let acc := if n % 2 = 1 then acc * base else acc
    if n / 2 = 0 then acc else powerFrom fuel (base * base) acc (n / 2)

/-- A power by repeated squaring, from the lowest bit of the exponent up; at most 32 bits count. -/
def power (base : Float) (n : Nat) : Float := powerFrom 32 base 1.0 n

/-- The largest exponent: greater ones count as this one. -/
def maxExponent : Nat := Nat.pow 2 31 - 1

/-- The next attempt's number; the last number has no next one. -/
def saturatingSucc (n : UInt32) : UInt32 := if n.toNat + 1 < UInt32.size then n + 1 else n

/-- The pause after a failed attempt. -/
def delay (b : Backoff) (attempt : UInt32) : Duration :=
  match b with
  | .none => .zero
  | .constant d => d
  | .linear d max => (d.times (saturatingSucc attempt)).min max
  | .exponential initial max multiplier =>
    let factor := power multiplier (min attempt.toNat maxExponent)
    let millis := Binary64.nearest initial.toMillis 1 * factor
    if !millis.isFinite || Binary64.nearest max.toMillis 1 ≤ millis then max
    else .ofMillis millis.toUInt64

/-- Multipliers are written positionally from a ten-thousandth up to, but not including, ten to the
sixteenth. -/
def multiplierLayout : Shortest.Layout := ⟨-4, 16⟩

end Backoff

namespace RetryPolicy

/-- The pause that no exponential growth exceeds unless another is chosen. -/
def defaultMax : Duration := .ofSeconds 30

/-- A pause that doubles each time. -/
def exponential (maxAttempts : UInt32) (initial : Duration) : RetryPolicy :=
  ⟨maxAttempts, .exponential initial defaultMax 2.0⟩

/-- The same pause each time. -/
def constant (maxAttempts : UInt32) (delay : Duration) : RetryPolicy :=
  ⟨maxAttempts, .constant delay⟩

/-- No pauses. -/
def immediate (maxAttempts : UInt32) : RetryPolicy := ⟨maxAttempts, .none⟩

/-- Ten attempts, the first pause a second long. -/
def standard : RetryPolicy := exponential 10 (.ofSeconds 1)

/-- The pause after a failed attempt. -/
def delay (p : RetryPolicy) (attempt : UInt32) : Duration := p.backoff.delay attempt

/-- The pause before the next attempt after one that failed; none if that was the last. -/
def pause? (p : RetryPolicy) (attempt : UInt32) (f : Failure) : Option Duration :=
  if f.isRetryable ∧ attempt.toNat + 1 < p.maxAttempts.toNat then some (p.delay attempt) else none

/-- There is a pause only before an attempt that is allowed. -/
theorem lt_of_pause? {p : RetryPolicy} {attempt : UInt32} {f : Failure} {d : Duration}
    (h : p.pause? attempt f = some d) : attempt.toNat + 1 < p.maxAttempts.toNat := by
  simp only [pause?] at h
  split at h
  · next hc => exact hc.2
  · cases h

/-- An attempt that is followed by a pause is followed by the pause of its number. -/
theorem eq_delay_of_pause? {p : RetryPolicy} {attempt : UInt32} {f : Failure} {d : Duration}
    (h : p.pause? attempt f = some d) : d = p.delay attempt := by
  rw [pause?] at h
  split at h
  · exact (Option.some.inj h).symm
  · cases h

/-- The number of an attempt that is allowed is one more than the number before it. -/
theorem toNat_succ_of_pause? {p : RetryPolicy} {attempt : UInt32} {f : Failure} {d : Duration}
    (h : p.pause? attempt f = some d) : (attempt + 1).toNat = attempt.toNat + 1 := by
  rw [UInt32.toNat_add]
  exact Nat.mod_eq_of_lt (by simpa using Nat.lt_trans (lt_of_pause? h) p.maxAttempts.toNat_lt)

/-- One thing that is done about an operation that is retried. -/
inductive Step
  /-- The operation is called. -/
  | call (attempt : UInt32)
  /-- The next call is waited for. -/
  | pause (length : Duration)

/-- What became of an operation that is retried: the last outcome, and all that was done, the
earliest first. -/
structure Run (α : Type) where
  result : Except Failure α
  steps : List Step

/-- The run from an attempt on, where `outcome` gives the outcomes of the calls still to make. -/
def runFrom {α : Type} (p : RetryPolicy) (attempt : UInt32) (outcome : Nat → Except Failure α) :
    Run α :=
  match outcome 0 with
  | .ok a => ⟨.ok a, [.call attempt]⟩
  | .error f =>
    match h : p.pause? attempt f with
    | some pause =>
      let rest := runFrom p (attempt + 1) fun k => outcome (k + 1)
      ⟨rest.result, .call attempt :: .pause pause :: rest.steps⟩
    | none => ⟨.error f, [.call attempt]⟩
termination_by p.maxAttempts.toNat - attempt.toNat
decreasing_by
  have := lt_of_pause? h
  have := toNat_succ_of_pause? h
  omega

/-- All attempts at an operation whose calls have the given outcomes, the first one first. -/
def run {α : Type} (p : RetryPolicy) (outcome : Nat → Except Failure α) : Run α :=
  p.runFrom 0 outcome

section

variable {α : Type} {p : RetryPolicy} {attempt : UInt32} {f : Failure}
  {outcome : Nat → Except Failure α}

/-- A call that succeeds is the last one. -/
theorem runFrom_of_ok {a : α} (ho : outcome 0 = .ok a) :
    p.runFrom attempt outcome = ⟨.ok a, [.call attempt]⟩ := by
  rw [runFrom, ho]

/-- A call that fails without a pause behind it is the last one. -/
theorem runFrom_of_none (ho : outcome 0 = .error f) (hp : p.pause? attempt f = none) :
    p.runFrom attempt outcome = ⟨.error f, [.call attempt]⟩ := by
  rw [runFrom, ho]
  dsimp only
  split
  · next hsome => cases hp.symm.trans hsome
  · rfl

/-- A call that fails with a pause behind it is followed by the pause and the next attempts. -/
theorem runFrom_of_pause {d : Duration} (ho : outcome 0 = .error f)
    (hp : p.pause? attempt f = some d) :
    p.runFrom attempt outcome =
      ⟨(p.runFrom (attempt + 1) fun k => outcome (k + 1)).result,
        .call attempt :: .pause d :: (p.runFrom (attempt + 1) fun k => outcome (k + 1)).steps⟩ := by
  rw [runFrom, ho]
  dsimp only
  split
  · next hsome =>
    cases hp.symm.trans hsome
    rfl
  · next hnone => cases hp.symm.trans hnone

end

end RetryPolicy

end ServiceDiscovery
