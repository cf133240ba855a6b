import Mathlib.Order.Bounds.Basic
import ServiceDiscovery.Proofs.Retry.Attempts

/-!
# The schedule of a retried operation

How often an operation is called under a retry policy, and what stands between the calls. The first
outcome that ends a run decides both: a success, a failure for good, or the outcome of the last call
that is allowed. Until then each call is followed by the pause of its attempt, and nothing follows
the last one. The number of an attempt is a machine word, and it never wraps.
-/

namespace ServiceDiscovery.RetryPolicy

variable {α : Type} {p : RetryPolicy} {attempt : UInt32} {f : Failure}
  {outcome : Nat → Except Failure α}

/-- After that many calls, the last of which had the outcome, there is no further call: the outcome
is a success or a failure for good, or no more calls are allowed. -/
def Ends (p : RetryPolicy) (o : Except Failure α) (calls : Nat) : Prop :=
  (∃ a, o = .ok a) ∨ (∃ f, o = .error f ∧ f.isRetryable = false) ∨ p.budget ≤ calls

/-- The numbers of calls after which a run may end, where some calls were made before. -/
def endings (p : RetryPolicy) (before : Nat) (outcome : Nat → Except Failure α) : Set Nat :=
  {n | 0 < n ∧ p.Ends (outcome (n - 1)) (before + n)}

/-- That many calls from an attempt on, with the pause of each attempt but the last behind it. -/
def schedule (p : RetryPolicy) (first calls : Nat) : List Step :=
  .call (.ofNat first) ::
    (List.range' first (calls - 1)).flatMap fun k =>
      [.pause (p.delay (.ofNat k)), .call (.ofNat (k + 1))]

/-- The attempt that a step makes. -/
def Step.attempt? : Step → Option UInt32
  | .call attempt => some attempt
  | .pause _ => none

/-- The numbers of the attempts of a run. -/
def Run.attempts (r : Run α) : List UInt32 := r.steps.filterMap Step.attempt?

private theorem budget_lt_size (p : RetryPolicy) : p.budget < UInt32.size := by
  have hmax := p.maxAttempts.toNat_lt
  simp only [budget, UInt32.size]
  omega

private theorem pause?_eq_none_iff (ha : attempt.toNat < p.budget) :
    p.pause? attempt f = none ↔ p.Ends (.error f : Except Failure α) (attempt.toNat + 1) := by
  have hbudget : p.budget ≤ attempt.toNat + 1 ↔ ¬ attempt.toNat + 1 < p.maxAttempts.toNat := by
    simp only [budget] at ha ⊢
    omega
  cases hr : f.isRetryable <;> simp [pause?, Ends, hbudget, hr]

/-- Where the first call ends a run, it is the only one. -/
theorem isLeast_endings_one {before : Nat} (h : p.Ends (outcome 0) (before + 1)) :
    IsLeast (p.endings before outcome) 1 :=
  ⟨⟨Nat.zero_lt_one, h⟩, fun _ hn => hn.1⟩

/-- Where the first call does not end a run, the run goes on as if that call had come before. -/
theorem isLeast_endings_succ {before n : Nat} (h : ¬ p.Ends (outcome 0) (before + 1))
    (hn : IsLeast (p.endings (before + 1) fun k => outcome (k + 1)) n) :
    IsLeast (p.endings before outcome) (n + 1) := by
  have hshift : ∀ k, 0 < k → (k + 1 ∈ p.endings before outcome ↔
      k ∈ p.endings (before + 1) fun j => outcome (j + 1)) := by
    intro k hk
    have hlast : k - 1 + 1 = k := by omega
    have hcalls : before + (k + 1) = before + 1 + k := by omega
    simp [endings, hk, hlast, hcalls]
  refine ⟨(hshift n hn.1.1).2 hn.1, fun k hk => ?_⟩
  cases k with
  | zero => exact absurd hk.1 (Nat.lt_irrefl 0)
  | succ k =>
    by_cases hzero : k = 0
    · subst hzero
      exact absurd hk.2 h
    · exact Nat.succ_le_succ (hn.2 ((hshift k (Nat.pos_of_ne_zero hzero)).1 hk))

/-- A schedule of one call more begins with the call and its pause. -/
theorem schedule_succ (p : RetryPolicy) (first : Nat) {calls : Nat} (h : 0 < calls) :
    p.schedule first (calls + 1) =
      .call (.ofNat first) :: .pause (p.delay (.ofNat first)) :: p.schedule (first + 1) calls := by
  obtain ⟨n, rfl⟩ : ∃ n, calls = n + 1 := ⟨calls - 1, by omega⟩
  rfl

/-- The attempts of a schedule are numbered one after the other. -/
theorem attempts_schedule (p : RetryPolicy) (first : Nat) {calls : Nat} (h : 0 < calls) :
    (p.schedule first calls).filterMap Step.attempt? =
      (List.range' first calls).map UInt32.ofNat := by
  induction calls generalizing first with
  | zero => exact absurd h (Nat.lt_irrefl 0)
  | succ n ih =>
    cases n with
    | zero => rfl
    | succ n =>
      have hrest := ih (first + 1) (Nat.succ_pos n)
      rw [schedule_succ p first (Nat.succ_pos n), List.range'_succ, List.map_cons, ← hrest]
      rfl

/-! ### Runs -/

private theorem on_schedule_one {o : Except Failure α} (ho : outcome 0 = o)
    (he : p.Ends o (attempt.toNat + 1))
    (hrun : p.runFrom attempt outcome = ⟨o, [.call attempt]⟩) :
    ∃ n, IsLeast (p.endings attempt.toNat outcome) n ∧
      (p.runFrom attempt outcome).result = outcome (n - 1) ∧
      (p.runFrom attempt outcome).steps = p.schedule attempt.toNat n := by
  refine ⟨1, isLeast_endings_one (ho ▸ he), ?_, ?_⟩
  · rw [hrun, ho]
  · rw [hrun]
    simp [schedule]

/-- From an attempt on that is allowed, a run makes the calls up to the first outcome that ends it,
and returns this outcome. -/
theorem runFrom_on_schedule (p : RetryPolicy) (attempt : UInt32)
    (outcome : Nat → Except Failure α) (ha : attempt.toNat < p.budget) :
    ∃ n, IsLeast (p.endings attempt.toNat outcome) n ∧
      (p.runFrom attempt outcome).result = outcome (n - 1) ∧
      (p.runFrom attempt outcome).steps = p.schedule attempt.toNat n := by
  induction attempt, outcome using runFrom.induct p with
  | case1 attempt outcome a ho => exact on_schedule_one ho (.inl ⟨a, rfl⟩) (runFrom_of_ok ho)
  | case3 attempt outcome f ho hp =>
    exact on_schedule_one ho ((pause?_eq_none_iff ha).1 hp) (runFrom_of_none ho hp)
  | case2 attempt outcome f ho d hp ih =>
    have hnext := toNat_succ_of_pause? hp
    have hallowed : (attempt + 1).toNat < p.budget := by
      rw [hnext]
      exact Nat.lt_of_lt_of_le (lt_of_pause? hp) (Nat.le_max_right _ _)
    obtain ⟨n, hleast, hresult, hsteps⟩ := ih hallowed
    rw [hnext] at hleast hsteps
    have hgoes : ¬ p.Ends (outcome 0) (attempt.toNat + 1) := by
      rw [ho, ← pause?_eq_none_iff ha, hp]
      exact nofun
    have hpos : 0 < n := hleast.1.1
    refine ⟨n + 1, isLeast_endings_succ hgoes hleast, ?_, ?_⟩
    · rw [runFrom_of_pause ho hp, hresult]
      exact congrArg outcome (by omega)
    · rw [runFrom_of_pause ho hp, hsteps, schedule_succ p _ hpos, eq_delay_of_pause? hp,
        UInt32.ofNat_toNat]

/-- The operation is called until an outcome first ends the run: the first that is a success or a
failure for good, or that of the last call the policy allows, which allows one at least. This
outcome is returned. The calls stand in the run one after the other, each but the last followed by
the pause of its attempt and the last by nothing. The attempts are numbered from zero on, and after
each of them there is a next number, so that counting never wraps, whatever number of attempts is
allowed. -/
theorem run_on_schedule (p : RetryPolicy) (outcome : Nat → Except Failure α) :
    ∃ n, IsLeast {k | 0 < k ∧ p.Ends (outcome (k - 1)) k} n ∧
      (p.run outcome).result = outcome (n - 1) ∧
      (p.run outcome).steps = p.schedule 0 n ∧
      (p.run outcome).attempts.map UInt32.toNat = List.range n ∧ n < UInt32.size := by
  have hfirst : (0 : UInt32).toNat < p.budget := (Trying.first (α := α) p).allowed
  obtain ⟨n, hleast, hresult, hsteps⟩ := p.runFrom_on_schedule 0 outcome hfirst
  rw [UInt32.toNat_zero] at hleast hsteps
  simp only [endings, Nat.zero_add] at hleast
  have hbudget : n ≤ p.budget :=
    hleast.2 ⟨Nat.lt_of_le_of_lt (Nat.zero_le _) hfirst, .inr (.inr (Nat.le_refl _))⟩
  have hsize : n < UInt32.size := Nat.lt_of_le_of_lt hbudget p.budget_lt_size
  refine ⟨n, hleast, hresult, hsteps, ?_, hsize⟩
  have hattempts : (p.run outcome).attempts = (List.range n).map UInt32.ofNat := by
    rw [Run.attempts, run, hsteps, attempts_schedule p 0 hleast.1.1, List.range_eq_range']
  rw [hattempts, List.map_map]
  refine (List.map_congr_left fun k hk => ?_).trans (List.map_id _)
  exact UInt32.toNat_ofNat_of_lt' (Nat.lt_trans (List.mem_range.1 hk) hsize)

end ServiceDiscovery.RetryPolicy
