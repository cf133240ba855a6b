import Mathlib.Data.List.TakeWhile
import ServiceDiscovery.Catalog.Query
import ServiceDiscovery.Watch.Watcher

/-!
# What a watcher is to do

The queries of a watcher as a function of what it has been shown, with no regard to how it goes
about them: the index and the time of each query, when it has to give up and which set it should
have cached. A cursor describes what was seen if it holds the index of the next query and the number
of failures at the end.
-/

namespace ServiceDiscovery

/-- What a blocking query shows: a set and an index, or a failure. -/
abbrev Observation := Except Failure (EndpointSet × Nat)

namespace Observation

/-- Whether a query failed. -/
def isFailure : Observation → Bool
  | .ok _ => false
  | .error _ => true

/-- The set that a query shows, if it does. -/
def set? : Observation → Option EndpointSet
  | .ok (set, _) => some set
  | .error _ => none

end Observation

/-- The failures at the end of what was seen. -/
def streak (seen : List Observation) : Nat := (seen.reverse.takeWhile Observation.isFailure).length

/-- The set that was seen last. -/
def lastSet? (seen : List Observation) : Option EndpointSet :=
  (seen.filterMap Observation.set?).getLast?

/-- What a watcher starts from. -/
structure WatchPlan where
  /-- The tag that instances must carry, if any. -/
  tag : Option String
  key : Key
  /-- The index at which the key was looked up. -/
  start : Nat
  /-- The time at which the watcher starts. -/
  begun : Nat
  watch : WatchConfig

namespace WatchPlan

/-- The index of a query after one with an index and what it has shown. An index that has moved
backwards means that the registry was reset. -/
def nextIndex (used : Nat) : Observation → Nat
  | .ok (_, index) => if index = 0 ∨ index < used then 1 else index
  | .error _ => used

/-- The index of the query that follows what was seen. -/
def index (p : WatchPlan) (seen : List Observation) : Nat := seen.foldl nextIndex (max 1 p.start)

/-- The time of the query that follows what was seen: at once, but for a pause after a failure. -/
def time (p : WatchPlan) (seen : List (Nat × Observation)) : Nat :=
  match seen.getLast? with
  | none => p.begun
  | some (time, .ok _) => time
  | some (time, .error _) => time + p.watch.retryDelay.toMillisUp

/-- The query that follows what was seen, with its time. -/
def query (p : WatchPlan) (seen : List (Nat × Observation)) : Nat × HealthQuery :=
  (p.time seen, .blocking p.tag p.key (p.index (seen.map Prod.snd)) p.watch.waitTime)

/-- The last queries have all failed, as many as the ceiling says and one at least. -/
def Spent (p : WatchPlan) (seen : List Observation) : Prop :=
  ∃ earlier failures, seen = earlier ++ failures ∧
    failures.length = max 1 p.watch.retryCeiling.toNat ∧ ∀ r ∈ failures, r.isFailure = true

end WatchPlan

/-! ### One observation more -/

/-- A set ends the failures. -/
theorem streak_concat_ok (seen : List Observation) (found : EndpointSet × Nat) :
    streak (seen ++ [.ok found]) = 0 := by
  simp [streak, Observation.isFailure]

/-- A failure adds one to them. -/
theorem streak_concat_error (seen : List Observation) (f : Failure) :
    streak (seen ++ [.error f]) = streak seen + 1 := by
  simp [streak, List.takeWhile_cons, Observation.isFailure]

/-- A set is the last one. -/
theorem lastSet?_concat_ok (seen : List Observation) (found : EndpointSet × Nat) :
    lastSet? (seen ++ [.ok found]) = some found.1 := by
  simp [lastSet?, Observation.set?]

/-- A failure shows no set. -/
theorem lastSet?_concat_error (seen : List Observation) (f : Failure) :
    lastSet? (seen ++ [.error f]) = lastSet? seen := by
  simp [lastSet?, Observation.set?]

namespace WatchPlan

variable {p : WatchPlan} {seen : List Observation}

/-- Each observation moves the index on. -/
theorem index_concat (p : WatchPlan) (seen : List Observation) (r : Observation) :
    p.index (seen ++ [r]) = nextIndex (p.index seen) r := by
  simp [index]

/-- After a set the next query follows at once. -/
theorem time_concat_ok (p : WatchPlan) (seen : List (Nat × Observation)) (time : Nat)
    (found : EndpointSet × Nat) : p.time (seen ++ [(time, .ok found)]) = time := by
  simp [WatchPlan.time]

/-- After a failure it follows after one pause. -/
theorem time_concat_error (p : WatchPlan) (seen : List (Nat × Observation)) (time : Nat)
    (f : Failure) :
    p.time (seen ++ [(time, .error f)]) = time + p.watch.retryDelay.toMillisUp := by
  simp [WatchPlan.time]

private theorem nextIndex_pos {used : Nat} (h : 0 < used) (r : Observation) :
    0 < nextIndex used r := by
  cases r with
  | ok found =>
    simp only [nextIndex]
    split <;> omega
  | error f => exact h

/-- The index is never zero. -/
theorem index_pos (p : WatchPlan) (seen : List Observation) : 0 < p.index seen := by
  have hstart : 0 < max 1 p.start := by omega
  exact List.foldlRecOn seen nextIndex hstart fun _ hused r _ => nextIndex_pos hused r

/-- The plan is spent when the failures at the end are as many as the ceiling says, and one at
least. -/
theorem spent_iff : p.Spent seen ↔ max 1 p.watch.retryCeiling.toNat ≤ streak seen := by
  constructor
  · rintro ⟨earlier, failures, rfl, hlen, hfail⟩
    have hall : ∀ r ∈ failures.reverse, r.isFailure = true := by simpa using hfail
    rw [← hlen, streak, List.reverse_append, List.takeWhile_append_of_pos hall, List.length_append,
      List.length_reverse]
    exact Nat.le_add_right _ _
  · intro h
    let n := max 1 p.watch.retryCeiling.toNat
    have hle : n ≤ seen.reverse.length := Nat.le_trans h (List.takeWhile_prefix _).length_le
    have htake : seen.reverse.take n <+: seen.reverse.takeWhile Observation.isFailure := by
      rw [List.prefix_iff_eq_take.1 (List.takeWhile_prefix Observation.isFailure)]
      exact List.take_prefix_take_left h
    refine ⟨(seen.reverse.drop n).reverse, (seen.reverse.take n).reverse, ?_, ?_, fun r hr => ?_⟩
    · rw [← List.reverse_append, List.take_append_drop, List.reverse_reverse]
    · rw [List.length_reverse, List.length_take, Nat.min_eq_left hle]
    · exact List.mem_takeWhile_imp (htake.subset (List.mem_reverse.1 hr))

/-- Nothing seen is not yet a reason to give up. -/
theorem not_spent_nil (p : WatchPlan) : ¬ p.Spent [] := by
  rw [spent_iff]
  simp [streak]

/-- A set is no reason to give up. -/
theorem not_spent_concat_ok (p : WatchPlan) (seen : List Observation) (found : EndpointSet × Nat) :
    ¬ p.Spent (seen ++ [.ok found]) := by
  rw [spent_iff, streak_concat_ok]
  omega

end WatchPlan

namespace Cursor

variable {p : WatchPlan} {seen : List Observation} {c : Cursor}

/-- The cursor stands where what was seen leads to. -/
structure Describes (p : WatchPlan) (seen : List Observation) (c : Cursor) : Prop where
  waitIndex : c.waitIndex = p.index seen
  failures : c.failures = streak seen

/-- A new cursor describes that nothing was seen. -/
theorem describes_ofIndex (p : WatchPlan) : (ofIndex p.start).Describes p [] :=
  ⟨Nat.max_comm _ _, rfl⟩

/-- After a set the cursor describes that it was seen. -/
theorem Describes.recordSuccess (h : c.Describes p seen) (set : EndpointSet) (index : Nat) :
    (c.recordSuccess index).Describes p (seen ++ [.ok (set, index)]) := by
  refine ⟨?_, (streak_concat_ok _ _).symm⟩
  rw [p.index_concat, ← h.waitIndex, Cursor.recordSuccess, WatchPlan.nextIndex]
  simp only [or_comm]

/-- After a failure the cursor describes that it was seen. -/
theorem Describes.recordFailure (h : c.Describes p seen) (f : Failure) :
    c.recordFailure.Describes p (seen ++ [.error f]) := by
  refine ⟨?_, ?_⟩
  · rw [p.index_concat, waitIndex_recordFailure, h.waitIndex]
    rfl
  · rw [streak_concat_error, ← h.failures]
    rfl

/-- After a failure the ceiling is reached exactly when the plan is spent. -/
theorem Describes.hasReached_iff (h : c.Describes p seen) (f : Failure) :
    c.recordFailure.hasReached p.watch.retryCeiling = true ↔ p.Spent (seen ++ [.error f]) := by
  rw [WatchPlan.spent_iff, streak_concat_error, ← h.failures, hasReached, decide_eq_true_eq]
  simp only [Cursor.recordFailure]
  omega

end Cursor

end ServiceDiscovery
