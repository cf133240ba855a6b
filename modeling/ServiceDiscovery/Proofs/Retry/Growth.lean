import ServiceDiscovery.Retry

/-!
# Pauses that grow

A pause that grows by the same length each time is computed in words: the number of the attempt
saturates at the largest word, and the product of length and number at the longest duration. The
first is the number of one attempt only, and what the second cuts off is above any maximum, so the
pauses are those of exact arithmetic, in order, and none exceeds the maximum.
-/

namespace ServiceDiscovery.Backoff

private theorem toNat_saturatingSucc (n : UInt32) :
    (saturatingSucc n).toNat = min (n.toNat + 1) (UInt32.size - 1) := by
  have hn := n.toNat_lt
  rw [saturatingSucc]
  split
  · next hlt =>
    rw [UInt32.toNat_add, UInt32.toNat_one, Nat.mod_eq_of_lt hlt]
    omega
  · next hge =>
    simp only [UInt32.size] at *
    omega

/-- The exact length of a growing pause, after every attempt. -/
theorem toNanos_delay_linear (d max : Duration) (attempt : UInt32) :
    ((linear d max).delay attempt).toNanos =
      min max.toNanos (d.toNanos * min (attempt.toNat + 1) (UInt32.size - 1)) := by
  have hmax := max.toNanos_le_longest
  rw [delay, Duration.toNanos_min, Duration.toNanos_times, toNat_saturatingSucc]
  omega

/-- A growing pause is exactly the product of its length and the number of attempts made, or the
maximum if that is smaller; the attempt with the last number has no next one to be counted. From one
attempt to a later one no pause gets shorter, and none exceeds the maximum. -/
theorem linear_exact (d max : Duration) :
    (∀ attempt : UInt32, attempt.toNat + 1 < UInt32.size →
      ((linear d max).delay attempt).toNanos =
        min max.toNanos (d.toNanos * (attempt.toNat + 1))) ∧
      (∀ attempt later : UInt32, attempt ≤ later →
        ((linear d max).delay attempt).toNanos ≤ ((linear d max).delay later).toNanos) ∧
      ∀ attempt : UInt32, ((linear d max).delay attempt).toNanos ≤ max.toNanos := by
  refine ⟨fun attempt hnext => ?_, fun attempt later hle => ?_, fun attempt => ?_⟩
  · have hcount : min (attempt.toNat + 1) (UInt32.size - 1) = attempt.toNat + 1 :=
      Nat.min_eq_left (Nat.le_sub_one_of_lt hnext)
    rw [toNanos_delay_linear, hcount]
  · have hcount : min (attempt.toNat + 1) (UInt32.size - 1) ≤
        min (later.toNat + 1) (UInt32.size - 1) := by
      rw [UInt32.le_iff_toNat_le] at hle
      omega
    have hproduct := Nat.mul_le_mul_left d.toNanos hcount
    rw [toNanos_delay_linear, toNanos_delay_linear]
    omega
  · rw [toNanos_delay_linear]
    exact Nat.min_le_left _ _

/-- Three pauses of a second and a half are four and a half seconds; the longest duration is not
exceeded, whatever number it is multiplied with. -/
theorem linear_exact_carried :
    (2 : UInt32).toNat + 1 < UInt32.size ∧ (4294967294 : UInt32).toNat + 1 < UInt32.size ∧
      (2 : UInt32) ≤ 4294967295 ∧
      ((linear ⟨1, 500000000, by decide⟩ (.ofSeconds 10)).delay 2).toNanos = 4500000000 ∧
      ((linear .longest .longest).delay 4294967294).toNanos = Duration.longest.toNanos ∧
      ((linear .longest .longest).delay 2).toNanos ≤
        ((linear .longest .longest).delay 4294967295).toNanos := by
  have hsmall : (2 : UInt32).toNat + 1 < UInt32.size := by decide
  have hlarge : (4294967294 : UInt32).toNat + 1 < UInt32.size := by decide
  have hle : (2 : UInt32) ≤ 4294967295 := by decide
  refine ⟨hsmall, hlarge, hle, ?_, ?_, (linear_exact _ _).2.1 _ _ hle⟩
  · exact ((linear_exact _ _).1 2 hsmall).trans (by decide)
  · exact ((linear_exact _ _).1 4294967294 hlarge).trans (by decide)

end ServiceDiscovery.Backoff
