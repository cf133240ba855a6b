/-!
# Durations

A span of time as whole seconds and nanoseconds below one second, with the arithmetic that the
parts allow: products saturate at the longest duration, sums that exceed it are no duration.
`toNanos` is the exact value that every law speaks of.
-/

namespace ServiceDiscovery

/-- The nanoseconds of a second. -/
def nanosPerSecond : Nat := 1000000000

/-- A span of time. -/
structure Duration where
  seconds : UInt64
  nanos : UInt32
  nanos_lt : nanos.toNat < nanosPerSecond
  deriving DecidableEq

namespace Duration

/-- The exact value in nanoseconds. -/
def toNanos (d : Duration) : Nat := d.seconds.toNat * nanosPerSecond + d.nanos.toNat

/-- The whole milliseconds. -/
def toMillis (d : Duration) : Nat := d.toNanos / 1000000

/-- The milliseconds, a started one counted as whole. -/
def toMillisUp (d : Duration) : Nat := (d.toNanos + 999999) / 1000000

/-- No time. -/
def zero : Duration := ⟨0, 0, by decide⟩

/-- Whole seconds. -/
def ofSeconds (s : UInt64) : Duration := ⟨s, 0, by decide⟩

/-- Seconds and the nanoseconds that do not fill one. -/
def ofParts (seconds : UInt64) (nanos : Nat) : Duration :=
  ⟨seconds, UInt32.ofNat (nanos % nanosPerSecond), by
    have : nanos % nanosPerSecond < nanosPerSecond := Nat.mod_lt _ (by decide)
    have h : nanosPerSecond < 2 ^ 32 := by decide
    rw [UInt32.toNat_ofNat_of_lt' (by simpa using Nat.lt_trans this h)]
    exact this⟩

/-- Whole milliseconds. -/
def ofMillis (ms : UInt64) : Duration :=
  ofParts (ms / 1000) ((ms % 1000).toNat * 1000000)

/-- The longest duration. -/
def longest : Duration := ofParts (UInt64.ofNat (UInt64.size - 1)) (nanosPerSecond - 1)

/-- The earlier of two parts decides, then the later one. -/
def le (a b : Duration) : Bool :=
  a.seconds < b.seconds || (a.seconds == b.seconds && a.nanos ≤ b.nanos)

/-- The shorter of two durations. -/
def min (a b : Duration) : Duration := if a.le b then a else b

/-- The sum, when it is a duration: nanoseconds that fill a second are carried over. -/
def add? (a b : Duration) : Option Duration :=
  let seconds := a.seconds.toNat + b.seconds.toNat
  let nanos := a.nanos.toNat + b.nanos.toNat
  let total := seconds + nanos / nanosPerSecond
  if total < UInt64.size then some (ofParts (UInt64.ofNat total) nanos) else none

/-- The product, or the longest duration where the product exceeds it. -/
def times (d : Duration) (n : UInt32) : Duration :=
  let nanos := d.nanos.toNat * n.toNat
  let seconds := d.seconds.toNat * n.toNat + nanos / nanosPerSecond
  if seconds < UInt64.size then ofParts (UInt64.ofNat seconds) nanos else longest

/-- A sixteenth: the seconds that do not divide are carried into the nanoseconds. -/
def sixteenth (d : Duration) : Duration :=
  ofParts (d.seconds / 16) (d.nanos.toNat / 16 +
    ((d.seconds % 16).toNat * nanosPerSecond + d.nanos.toNat % 16) / 16)

/-- Every duration is shorter than all seconds that can be counted. -/
theorem toNanos_lt (d : Duration) : d.toNanos < UInt64.size * nanosPerSecond := by
  have hseconds := d.seconds.toNat_lt
  have hnanos := d.nanos_lt
  simp only [toNanos, UInt64.size, nanosPerSecond] at *
  omega

/-- The nanoseconds of a duration made of parts are the remainder. -/
theorem toNat_nanos_ofParts (s : UInt64) (n : Nat) :
    (ofParts s n).nanos.toNat = n % nanosPerSecond := by
  have : n % nanosPerSecond < nanosPerSecond := Nat.mod_lt _ (by decide)
  have h : nanosPerSecond < 2 ^ 32 := by decide
  exact UInt32.toNat_ofNat_of_lt' (by simpa using Nat.lt_trans this h)

/-- The exact value of a duration made of parts. -/
theorem toNanos_ofParts (s : UInt64) (n : Nat) :
    (ofParts s n).toNanos = s.toNat * nanosPerSecond + n % nanosPerSecond := by
  rw [toNanos, toNat_nanos_ofParts]
  rfl

/-- A sum that is a duration is exact. -/
theorem toNanos_of_add? {a b c : Duration} (h : a.add? b = some c) :
    c.toNanos = a.toNanos + b.toNanos := by
  simp only [add?] at h
  split at h
  · next hlt =>
    cases h
    rw [toNanos_ofParts, UInt64.toNat_ofNat_of_lt' (by simpa using hlt)]
    simp only [toNanos]
    have := Nat.div_add_mod (a.nanos.toNat + b.nanos.toNat) nanosPerSecond
    simp only [nanosPerSecond] at *
    omega
  · cases h

/-- A sum is no duration exactly when it is as long as all seconds that can be counted. -/
theorem add?_eq_none_iff {a b : Duration} :
    a.add? b = none ↔ UInt64.size * nanosPerSecond ≤ a.toNanos + b.toNanos := by
  have hcarry := Nat.div_add_mod (a.nanos.toNat + b.nanos.toNat) nanosPerSecond
  have hrest : (a.nanos.toNat + b.nanos.toNat) % nanosPerSecond < nanosPerSecond :=
    Nat.mod_lt _ (by decide)
  simp only [add?, ite_eq_right_iff, reduceCtorEq, imp_false, toNanos]
  simp only [UInt64.size, nanosPerSecond] at *
  omega

/-- A sixteenth is exact but for the nanoseconds that do not divide. -/
theorem toNanos_sixteenth (d : Duration) : d.sixteenth.toNanos = d.toNanos / 16 := by
  have hnanos := d.nanos_lt
  have hsixteen : (16 : UInt64).toNat = 16 := rfl
  rw [sixteenth, toNanos_ofParts, UInt64.toNat_div, UInt64.toNat_mod, hsixteen, toNanos]
  simp only [nanosPerSecond] at *
  omega

/-- A duration that is not longer has the smaller or equal exact value. -/
theorem le_iff {a b : Duration} : a.le b = true ↔ a.toNanos ≤ b.toNanos := by
  have ha := a.nanos_lt
  have hb := b.nanos_lt
  simp only [le, Bool.or_eq_true, decide_eq_true_eq, Bool.and_eq_true, beq_iff_eq,
    UInt64.lt_iff_toNat_lt, UInt32.le_iff_toNat_le, ← UInt64.toNat_inj, toNanos,
    nanosPerSecond] at *
  omega

/-- The longest duration is a nanosecond short of all seconds that can be counted. -/
theorem toNanos_longest : longest.toNanos + 1 = UInt64.size * nanosPerSecond := by
  rw [longest, toNanos_ofParts]
  rfl

/-- No duration exceeds the longest one. -/
theorem toNanos_le_longest (d : Duration) : d.toNanos ≤ longest.toNanos := by
  have hlt := d.toNanos_lt
  have hlongest := toNanos_longest
  omega

/-- A product is exact up to the longest duration. -/
theorem toNanos_times (d : Duration) (n : UInt32) :
    (d.times n).toNanos = Min.min (d.toNanos * n.toNat) longest.toNanos := by
  have hlongest := toNanos_longest
  have hcarry := Nat.div_add_mod (d.nanos.toNat * n.toNat) nanosPerSecond
  have hrest : d.nanos.toNat * n.toNat % nanosPerSecond < nanosPerSecond :=
    Nat.mod_lt _ (by decide)
  have hproduct : d.toNanos * n.toNat =
      d.seconds.toNat * n.toNat * nanosPerSecond + d.nanos.toNat * n.toNat := by
    rw [toNanos, Nat.add_mul, Nat.mul_right_comm]
  rw [hproduct]
  simp only [times]
  split
  · next hlt =>
    rw [toNanos_ofParts, UInt64.toNat_ofNat_of_lt' (by simpa using hlt)]
    simp only [UInt64.size, nanosPerSecond] at *
    omega
  · next hge =>
    simp only [UInt64.size, nanosPerSecond] at *
    omega

/-- The shorter of two durations has the smaller exact value. -/
theorem toNanos_min (a b : Duration) : (a.min b).toNanos = Min.min a.toNanos b.toNanos := by
  rw [min]
  split
  · next hle => exact (Nat.min_eq_left (le_iff.1 hle)).symm
  · next hle => exact (Nat.min_eq_right (Nat.le_of_not_le (mt le_iff.2 hle))).symm

end Duration

end ServiceDiscovery
