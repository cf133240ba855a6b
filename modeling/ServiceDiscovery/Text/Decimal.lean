/-!
# Unsigned decimal numbers

Numbers are written with the fewest digits. They are read from one or more ASCII digits, which may
be many zeros, after at most one plus sign, and only below a given bound.
-/

namespace ServiceDiscovery.Decimal

/-- The value of one ASCII digit. -/
def digit? (c : Char) : Option Nat :=
  if '0' ≤ c ∧ c ≤ '9' then some (c.toNat - '0'.toNat) else none

/-- The number that a run of digits continues. -/
def digitsFrom? (n : Nat) : List Char → Option Nat
  | [] => some n
  | c :: s => (digit? c).bind fun d => digitsFrom? (10 * n + d) s

/-- The number written by one or more digits. -/
def digits? : List Char → Option Nat
  | [] => none
  | s => digitsFrom? 0 s

/-- The number below `bound` written by digits after at most one plus sign. -/
def read? (bound : Nat) (s : List Char) : Option Nat :=
  (digits? (if s.head? = some '+' then s.tail else s)).filter (· < bound)

/-- The digits of a number, without leading zeros. -/
def text (n : Nat) : String := String.ofList (Nat.toDigits 10 n)

/-- A digit's value. -/
theorem digit?_of_isDigit {c : Char} (h : c.isDigit = true) :
    digit? c = some (c.toNat - '0'.toNat) := by
  rw [Char.isDigit, Bool.and_eq_true, decide_eq_true_iff, decide_eq_true_iff] at h
  exact if_pos h

/-- A run of digits continues a number as its value in base ten does. -/
theorem digitsFrom?_of_isDigit {s : List Char} (h : ∀ c ∈ s, c.isDigit = true) (n : Nat) :
    digitsFrom? n s = some (Nat.ofDigitChars 10 s n) := by
  induction s generalizing n with
  | nil => rfl
  | cons c s ih =>
    rw [digitsFrom?, digit?_of_isDigit (h c List.mem_cons_self), Option.bind_some,
      ih fun d hd => h d (List.mem_cons_of_mem c hd)]
    rfl

/-- A character with a value is a digit. -/
theorem isDigit_of_digit? {c : Char} {n : Nat} (h : digit? c = some n) : c.isDigit = true := by
  rw [digit?] at h
  split at h
  · next hc =>
    rw [Char.isDigit, Bool.and_eq_true, decide_eq_true_iff, decide_eq_true_iff]
    exact hc
  · cases h

/-- Only digits continue a number. -/
theorem isDigit_of_digitsFrom? {s : List Char} {m n : Nat} (h : digitsFrom? m s = some n) :
    ∀ c ∈ s, c.isDigit = true := by
  induction s generalizing m with
  | nil => exact nofun
  | cons c s ih =>
    obtain ⟨d, hd, h⟩ := Option.bind_eq_some_iff.1 h
    exact List.forall_mem_cons.2 ⟨isDigit_of_digit? hd, ih h⟩

/-- A text is the number that its digits have as their value in base ten. -/
theorem digits?_eq_some_iff {s : List Char} {n : Nat} :
    digits? s = some n ↔ s ≠ [] ∧ (∀ c ∈ s, c.isDigit = true) ∧ Nat.ofDigitChars 10 s 0 = n := by
  cases s with
  | nil => simp [digits?]
  | cons c s =>
    rw [digits?]
    constructor
    · intro h
      have hdigit := isDigit_of_digitsFrom? h
      rw [digitsFrom?_of_isDigit hdigit] at h
      exact ⟨List.cons_ne_nil c s, hdigit, Option.some.inj h⟩
    · rintro ⟨-, hdigit, rfl⟩
      exact digitsFrom?_of_isDigit hdigit 0
    · exact List.cons_ne_nil c s

/-- A number is written with digits only. -/
theorem isDigit_of_mem_text {n : Nat} {c : Char} (h : c ∈ (text n).toList) : c.isDigit = true := by
  rw [text, String.toList_ofList] at h
  exact Nat.isDigit_of_mem_toDigits (by decide) (by decide) h

/-- A number is written with one digit at least. -/
theorem text_ne_nil (n : Nat) : (text n).toList ≠ [] := by
  rw [text, String.toList_ofList]
  exact List.ne_nil_of_length_pos Nat.length_toDigits_pos

/-- Only zero is written with a zero in front. -/
theorem head?_text_ne_zero {n : Nat} (h : 0 < n) : (text n).toList.head? ≠ some '0' := by
  rw [text, String.toList_ofList]
  induction n using Nat.strongRecOn with
  | ind n ih =>
    by_cases hn : n < 10
    · have hdigit : ∀ k < 10, 0 < k → Nat.digitChar k ≠ '0' := by decide
      rw [Nat.toDigits_of_lt_base hn]
      simpa using hdigit n hn h
    · obtain ⟨c, front, hfront⟩ :=
        List.exists_cons_of_ne_nil (Nat.toDigits_ne_nil (n := n / 10) (b := 10))
      have hc := ih (n / 10) (by omega) (by omega)
      rw [hfront] at hc
      rw [Nat.toDigits_of_base_le (by decide) (by omega), hfront]
      exact hc

/-- A number that was written is read back. -/
theorem digits?_text (n : Nat) : digits? (text n).toList = some n := by
  have hdigits : digitsFrom? 0 (text n).toList = some n := by
    rw [digitsFrom?_of_isDigit fun c hc => isDigit_of_mem_text hc, text, String.toList_ofList,
      Nat.ofDigitChars_toDigits (by decide) (by decide)]
  cases hs : (text n).toList with
  | nil => exact absurd hs (text_ne_nil n)
  | cons c s =>
    rw [hs] at hdigits
    exact hdigits

end ServiceDiscovery.Decimal
