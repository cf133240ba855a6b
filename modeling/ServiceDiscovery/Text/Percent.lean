import ServiceDiscovery.Text.Hex
import ServiceDiscovery.Text.Utf8

/-!
# Percent-encoding

A character outside printable ASCII, or in the set of the place it is written to, is written as the
bytes of its UTF-8 form, each as a percent sign and two upper-case hexadecimal digits. Decoding
turns every complete escape back into its byte and leaves a percent sign that starts none as it is.
-/

namespace ServiceDiscovery.Percent

/-- Whether a character is escaped where the printable characters `extra` are. -/
def isEscaped (extra : List Char) (c : Char) : Bool :=
  c.toNat < 0x20 || 0x7E < c.toNat || extra.contains c

/-- The escape of one byte. -/
def escape (b : UInt8) : List Char := ['%', Hex.upper (b.toNat / 16), Hex.upper (b.toNat % 16)]

/-- The text with the characters of `extra`, and all but printable ASCII, escaped. -/
def encode (extra : List Char) (s : List Char) : List Char :=
  s.flatMap fun c =>
    if isEscaped extra c then (String.utf8EncodeChar c).flatMap escape else [c]

/-- The bytes of a text in which every escape stands for its byte. -/
def decode : List Char → List UInt8
  | '%' :: a :: b :: s =>
    match Hex.digit? a, Hex.digit? b with
    | some high, some low => UInt8.ofNat (16 * high + low) :: decode s
    | _, _ => 0x25 :: decode (a :: b :: s)
  | c :: s => String.utf8EncodeChar c ++ decode s
  | [] => []

/-- The characters escaped in a URL's fragment. -/
def fragmentSet : List Char := [' ', '"', '<', '>', Char.ofNat 0x60]

/-- The characters escaped in a URL's path. -/
def pathSet : List Char := fragmentSet ++ ['#', '?', '{', '}']

/-- The characters escaped in a single path segment. -/
def segmentSet : List Char := pathSet ++ ['/', '%']

/-- The characters escaped in a single path segment of a scheme that reads backslashes as slashes.
-/
def specialSegmentSet : List Char := segmentSet ++ ['\\']

/-- The characters escaped in user names and passwords. -/
def userInfoSet : List Char := pathSet ++ ['/', ':', ';', '=', '@', '[', '\\', ']', '^', '|']

/-- The characters escaped in a query. -/
def querySet : List Char := [' ', '"', '#', '<', '>']

/-- The characters escaped in a query of a special scheme. -/
def specialQuerySet : List Char := querySet ++ ['\'']

variable {extra : List Char}

/-- A text is encoded character by character. -/
theorem encode_cons (extra : List Char) (c : Char) (s : List Char) :
    encode extra (c :: s) =
      (if isEscaped extra c then (String.utf8EncodeChar c).flatMap escape else [c]) ++
        encode extra s := rfl

/-- Where blanks are escaped, what is not escaped comes after them. -/
theorem lt_toNat_of_not_escaped (h : ' ' ∈ extra) {c : Char} (hc : isEscaped extra c = false) :
    0x20 < c.toNat := by
  simp only [isEscaped, Bool.or_eq_false_iff, decide_eq_false_iff_not] at hc
  have hne : c.toNat ≠ 0x20 := fun he => by
    have hblank : c = ' ' := by
      rw [← Char.ofNat_toNat c, he]
    simp [hblank, h] at hc
  omega

/-- A text without characters to escape is written as it is. -/
theorem encode_of_not_escaped {s : List Char} (h : ∀ c ∈ s, isEscaped extra c = false) :
    encode extra s = s := by
  induction s with
  | nil => rfl
  | cons c s ih =>
    rw [encode_cons, h c List.mem_cons_self, ih fun d hd => h d (List.mem_cons_of_mem c hd)]
    rfl

/-- An escape is made of a percent sign and digits. -/
theorem of_mem_escape {b : UInt8} {c : Char} (h : c ∈ escape b) :
    c = '%' ∨ ∃ n < 16, c = Hex.upper n := by
  have hb := b.toNat_lt
  simp only [escape, List.mem_cons, List.not_mem_nil, or_false] at h
  rcases h with rfl | rfl | rfl
  · exact .inl rfl
  · exact .inr ⟨_, by omega, rfl⟩
  · exact .inr ⟨_, by omega, rfl⟩

/-- What stands in an encoded text: the characters that are not escaped, and escapes. -/
theorem of_mem_encode {s : List Char} {c : Char} (h : c ∈ encode extra s) :
    (c ∈ s ∧ isEscaped extra c = false) ∨ c = '%' ∨ ∃ n < 16, c = Hex.upper n := by
  obtain ⟨d, hd, hc⟩ := List.mem_flatMap.1 h
  split at hc
  · obtain ⟨b, -, hb⟩ := List.mem_flatMap.1 hc
    exact .inr (of_mem_escape hb)
  · next hplain =>
    cases List.mem_singleton.1 hc
    exact .inl ⟨hd, Bool.eq_false_iff.2 hplain⟩

/-- Escapes are not escaped once more. -/
def IsStable (extra : List Char) : Prop :=
  isEscaped extra '%' = false ∧ ∀ n < 16, isEscaped extra (Hex.upper n) = false

instance (extra : List Char) : Decidable (IsStable extra) := inferInstanceAs (Decidable (_ ∧ _))

/-- Where escapes are not escaped once more, nothing is left to escape in an encoded text. -/
theorem not_escaped_of_mem_encode (h : IsStable extra) {s : List Char} {c : Char}
    (hc : c ∈ encode extra s) : isEscaped extra c = false := by
  rcases of_mem_encode hc with ⟨-, hplain⟩ | rfl | ⟨n, hn, rfl⟩
  · exact hplain
  · exact h.1
  · exact h.2 n hn

/-- An escape is decoded as its byte. -/
theorem decode_escape (b : UInt8) (s : List Char) : decode (escape b ++ s) = b :: decode s := by
  have hb := b.toNat_lt
  have hbyte : UInt8.ofNat (16 * (b.toNat / 16) + b.toNat % 16) = b := by
    rw [Nat.div_add_mod, UInt8.ofNat_toNat]
  rw [escape, List.cons_append, List.cons_append, List.cons_append, List.nil_append, decode,
    Hex.digit?_upper (by omega), Hex.digit?_upper (by omega)]
  exact congrArg (· :: decode s) hbyte

/-- A character other than the percent sign is decoded as its own bytes. -/
theorem decode_cons {c : Char} (h : c ≠ '%') (s : List Char) :
    decode (c :: s) = String.utf8EncodeChar c ++ decode s := by
  rw [decode]
  rintro _ _ _ rfl
  exact fun _ => h rfl

/-- A character that stands in no escape is decoded as its own bytes. -/
theorem subset_decode {c : Char} {s : List Char} (h : c ∈ s) (hne : c ≠ '%')
    (hdigit : Hex.digit? c = none) : String.utf8EncodeChar c ⊆ decode s := by
  induction s using decode.induct with
  | case1 a b s high low hb ha ih =>
    simp only [List.mem_cons] at h
    rcases h with rfl | rfl | rfl | h
    · exact absurd rfl hne
    · rw [hdigit] at ha
      cases ha
    · rw [hdigit] at hb
      cases hb
    · rw [decode, ha, hb]
      exact List.subset_cons_of_subset _ (ih h)
  | case2 a b s hdigits ih =>
    rcases List.mem_cons.1 h with rfl | h
    · exact absurd rfl hne
    · rw [decode]
      split
      · next high low ha hb => exact absurd hb (hdigits high low ha)
      · exact List.subset_cons_of_subset _ (ih h)
  | case3 d s hd ih =>
    rw [decode]
    · rcases List.mem_cons.1 h with rfl | h
      · exact List.subset_append_left _ _
      · exact List.subset_append_of_subset_right _ (ih h)
    · exact hd
  | case4 => cases h

/-- Escapes are decoded as their bytes. -/
theorem decode_flatMap_escape (bytes : List UInt8) (s : List Char) :
    decode (bytes.flatMap escape ++ s) = bytes ++ decode s := by
  induction bytes with
  | nil => rfl
  | cons b bytes ih =>
    rw [List.flatMap_cons, List.append_assoc, decode_escape, ih, List.cons_append]

/-- Where percent signs are escaped, an encoded text is decoded as its bytes. -/
theorem decode_encode (h : '%' ∈ extra) (s : List Char) :
    decode (encode extra s) = Utf8.encode s := by
  induction s with
  | nil => rfl
  | cons c s ih =>
    have hcons : Utf8.encode (c :: s) = String.utf8EncodeChar c ++ Utf8.encode s := rfl
    rw [encode_cons, hcons, ← ih]
    split
    · exact decode_flatMap_escape _ _
    · next hc =>
      have hne : c ≠ '%' := by
        rintro rfl
        exact hc (by simp [isEscaped, h])
      exact decode_cons hne _

end ServiceDiscovery.Percent
