import Mathlib.Data.String.Basic
import ServiceDiscovery.Text.Utf8

/-!
# The order of texts is the order of their bytes

UTF-8 keeps the order of characters: where the codes of two characters first differ, the larger
character has the larger byte, and no code begins another one. So texts compare by their characters
exactly as they do by their bytes.
-/

namespace ServiceDiscovery.Utf8

/-- The code of a character has one to four bytes, by the size of the character. -/
theorem encodeChar_cases (c : Char) :
    (c.toNat < 128 ∧ String.utf8EncodeChar c = [.ofNat c.toNat]) ∨
      (128 ≤ c.toNat ∧ c.toNat < 2048 ∧ String.utf8EncodeChar c =
        [.ofNat (c.toNat / 64 + 192), .ofNat (c.toNat % 64 + 128)]) ∨
      (2048 ≤ c.toNat ∧ c.toNat < 65536 ∧ String.utf8EncodeChar c =
        [.ofNat (c.toNat / 4096 + 224), .ofNat (c.toNat / 64 % 64 + 128),
          .ofNat (c.toNat % 64 + 128)]) ∨
      (65536 ≤ c.toNat ∧ c.toNat < 1114112 ∧ String.utf8EncodeChar c =
        [.ofNat (c.toNat / 262144 + 240), .ofNat (c.toNat / 4096 % 64 + 128),
          .ofNat (c.toNat / 64 % 64 + 128), .ofNat (c.toNat % 64 + 128)]) := by
  have hmax : c.toNat < 1114112 := by
    rcases c.valid with hv | hv
    · exact Nat.lt_trans hv (by decide)
    · exact hv.2
  have hval : c.val.toNat = c.toNat := rfl
  unfold String.utf8EncodeChar
  dsimp only
  rw [hval]
  generalize c.toNat = n at hmax
  split
  · exact Or.inl ⟨by omega, rfl⟩
  · split
    · have hlead : n / 64 % 32 = n / 64 := Nat.mod_eq_of_lt (by omega)
      exact Or.inr (Or.inl ⟨by omega, by omega, by rw [hlead]⟩)
    · split
      · have hlead : n / 4096 % 16 = n / 4096 := Nat.mod_eq_of_lt (by omega)
        exact Or.inr (Or.inr (Or.inl ⟨by omega, by omega, by rw [hlead]⟩))
      · have hlead : n / 262144 % 8 = n / 262144 := Nat.mod_eq_of_lt (by omega)
        exact Or.inr (Or.inr (Or.inr ⟨by omega, hmax, by rw [hlead]⟩))

private theorem ofNat_cons_lt_iff {a b : Nat} (ha : a < 256) (hb : b < 256) {s t : List UInt8} :
    UInt8.ofNat a :: s < UInt8.ofNat b :: t ↔ a < b ∨ a = b ∧ s < t := by
  rw [List.cons_lt_cons_iff, UInt8.lt_iff_toNat_lt, ← UInt8.toNat_inj,
    UInt8.toNat_ofNat_of_lt' ha, UInt8.toNat_ofNat_of_lt' hb]

private theorem encodeChar_append_lt {c d : Char} (h : c < d) (x y : List UInt8) :
    String.utf8EncodeChar c ++ x < String.utf8EncodeChar d ++ y := by
  have hlt : c.toNat < d.toNat := h
  -- The bytes are digits to the base 64, each taken off what the one before leaves.
  have hc := Nat.div_div_eq_div_mul c.toNat 64 64
  have hd := Nat.div_div_eq_div_mul d.toNat 64 64
  have hc' := Nat.div_div_eq_div_mul c.toNat 4096 64
  have hd' := Nat.div_div_eq_div_mul d.toNat 4096 64
  rcases encodeChar_cases c with ⟨hn, hs⟩ | ⟨hl, hn, hs⟩ | ⟨hl, hn, hs⟩ | ⟨hl, hn, hs⟩ <;>
    rcases encodeChar_cases d with ⟨hm, ht⟩ | ⟨hk, hm, ht⟩ | ⟨hk, hm, ht⟩ | ⟨hk, hm, ht⟩ <;>
    · rw [hs, ht]
      simp (disch := omega) only [List.cons_append, List.nil_append, ofNat_cons_lt_iff]
      omega

/-- The bytes of a text are below those of a larger one. -/
theorem encode_lt_encode {s t : List Char} (h : s < t) : encode s < encode t := by
  induction s generalizing t with
  | nil =>
    cases t with
    | nil => exact absurd h (List.lt_irrefl [])
    | cons d t =>
      rw [encode, encode, List.flatMap_cons]
      obtain ⟨b, bytes, hb⟩ := List.exists_cons_of_ne_nil (String.utf8EncodeChar_ne_nil (c := d))
      rw [hb]
      exact List.nil_lt_cons b _
  | cons c s ih =>
    cases t with
    | nil => cases h
    | cons d t =>
      rw [encode, encode, List.flatMap_cons, List.flatMap_cons]
      rcases List.cons_lt_cons_iff.1 h with hlt | ⟨rfl, hrest⟩
      · exact encodeChar_append_lt hlt _ _
      · exact List.append_left_lt (ih hrest)

/-- Texts are ordered by their characters exactly as they are by their bytes. -/
theorem encode_lt_encode_iff {s t : List Char} : encode s < encode t ↔ s < t := by
  constructor
  · intro h
    rcases lt_trichotomy s t with hlt | rfl | hgt
    · exact hlt
    · exact absurd h (List.lt_irrefl _)
    · exact absurd h (List.lt_asymm (encode_lt_encode hgt))
  · exact encode_lt_encode

/-- Texts compare by their bytes. -/
theorem compare_eq_lt_iff {a b : String} :
    compare a b = .lt ↔ encode a.toList < encode b.toList := by
  rw [encode_lt_encode_iff, ← String.lt_iff_toList_lt]
  exact compare_lt_iff_lt

end ServiceDiscovery.Utf8
