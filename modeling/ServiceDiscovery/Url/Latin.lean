import ServiceDiscovery.Url.Domain
import ServiceDiscovery.Url.Punycode

/-!
# A mapping of plain names

A mapping of domain names to ASCII that does without tables. It knows the names in ASCII, and no
others. Of their encoded labels it takes those to be valid that can be decoded and hold no character
of the Latin-1 range that has another spelling.
-/

namespace ServiceDiscovery.Url.Latin

/-- The characters of the Latin-1 range beyond ASCII that a decoded label must not hold, as a label
holds another spelling of them or none. -/
def isRespelled (c : Char) : Bool :=
  let n := c.toNat
  (0x80 ≤ n && n ≤ 0xA0) || [0xA8, 0xAA, 0xAD, 0xAF, 0xB2, 0xB3, 0xB4, 0xB5, 0xB8, 0xB9, 0xBA, 0xBC,
    0xBD, 0xBE].contains n || (0xC0 ≤ n && n ≤ 0xDE && n != 0xD7)

/-- Whether a label in lower case is no encoding, or the encoding of a label beyond ASCII. -/
def isPlainOrDecodable (label : List Char) : Bool :=
  match Text.dropFront? ['x', 'n', '-', '-'] label with
  | none => true
  | some rest =>
    match Punycode.decode? rest with
    | none => false
    | some decoded =>
      (decoded.any fun c => 0x7F < c.toNat) && !decoded.any isRespelled &&
        !decoded.any isForbiddenInDomain

/-- An ASCII name in lower case, if its encoded labels can be decoded. -/
def toAscii? (s : List Char) : Option (List Char) :=
  if s.any (fun c => 0x7F < c.toNat) then none
  else if (Text.fields '.' s).all fun label => isPlainOrDecodable (label.map Char.toLower) then
    some (s.map Char.toLower)
  else none

private theorem toLower_of_not_upper {c : Char} (h : c.toNat < 65 ∨ 90 < c.toNat) :
    c.toLower = c := by
  refine dif_neg fun hupper => ?_
  have hle : 65 ≤ c.toNat ∧ c.toNat ≤ 90 := hupper
  omega

private theorem toLower_of_isForbiddenInDomain {c : Char} (h : isForbiddenInDomain c = true) :
    c.toLower = c := by
  have hall : (forbiddenHost.all fun c => c.toLower == c) = true := by decide
  simp only [isForbiddenInDomain, Bool.or_eq_true, decide_eq_true_eq, beq_iff_eq,
    List.contains_iff_mem] at h
  rcases h with ((h | h) | rfl) | h
  · exact toLower_of_not_upper (by omega)
  · exact toLower_of_not_upper (by omega)
  · rfl
  · exact eq_of_beq (List.all_eq_true.1 hall c h)

/-- The mapping of plain names, for where this namespace is opened. -/
scoped instance idna : Idna where
  toAscii := toAscii?
  toAscii_plain s ha hp := by
    have hascii : s.any (fun c => 0x7F < c.toNat) = false := by
      refine List.any_eq_false.2 fun c hc => ?_
      have hlt := ha c hc
      simp
      omega
    have hplain : ((Text.fields '.' s).all fun label =>
        isPlainOrDecodable (label.map Char.toLower)) = true := by
      refine List.all_eq_true.2 fun label hl => ?_
      have hnone : Text.dropFront? ['x', 'n', '-', '-'] (label.map Char.toLower) = none :=
        Option.isSome_eq_false_iff.1 (hp label hl) |> Option.isNone_iff_eq_none.1
      simp only [isPlainOrDecodable, hnone]
    rw [toAscii?, hascii, hplain]
    rfl
  mem_toAscii s t h c hc hf _ := by
    rw [toAscii?] at h
    split at h
    · cases h
    · split at h
      · cases h
        exact List.mem_map.2 ⟨c, hc, toLower_of_isForbiddenInDomain hf⟩
      · cases h

end ServiceDiscovery.Url.Latin
