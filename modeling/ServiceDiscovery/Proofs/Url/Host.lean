import ServiceDiscovery.Proofs.Text.Utf8
import ServiceDiscovery.Url.Host

/-!
# Hosts as registries write them

A registry writes a host as a name of letters, digits, hyphens, underscores and points, as the four
bytes of an IPv4 address in decimal, or as an IPv6 address without brackets. Under a special scheme
a name is read in its normal form and an address as its bytes; under other schemes each name is read
as it is. No name holds a colon, every IPv6 address does.
-/

namespace ServiceDiscovery.Url

/-- The characters of names. -/
def isNameChar (c : Char) : Bool := c.isAlphanum || c == '-' || c == '_' || c == '.'

/-- The characters of names and addresses. -/
def isHostChar (c : Char) : Bool := isNameChar c || c == ':'

/-- A name, or the decimal text of an IPv4 address. -/
structure IsHostName (s : List Char) : Prop where
  ne_nil : s ≠ []
  char : ∀ c ∈ s, isNameChar c = true

/-- The text of an IPv4 address. -/
structure IsIpv4Text (bytes : List Nat) (s : String) : Prop where
  length : bytes.length = 4
  byte : ∀ b ∈ bytes, b < 256
  text : s = ".".intercalate (bytes.map Decimal.text)

/-- A name that a special scheme takes for a domain: it has a normal form, in which no character is
forbidden and the last label is no number. -/
def IsDomain [Idna] (s : List Char) : Prop :=
  ∃ d, Idna.toAscii s = some d ∧ d ≠ [] ∧ (∀ c ∈ d, isForbiddenInDomain c = false) ∧
    endsInNumber d = false

/-- A host of a URL is the host that a registry writes: the same name, or its normal form, or the
same address. -/
inductive Host.Denotes [Idna] : Host → String → Prop
  /-- The name as it is written. -/
  | written (s : String) : Denotes (.name s) s
  /-- The normal form of the name. -/
  | normal {d : List Char} {s : String} (h : Idna.toAscii s.toList = some d) :
      Denotes (.name (String.ofList d)) s
  /-- The IPv4 address that the text writes. -/
  | ipv4 {bytes : List Nat} {s : String} (h : IsIpv4Text bytes s) : Denotes (.ipv4 bytes) s
  /-- The IPv6 address that the text writes. -/
  | ipv6 {pieces : List Nat} {s : String} (h : ipv6? s.toList = some pieces) :
      Denotes (.ipv6 pieces) s

/-! ### Characters -/

/-- What holds of every ASCII character by inspection holds of a given one. -/
theorem of_ascii {p : Char → Prop} (h : ∀ n < 128, p (Char.ofNat n)) {c : Char}
    (hc : c.toNat < 128) : p c := by
  have hp := h c.toNat hc
  rwa [Char.ofNat_toNat] at hp

/-- Letters and digits are ASCII. -/
theorem toNat_lt_of_isAlphanum {c : Char} (h : c.isAlphanum = true) : c.toNat < 128 := by
  have hle : c.val ≤ 'z'.val := by
    rcases Bool.or_eq_true_iff.1 h with hl | hd
    · rcases Bool.or_eq_true_iff.1 hl with hu | hw
      · exact UInt32.le_trans (of_decide_eq_true hu).2 (by decide)
      · exact of_decide_eq_true (Bool.and_eq_true_iff.1 hw).2
    · exact UInt32.le_trans (of_decide_eq_true (Bool.and_eq_true_iff.1 hd).2) (by decide)
  exact Nat.lt_of_le_of_lt (UInt32.le_iff_toNat_le.1 hle) (by decide)

/-- The characters of names and addresses are ASCII. -/
theorem toNat_lt_of_isHostChar {c : Char} (h : isHostChar c = true) : c.toNat < 128 := by
  simp only [isHostChar, isNameChar, Bool.or_eq_true, beq_iff_eq] at h
  rcases h with (((h | rfl) | rfl) | rfl) | rfl
  · exact toNat_lt_of_isAlphanum h
  all_goals decide

/-- What holds of the characters of names and addresses by inspection. -/
theorem of_isHostChar {p : Char → Prop} {c : Char} (hc : isHostChar c = true)
    (h : ∀ n < 128, isHostChar (Char.ofNat n) = true → p (Char.ofNat n)) : p c :=
  of_ascii (p := fun c => isHostChar c = true → p c) h (toNat_lt_of_isHostChar hc) hc

/-- The characters of names stand in addresses, too. -/
theorem isHostChar_of_isNameChar {c : Char} (h : isNameChar c = true) : isHostChar c = true := by
  rw [isHostChar, h, Bool.true_or]

/-- What holds of the characters of names by inspection. -/
theorem of_isNameChar {p : Char → Prop} {c : Char} (hc : isNameChar c = true)
    (h : ∀ n < 128, isNameChar (Char.ofNat n) = true → p (Char.ofNat n)) : p c :=
  of_ascii (p := fun c => isNameChar c = true → p c) h
    (toNat_lt_of_isHostChar (isHostChar_of_isNameChar hc)) hc

/-- No character of a name is forbidden in a domain, or anywhere in a host. -/
theorem not_forbidden_of_isNameChar {c : Char} (h : isNameChar c = true) :
    isForbiddenInDomain c = false ∧ forbiddenHost.contains c = false ∧
      Percent.isEscaped [] c = false ∧ c ≠ ':' :=
  of_isNameChar (p := fun c => isForbiddenInDomain c = false ∧ forbiddenHost.contains c = false ∧
    Percent.isEscaped [] c = false ∧ c ≠ ':') h (by decide)

/-- No character of a name or address starts an escape or a bracket. -/
theorem ne_of_isHostChar {c : Char} (h : isHostChar c = true) : c ≠ '%' ∧ c ≠ '[' ∧ c ≠ '@' :=
  of_isHostChar (p := fun c => c ≠ '%' ∧ c ≠ '[' ∧ c ≠ '@') h (by decide)

/-- In lower case a character of a name stays one, and stays as it is from then on. -/
theorem toLower_of_isNameChar {c : Char} (h : isNameChar c = true) :
    isNameChar c.toLower = true ∧ c.toLower.toLower = c.toLower :=
  of_isNameChar (p := fun c => isNameChar c.toLower = true ∧ c.toLower.toLower = c.toLower) h
    (by decide)

/-- The characters of a name are characters of names and addresses. -/
theorem IsHostName.hostChar {s : List Char} (h : IsHostName s) : ∀ c ∈ s, isHostChar c = true :=
  fun c hc => isHostChar_of_isNameChar (h.char c hc)

/-- No name holds a colon. -/
theorem IsHostName.not_mem_colon {s : List Char} (h : IsHostName s) : ':' ∉ s := fun hm =>
  (not_forbidden_of_isNameChar (h.char ':' hm)).2.2.2 rfl

private theorem IsHostName.not_forbidden_toLower {s : List Char} (h : IsHostName s) :
    ∀ c ∈ s.map Char.toLower, isForbiddenInDomain c = false := by
  intro c hc
  obtain ⟨x, hx, rfl⟩ := List.mem_map.1 hc
  exact (not_forbidden_of_isNameChar (toLower_of_isNameChar (h.char x hx)).1).1

/-! ### Decoding -/

private theorem percentDecode_of_no_escape {s : List Char} (h : '%' ∉ s) :
    Percent.decode s = Utf8.encode s := by
  induction s with
  | nil => rfl
  | cons c s ih =>
    rw [List.mem_cons, not_or] at h
    rw [Percent.decode_cons (Ne.symm h.1), ih h.2, Utf8.encode, Utf8.encode, List.flatMap_cons]

/-- Names and addresses are decoded as they are. -/
theorem decode?_of_isHostChar {s : List Char} (h : ∀ c ∈ s, isHostChar c = true) :
    Utf8.decode? (Percent.decode s) = some s := by
  have hescape : '%' ∉ s := fun hm => (ne_of_isHostChar (h '%' hm)).1 rfl
  rw [percentDecode_of_no_escape hescape, Utf8.decode?_encode]

/-! ### Names -/

section

variable [Idna] {s d : List Char}

/-- The normal form of a text that needs no decoding is the one of the mapping, if no character is
forbidden there. -/
theorem domain?_of_isHostChar (h : ∀ c ∈ s, isHostChar c = true) :
    domain? s = (Idna.toAscii s).filter fun d => !d.any isForbiddenInDomain := by
  rw [domain?, decode?_of_isHostChar h, Option.bind_some]

/-- What stands in a text that has a normal form is not forbidden, but for the signs that can be
composed. -/
theorem not_forbidden_of_mem_decode {t : List Char} (h : domain? s = some d)
    (ht : Utf8.decode? (Percent.decode s) = some t) {c : Char} (hc : c ∈ t)
    (hs : c ≠ '<' ∧ c ≠ '>') : isForbiddenInDomain c = false := by
  obtain ⟨hmap, hnone⟩ := Option.filter_eq_some_iff.1 h
  rw [ht, Option.bind_some] at hmap
  refine Bool.eq_false_iff.2 fun hf => ?_
  have hmem := Idna.mem_toAscii t d hmap c hc hf hs
  have hany : d.any isForbiddenInDomain = true := List.any_eq_true.2 ⟨c, hmem, hf⟩
  rw [hany] at hnone
  cases hnone

/-- A text with a colon is no domain. -/
theorem domain?_of_mem_colon (h : ∀ c ∈ s, isHostChar c = true) (hc : ':' ∈ s) :
    domain? s = none := by
  rw [Option.eq_none_iff_forall_ne_some]
  intro d hd
  have hfree := not_forbidden_of_mem_decode hd (decode?_of_isHostChar h) hc (by decide)
  exact absurd hfree (by decide)

private theorem parse_of_isHostChar (h : ∀ c ∈ s, isHostChar c = true) :
    Host.parse s =
      match domain? s with
      | some domain => Host.ofDomain domain
      | none => .error .domainName := by
  rw [Host.parse.eq_def]
  split
  · exact absurd rfl (ne_of_isHostChar (h '[' List.mem_cons_self)).2.1
  · rfl

/-- A text with a colon is no host of a special URL. -/
theorem parse_of_mem_colon (h : ∀ c ∈ s, isHostChar c = true) (hc : ':' ∈ s) :
    Host.parse s = .error .domainName := by
  rw [parse_of_isHostChar h, domain?_of_mem_colon h hc]

/-- What a special scheme reads for a text that needs no decoding and has a normal form. -/
theorem parse_of_toAscii (h : ∀ c ∈ s, isHostChar c = true) (hd : Idna.toAscii s = some d)
    (hf : ∀ c ∈ d, isForbiddenInDomain c = false) : Host.parse s = Host.ofDomain d := by
  have hnone : (!d.any isForbiddenInDomain) = true := by
    simpa using hf
  rw [parse_of_isHostChar h, domain?_of_isHostChar h, hd, Option.filter_some, if_pos hnone]

/-- A name without encoded labels is mapped to lower case. -/
theorem toAscii_of_isHostName (h : IsHostName s)
    (hp : ∀ label ∈ Text.fields '.' s, isEncoded label = false) :
    Idna.toAscii s = some (s.map Char.toLower) :=
  Idna.toAscii_plain s (fun c hc => toNat_lt_of_isHostChar (h.hostChar c hc)) hp

/-- A special scheme reads a name without encoded labels in lower case. -/
theorem parse_of_isHostName (h : IsHostName s)
    (hp : ∀ label ∈ Text.fields '.' s, isEncoded label = false) :
    Host.parse s = Host.ofDomain (s.map Char.toLower) :=
  parse_of_toAscii h.hostChar (toAscii_of_isHostName h hp) h.not_forbidden_toLower

/-- A name without encoded labels is a domain unless its last label is a number. -/
theorem isDomain_iff (h : IsHostName s)
    (hp : ∀ label ∈ Text.fields '.' s, isEncoded label = false) :
    IsDomain s ↔ endsInNumber (s.map Char.toLower) = false := by
  have hd := toAscii_of_isHostName h hp
  constructor
  · rintro ⟨d, hmap, -, -, hlast⟩
    cases hd.symm.trans hmap
    exact hlast
  · exact fun hlast => ⟨_, hd, by simp [h.ne_nil], h.not_forbidden_toLower, hlast⟩

end

private theorem encode_of_isNameChar {s : List Char} (h : ∀ c ∈ s, isNameChar c = true) :
    Percent.encode [] s = s :=
  Percent.encode_of_not_escaped fun c hc => (not_forbidden_of_isNameChar (h c hc)).2.2.1

/-- Other schemes read a name as it is. -/
theorem parseOther_of_isHostName {s : List Char} (h : IsHostName s) :
    Host.parseOther s = .ok (some (.name (String.ofList s))) := by
  have hany : s.any forbiddenHost.contains = false := by
    rw [List.any_eq_false]
    intro c hc
    rw [(not_forbidden_of_isNameChar (h.char c hc)).2.1]
    exact Bool.false_ne_true
  have hplain : Percent.encode [] s = s := encode_of_isNameChar h.char
  cases s with
  | nil => exact absurd rfl h.ne_nil
  | cons c s =>
    rw [Host.parseOther, if_neg (by simp [hany]), hplain]
    · exact nofun
    · rintro rest he
      cases he
      exact (ne_of_isHostChar (isHostChar_of_isNameChar (h.char '[' List.mem_cons_self))).2.1 rfl

/-! ### IPv4 addresses -/

/-- Digits are characters of names, and have no lower case of their own. -/
theorem isNameChar_of_isDigit {c : Char} (h : c.isDigit = true) :
    isNameChar c = true ∧ c.toLower = c ∧ c ≠ '.' ∧ c ≠ 'x' :=
  of_ascii (p := fun c => c.isDigit = true →
    isNameChar c = true ∧ c.toLower = c ∧ c ≠ '.' ∧ c ≠ 'x') (by decide)
    (toNat_lt_of_isAlphanum (by simp [Char.isAlphanum, h])) h

/-- Digits stand in addresses. -/
theorem isHostChar_of_isDigit {c : Char} (h : c.isDigit = true) : isHostChar c = true :=
  isHostChar_of_isNameChar (isNameChar_of_isDigit h).1

/-- The text of an IPv4 address in its four parts. -/
theorem IsIpv4Text.toList_eq {bytes : List Nat} {s : String} (h : IsIpv4Text bytes s) :
    ∃ a b c d, bytes = [a, b, c, d] ∧
      s.toList = (Decimal.text a).toList ++ '.' :: ((Decimal.text b).toList ++
        '.' :: ((Decimal.text c).toList ++ '.' :: (Decimal.text d).toList)) := by
  obtain ⟨hlen, -, rfl⟩ := h
  match bytes, hlen with
  | [a, b, c, d], _ =>
    refine ⟨a, b, c, d, rfl, ?_⟩
    simp

/-- The text of an IPv4 address holds digits and points only. -/
theorem IsIpv4Text.char {bytes : List Nat} {s : String} (h : IsIpv4Text bytes s) :
    ∀ c ∈ s.toList, c.isDigit = true ∨ c = '.' := by
  obtain ⟨a, b, c, d, -, hs⟩ := h.toList_eq
  intro x hx
  rw [hs] at hx
  simp only [List.mem_append, List.mem_cons] at hx
  rcases hx with hx | rfl | hx | rfl | hx | rfl | hx
  · exact Or.inl (Decimal.isDigit_of_mem_text hx)
  · exact Or.inr rfl
  · exact Or.inl (Decimal.isDigit_of_mem_text hx)
  · exact Or.inr rfl
  · exact Or.inl (Decimal.isDigit_of_mem_text hx)
  · exact Or.inr rfl
  · exact Or.inl (Decimal.isDigit_of_mem_text hx)

/-- The text of an IPv4 address could be a name. -/
theorem IsIpv4Text.isHostName {bytes : List Nat} {s : String} (h : IsIpv4Text bytes s) :
    IsHostName s.toList := by
  refine ⟨?_, ?_⟩
  · obtain ⟨a, b, c, d, -, hs⟩ := h.toList_eq
    rw [hs]
    simp
  · intro c hc
    rcases h.char c hc with hd | rfl
    · exact (isNameChar_of_isDigit hd).1
    · decide

/-- A byte is read back from its decimal text. -/
theorem ipv4Number?_text : ∀ n < 256, ipv4Number? (Decimal.text n).toList = some n := by
  decide +kernel

private theorem not_mem_text (n : Nat) : '.' ∉ (Decimal.text n).toList := fun h =>
  (isNameChar_of_isDigit (Decimal.isDigit_of_mem_text h)).2.2.1 rfl

private theorem isEncoded_text (n : Nat) : isEncoded (Decimal.text n).toList = false := by
  cases hs : (Decimal.text n).toList with
  | nil => rfl
  | cons c s =>
    have hc : c.isDigit = true := Decimal.isDigit_of_mem_text (hs ▸ List.mem_cons_self)
    have hx : 'x' ≠ c.toLower := by
      rw [(isNameChar_of_isDigit hc).2.1]
      exact (isNameChar_of_isDigit hc).2.2.2.symm
    simp [isEncoded, Text.dropFront?, hx]

private theorem ipv4Bytes_eq (a : Nat) {b c d : Nat} (hb : b < 256) (hc : c < 256) (hd : d < 256) :
    ipv4Bytes (a * Nat.pow 256 3 + b * Nat.pow 256 2 + c * Nat.pow 256 1 + d) = [a, b, c, d] := by
  simp only [ipv4Bytes, Nat.pow_eq, Nat.reducePow]
  congr 1
  · omega
  congr 1
  · omega
  congr 1
  · omega
  congr 1
  omega

/-- Under a special scheme an IPv4 address is read back from its text. -/
theorem parse_of_isIpv4Text [Idna] {bytes : List Nat} {s : String} (h : IsIpv4Text bytes s) :
    Host.parse s.toList = .ok (.ipv4 bytes) := by
  have hlower : s.toList.map Char.toLower = s.toList := by
    refine (List.map_congr_left fun c hc => ?_).trans (List.map_id _)
    rcases h.char c hc with hd | rfl
    · exact (isNameChar_of_isDigit hd).2.1
    · decide
  have hname := h.isHostName
  have hbyte := h.byte
  obtain ⟨a, b, c, d, rfl, hs⟩ := h.toList_eq
  have hfields : Text.fields '.' s.toList = [(Decimal.text a).toList, (Decimal.text b).toList,
      (Decimal.text c).toList, (Decimal.text d).toList] := by
    rw [hs, Text.fields_append (not_mem_text a), Text.fields_append (not_mem_text b),
      Text.fields_append (not_mem_text c), Text.fields_of_not_mem (not_mem_text d)]
  have hparts : ipv4Parts s.toList = [(Decimal.text a).toList, (Decimal.text b).toList,
      (Decimal.text c).toList, (Decimal.text d).toList] := by
    rw [ipv4Parts, hfields]
    simp [Decimal.text_ne_nil d]
  have hlast : endsInNumber s.toList = true := by
    have hall : ((Decimal.text d).toList.all fun c => (Decimal.digit? c).isSome) = true := by
      rw [List.all_eq_true]
      intro x hx
      rw [Decimal.digit?_of_isDigit (Decimal.isDigit_of_mem_text hx)]
      rfl
    rw [endsInNumber, hparts]
    simp [hall, Decimal.text_ne_nil d]
  simp only [List.mem_cons, List.not_mem_nil, or_false, forall_eq_or_imp, forall_eq] at hbyte
  obtain ⟨ha, hb, hc, hd⟩ := hbyte
  have hipv4 : ipv4? s.toList = some [a, b, c, d] := by
    rw [← ipv4Bytes_eq a hb hc hd, ipv4?, hparts]
    simp [ipv4Number?_text, ha, hb, hc, hd]
    omega
  have hplain : ∀ label ∈ Text.fields '.' s.toList, isEncoded label = false := by
    simp [hfields, isEncoded_text]
  rw [parse_of_isHostName hname hplain, hlower, Host.ofDomain, hlast, hipv4]
  simp [hname.ne_nil]

/-- A special scheme reads a name as the host that it writes exactly if the name is an IPv4 address
or a domain. -/
theorem denotes_iff_of_isHostName [Idna] {s : String} (h : IsHostName s.toList) :
    (∃ host, Host.parse s.toList = .ok host ∧ host.Denotes s) ↔
      (∃ bytes, IsIpv4Text bytes s) ∨ IsDomain s.toList := by
  constructor
  · rintro ⟨host, hparse, hdenotes⟩
    rw [parse_of_isHostChar h.hostChar, domain?_of_isHostChar h.hostChar] at hparse
    split at hparse
    · next d hd =>
      obtain ⟨hmap, hfree⟩ := Option.filter_eq_some_iff.1 hd
      rw [Host.ofDomain] at hparse
      split at hparse
      · cases hparse
      · next hne =>
        split at hparse
        · split at hparse
          · cases hparse
            cases hdenotes with
            | ipv4 htext => exact Or.inl ⟨_, htext⟩
          · cases hparse
        · next hlast =>
          refine Or.inr ⟨d, hmap, ?_, ?_, Bool.eq_false_iff.2 hlast⟩
          · simpa using hne
          · simpa using hfree
    · cases hparse
  · rintro (⟨bytes, htext⟩ | ⟨d, hmap, hne, hfree, hlast⟩)
    · exact ⟨.ipv4 bytes, parse_of_isIpv4Text htext, .ipv4 htext⟩
    · refine ⟨.name (String.ofList d), ?_, .normal hmap⟩
      rw [parse_of_toAscii h.hostChar hmap hfree, Host.ofDomain, hlast]
      simp [hne]

/-! ### IPv6 addresses -/

private theorem exists_of_mapM {α β : Type} {f : α → Option β} {l : List α} {r : List β}
    (h : l.mapM f = some r) : r.length = l.length ∧ ∀ x ∈ l, ∃ y, f x = some y := by
  induction l generalizing r with
  | nil =>
    cases h
    exact ⟨rfl, nofun⟩
  | cons x l ih =>
    rw [List.mapM_cons] at h
    obtain ⟨y, hy, h⟩ := Option.bind_eq_some_iff.1 h
    obtain ⟨ys, hys, h⟩ := Option.bind_eq_some_iff.1 h
    cases h
    obtain ⟨hlen, hall⟩ := ih hys
    exact ⟨congrArg (· + 1) hlen, List.forall_mem_cons.2 ⟨⟨y, hy⟩, hall⟩⟩

private theorem isHostChar_of_hexDigit {c : Char} {n : Nat} (h : Hex.digit? c = some n) :
    isHostChar c = true := by
  have hlt : c.toNat < 128 := by
    simp only [Hex.digit?, Char.le_def, UInt32.le_iff_toNat_le] at h
    have hc : c.toNat = c.val.toNat := rfl
    have h9 : '9'.val.toNat = 57 := rfl
    have hF : 'F'.val.toNat = 70 := rfl
    have hf : 'f'.val.toNat = 102 := rfl
    split at h
    · omega
    · split at h
      · omega
      · split at h
        · omega
        · cases h
  exact of_ascii (p := fun c => (Hex.digit? c).isSome = true → isHostChar c = true)
    (by decide) hlt (by rw [h]; rfl)

private theorem char_of_hexDigits {s : List Char} {m n : Nat}
    (h : s.foldlM (fun n c => (Hex.digit? c).map (16 * n + ·)) m = some n) :
    ∀ c ∈ s, isHostChar c = true := by
  induction s generalizing m with
  | nil => exact nofun
  | cons c s ih =>
    rw [List.foldlM_cons] at h
    obtain ⟨k, hk, h⟩ := Option.bind_eq_some_iff.1 h
    obtain ⟨d, hd, -⟩ := Option.map_eq_some_iff.1 hk
    exact List.forall_mem_cons.2 ⟨isHostChar_of_hexDigit hd, ih h⟩

private theorem char_of_ipv6Piece? {s : List Char} {n : Nat} (h : ipv6Piece? s = some n) :
    ∀ c ∈ s, isHostChar c = true := by
  rw [ipv6Piece?] at h
  split at h
  · cases h
  · exact char_of_hexDigits h

private theorem char_of_embeddedByte? {s : List Char} {n : Nat} (h : embeddedByte? s = some n) :
    ∀ c ∈ s, isHostChar c = true := by
  rw [embeddedByte?] at h
  split at h
  · cases h
  · obtain ⟨hdigits, -⟩ := Option.filter_eq_some_iff.1 h
    exact fun c hc => isHostChar_of_isDigit ((Decimal.digits?_eq_some_iff.1 hdigits).2.1 c hc)

private theorem char_of_embeddedPieces? {s : List Char} {pieces : List Nat}
    (h : embeddedPieces? s = some pieces) :
    pieces.length = 2 ∧ ∀ c ∈ s, isHostChar c = true := by
  obtain ⟨bytes, hbytes, h⟩ := Option.bind_eq_some_iff.1 h
  refine ⟨?_, ?_⟩
  · split at h
    · cases h
      rfl
    · cases h
  · refine Text.forall_mem_of_fields (m := '.') (by decide) fun f hf => ?_
    obtain ⟨n, hn⟩ := (exists_of_mapM hbytes).2 f hf
    exact char_of_embeddedByte? hn

private theorem char_of_ipv6Pieces? {allow : Bool} {s : List Char} {pieces : List Nat}
    (h : ipv6Pieces? allow s = some pieces) :
    (∀ c ∈ s, isHostChar c = true) ∧ pieces.length ≤ (Text.fields ':' s).length + 1 := by
  rw [ipv6Pieces?] at h
  split at h
  · next hempty =>
    cases h
    rw [List.isEmpty_iff.1 hempty]
    exact ⟨nofun, Nat.zero_le _⟩
  · simp only at h
    split at h
    · cases h
    · next last hlast =>
      obtain ⟨front, hfront, h⟩ := Option.bind_eq_some_iff.1 h
      obtain ⟨back, rfl, hback, hchars⟩ : ∃ back, pieces = front ++ back ∧ back.length ≤ 2 ∧
          ∀ c ∈ last, isHostChar c = true := by
        split at h
        · obtain ⟨back, hback, h⟩ := Option.bind_eq_some_iff.1 h
          cases h
          obtain ⟨hlen, hchars⟩ := char_of_embeddedPieces? hback
          exact ⟨back, rfl, Nat.le_of_eq hlen, hchars⟩
        · obtain ⟨back, hback, h⟩ := Option.bind_eq_some_iff.1 h
          cases h
          obtain ⟨n, hn, rfl⟩ := Option.map_eq_some_iff.1 hback
          exact ⟨[n], rfl, Nat.le_succ 1, char_of_ipv6Piece? hn⟩
      obtain ⟨hlen, hpieces⟩ := exists_of_mapM hfront
      have hgroups : (Text.fields ':' s).dropLast ++ [last] = Text.fields ':' s := by
        obtain ⟨groups, hg⟩ := List.getLast?_eq_some_iff.1 hlast
        rw [hg, List.dropLast_concat]
      refine ⟨?_, ?_⟩
      · refine Text.forall_mem_of_fields (m := ':') (by decide) fun f hf => ?_
        rw [← hgroups, List.mem_append, List.mem_singleton] at hf
        rcases hf with hf | rfl
        · obtain ⟨n, hn⟩ := hpieces f hf
          exact char_of_ipv6Piece? hn
        · exact hchars
      · rw [← hgroups, List.length_append, List.length_append, hlen, List.length_singleton]
        omega

/-- An IPv6 address is written with characters of addresses, and with a colon. -/
theorem char_of_ipv6? {s : List Char} {pieces : List Nat} (h : ipv6? s = some pieces) :
    (∀ c ∈ s, isHostChar c = true) ∧ ':' ∈ s := by
  rw [ipv6?] at h
  split at h
  · next left right hsplit =>
    obtain ⟨front, hfront, h⟩ := Option.bind_eq_some_iff.1 h
    obtain ⟨back, hback, -⟩ := Option.bind_eq_some_iff.1 h
    rw [Text.eq_append_of_splitFirst? hsplit]
    refine ⟨?_, by simp⟩
    intro c hc
    simp only [List.mem_append, List.mem_cons, List.not_mem_nil, or_false, or_self] at hc
    rcases hc with (hc | rfl) | hc
    · exact (char_of_ipv6Pieces? hfront).1 c hc
    · decide
    · exact (char_of_ipv6Pieces? hback).1 c hc
  · obtain ⟨hpieces, hlen⟩ := Option.filter_eq_some_iff.1 h
    obtain ⟨hchars, hmany⟩ := char_of_ipv6Pieces? hpieces
    have height : pieces.length = 8 := of_decide_eq_true hlen
    refine ⟨hchars, Decidable.byContradiction fun hno => ?_⟩
    rw [Text.fields_of_not_mem hno, height] at hmany
    exact absurd hmany (by simp)

/-- One colon is not enough for an IPv6 address. -/
theorem mem_colon_of_ipv6? {a b : List Char} {pieces : List Nat}
    (h : ipv6? (a ++ ':' :: b) = some pieces) (hb : ':' ∉ b) : ':' ∈ a := by
  refine Decidable.byContradiction fun ha => ?_
  rw [ipv6?] at h
  split at h
  · next left right hsplit =>
    have hcount := congrArg (List.count ':') (Text.eq_append_of_splitFirst? hsplit)
    simp [List.count_append, List.count_eq_zero_of_not_mem ha,
      List.count_eq_zero_of_not_mem hb] at hcount
    omega
  · obtain ⟨hpieces, hlen⟩ := Option.filter_eq_some_iff.1 h
    have height : pieces.length = 8 := of_decide_eq_true hlen
    have hmany := (char_of_ipv6Pieces? hpieces).2
    rw [Text.fields_append ha, Text.fields_of_not_mem hb, height] at hmany
    exact absurd hmany (by simp)

end ServiceDiscovery.Url
