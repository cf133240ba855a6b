import Mathlib.Data.List.TakeWhile
import ServiceDiscovery.Proofs.Url.Reading

/-!
# Texts that are hosts

Every text that is read as a host of a special scheme, an address in brackets or a domain name that
may hold escapes, is read as this host in a URL, too, if a port follows it. It holds nothing that
ends a host or an authority: an escape stands for no such character, and in brackets there are only
the characters of addresses.
-/

namespace ServiceDiscovery.Url

variable {s : List Char} {host : Host}

/-- A character of an authority without a user: no blank, no at sign and no end. -/
def IsAuthorityChar (c : Char) : Prop :=
  0x20 < c.toNat ∧ c ≠ '@' ∧ endsAuthority true c = false

instance (c : Char) : Decidable (IsAuthorityChar c) := inferInstanceAs (Decidable (_ ∧ _))

/-- The characters of names and addresses are characters of authorities. -/
theorem isAuthorityChar_of_isHostChar {c : Char} (h : isHostChar c = true) : IsAuthorityChar c :=
  of_isHostChar h (by decide)

/-- A text that stands for itself as the host of an authority. -/
structure IsHostText (s : List Char) : Prop where
  ne_nil : s ≠ []
  char : ∀ c ∈ s, IsAuthorityChar c
  text : ∀ rest, hostText true false (s ++ ':' :: rest) = s
  /-- A colon stands in brackets only. -/
  colon : ':' ∉ s ∨ s.getLast? = some ']'

/-! ### Domain names -/

private theorem of_isForbiddenInDomain {c : Char} (h : isForbiddenInDomain c = true) :
    c.toNat < 128 ∧ Hex.digit? c = none := by
  have hall : (forbiddenHost.all fun c => decide (c.toNat < 128)) = true := by decide
  have hlt : c.toNat < 128 := by
    simp only [isForbiddenInDomain, List.contains_iff_mem, Bool.or_eq_true, decide_eq_true_eq,
      beq_iff_eq] at h
    rcases h with ((h | h) | rfl) | h
    · omega
    · omega
    · decide
    · exact of_decide_eq_true (List.all_eq_true.1 hall c h)
  exact ⟨hlt, of_ascii (p := fun c => isForbiddenInDomain c = true → Hex.digit? c = none)
    (by decide) hlt h⟩

/-- A text that has a normal form holds no forbidden character but percent signs and the signs that
can be composed. -/
theorem not_forbidden_of_domain? [Idna] {d : List Char} (h : domain? s = some d) {c : Char}
    (hc : c ∈ s) (hne : c ≠ '%') (hs : c ≠ '<' ∧ c ≠ '>') : isForbiddenInDomain c = false := by
  refine Bool.eq_false_iff.2 fun hforbidden => ?_
  obtain ⟨hlt, hdigit⟩ := of_isForbiddenInDomain hforbidden
  obtain ⟨hbind, -⟩ := Option.filter_eq_some_iff.1 h
  obtain ⟨decoded, hdecoded, -⟩ := Option.bind_eq_some_iff.1 hbind
  have hbyte : UInt8.ofNat c.toNat ∈ Percent.decode s := by
    refine Percent.subset_decode hc hne hdigit ?_
    rw [Utf8.encodeChar_ascii hlt]
    exact List.mem_cons_self
  have hfree := not_forbidden_of_mem_decode h hdecoded (Utf8.mem_of_decode? hdecoded hlt hbyte) hs
  rw [hforbidden] at hfree
  cases hfree

private theorem of_not_forbidden {c : Char}
    (h : c ≠ '%' → c ≠ '<' ∧ c ≠ '>' → isForbiddenInDomain c = false) :
    IsAuthorityChar c ∧ c ≠ ':' ∧ c ≠ '[' := by
  by_cases hescape : c = '%'
  · subst hescape
    decide
  by_cases hsign : c = '<' ∨ c = '>'
  · rcases hsign with rfl | rfl <;> decide
  replace h := h hescape (not_or.1 hsign)
  have hne : ∀ d, isForbiddenInDomain d = true → c ≠ d := by
    rintro d hd rfl
    rw [h] at hd
    cases hd
  have hblank : 0x20 < c.toNat := by
    refine Nat.lt_of_not_le fun hle => ?_
    have hforbidden := of_ascii (p := fun c => c.toNat ≤ 0x20 → isForbiddenInDomain c = true)
      (by decide) (by omega) hle
    rw [h] at hforbidden
    cases hforbidden
  refine ⟨⟨hblank, hne '@' (by decide), ?_⟩, hne ':' (by decide), hne '[' (by decide)⟩
  simp [endsAuthority, hne '/' (by decide), hne '?' (by decide), hne '#' (by decide),
    hne '\\' (by decide)]

/-- A text that has a normal form stands for itself. -/
theorem isHostText_of_domain? [Idna] {d : List Char} (hd : domain? s = some d) (hne : s ≠ []) :
    IsHostText s := by
  have hchar : ∀ c ∈ s, _ := fun c hc => of_not_forbidden (not_forbidden_of_domain? hd hc)
  refine ⟨hne, fun c hc => (hchar c hc).1, fun rest => ?_, .inl fun hm => (hchar ':' hm).2.1 rfl⟩
  exact hostText_append (fun c hc => ⟨(hchar c hc).2.1, (hchar c hc).2.2, (hchar c hc).1.2.2⟩)
    (.inl rfl) rest

/-! ### Addresses in brackets -/

private theorem hostText_brackets (h : ∀ c ∈ s, isHostChar c = true) (rest : List Char) :
    hostText true true (s ++ ']' :: ':' :: rest) = s ++ [']'] := by
  induction s with
  | nil => simp [hostText, endsAuthority]
  | cons c s ih =>
    obtain ⟨hc, hs⟩ := List.forall_mem_cons.1 h
    have hends := (not_endsAuthority_of_isHostChar hc true).1
    have hclose : c ≠ ']' := of_isHostChar (p := fun c => c ≠ ']') hc (by decide)
    simp [hostText, hends, hclose, ih hs]

/-- An address in brackets stands for itself. -/
theorem isHostText_of_bracketed (h : bracketed? s = .ok host) : IsHostText ('[' :: s) := by
  rw [bracketed?] at h
  split at h
  · next pieces hpieces =>
    obtain ⟨inner, hinner, hipv6⟩ := Option.bind_eq_some_iff.1 hpieces
    cases Text.dropBack?_eq_some_iff.1 hinner
    have hchar := (char_of_ipv6? hipv6).1
    have hlast : ('[' :: inner ++ [']']).getLast? = some ']' := List.getLast?_concat
    refine ⟨List.cons_ne_nil _ _, fun c hc => ?_, fun rest => ?_, .inr hlast⟩
    · rw [List.mem_cons, List.mem_append, List.mem_singleton] at hc
      rcases hc with rfl | hc | rfl
      · decide
      · exact isAuthorityChar_of_isHostChar (hchar c hc)
      · decide
    · have htext := hostText_brackets hchar rest
      simp [hostText, endsAuthority, htext]
  · cases h

private theorem parse_nil [Idna] : Host.parse [] = .error .emptyHost := by
  have hmap : Idna.toAscii [] = some [] :=
    Idna.toAscii_plain [] nofun (by simp [Text.fields, isEncoded, Text.dropFront?])
  rw [parse_of_toAscii (by simp) hmap (by simp)]
  rfl

/-- A text that is read as a host stands for itself. -/
theorem isHostText_of_parse [Idna] (h : Host.parse s = .ok host) : IsHostText s := by
  cases s with
  | nil =>
    rw [parse_nil] at h
    cases h
  | cons c s =>
    by_cases hc : c = '['
    · subst hc
      exact isHostText_of_bracketed h
    · rw [Host.parse] at h
      · split at h
        · next d hd => exact isHostText_of_domain? hd (List.cons_ne_nil c s)
        · cases h
      · exact fun _ he => hc (List.cons.inj he).1

/-! ### Before a port -/

private theorem char_of_hostPort_nil (h : IsHostText s) (port : UInt16) :
    ∀ c ∈ hostPort s port [], IsAuthorityChar c := by
  intro c hc
  rw [hostPort, List.append_nil, List.mem_append, List.mem_cons] at hc
  rcases hc with hc | rfl | hc
  · exact h.char c hc
  · decide
  · exact isAuthorityChar_of_isHostChar (isHostChar_of_isDigit (Decimal.isDigit_of_mem_text hc))

private theorem readUserInfo_eq_nobody (h : ∀ c ∈ s, IsAuthorityChar c) :
    readUserInfo true s = .ok (.nobody, s) := by
  have hauthority : s.takeWhile (fun c => !endsAuthority true c) = s := by
    refine List.takeWhile_eq_self_iff.2 fun c hc => ?_
    rw [(h c hc).2.2, Bool.not_false]
  have hat : '@' ∉ s := fun hm => (h '@' hm).2.1 rfl
  rw [readUserInfo, hauthority, Text.splitLast?_eq_none hat]

private theorem readAuthority_hostPort_nil [Idna] (h : IsHostText s)
    (hread : Host.parse s = .ok host) (port : UInt16) :
    readAuthority "http" .special (hostPort s port []) =
      .ok (⟨"", none, some host, (some port).filter fun p => defaultPort? "http" ≠ some p⟩,
        []) := by
  have hspecial : SchemeKind.special.isSpecial = true := rfl
  have hhost : readHost .special s = .ok (some host) := by
    simp [readHost, hspecial, h.ne_nil, hread, Except.map]
  have htext : hostText true false (hostPort s port []) = s := h.text _
  have hdrop : (hostPort s port []).drop s.length =
      ':' :: ((Decimal.text port.toNat).toList ++ []) := by
    simp [hostPort]
  simp only [readAuthority, hspecial, readUserInfo_eq_nobody (char_of_hostPort_nil h port), bind,
    Except.bind, htext, hhost, hdrop, readPort_text port.toNat_lt (.inl rfl)]
  simp [UserInfo.nobody, pure, Except.pure]

/-- A text that is read as a host is read as this host in a URL, with the port behind it. -/
theorem exists_parse_port [Idna] {s : String} (h : Host.parse s.toList = .ok host) (port : UInt16) :
    ∃ u, parse ("http://" ++ (s ++ ":" ++ Decimal.text port.toNat)) = .ok u ∧
      u.host? = some host ∧ u.effectivePort? = some port := by
  have htext := isHostText_of_parse h
  obtain ⟨c, rest, hs⟩ := List.exists_cons_of_ne_nil htext.ne_nil
  have hlist : ("http://" ++ (s ++ ":" ++ Decimal.text port.toNat)).toList =
      "http://".toList ++ hostPort (c :: rest) port [] := by
    simp [hostPort, hs]
  rw [hs] at h htext
  have hchar := char_of_hostPort_nil htext port
  have hslash : c ≠ '/' ∧ c ≠ '\\' := by
    have hends := (hchar c List.mem_cons_self).2.2
    constructor <;>
      · rintro rfl
        exact absurd hends (by decide)
  have hparse : parse _ = parseHierarchical "http" .special (hostPort (c :: rest) port []) :=
    parse_http hlist (fun d hd => (hchar d hd).1) hslash
  rw [parseHierarchical, readAuthority_hostPort_nil htext h] at hparse
  exact ⟨_, hparse, rfl, filter_or_defaultPort? "http" port⟩

end ServiceDiscovery.Url
