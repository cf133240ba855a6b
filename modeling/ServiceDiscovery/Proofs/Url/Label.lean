import ServiceDiscovery.Proofs.Url.Reading

/-!
# Reading a URL whose host is one label

A web address of one label and nothing but a slash behind it. The label is read in lower case, as
every name is under a special scheme, so different spellings of a label are read as the same host.
-/

namespace ServiceDiscovery.Url

/-- A text in lower case has the characters of the text in lower case. -/
theorem toLower_eq_iff {n m : String} :
    n.toLower = m ↔ n.toList.map Char.toLower = m.toList := by
  show n.map Char.toLower = m ↔ _
  rw [← String.toList_inj, String.toList_map]

/-- A label of letters, digits and hyphens that starts with a letter and does not look encoded. -/
structure IsLabel (s : List Char) : Prop where
  char : ∀ c ∈ s, c.isAlphanum = true ∨ c = '-'
  first : ∃ c rest, s = c :: rest ∧ c.isAlpha = true
  plain : ¬ ['x', 'n', '-', '-'] <+: s.map Char.toLower

namespace IsLabel

variable {s : List Char}

/-- A label is a name. -/
theorem isHostName (h : IsLabel s) : IsHostName s := by
  refine ⟨?_, fun c hc => ?_⟩
  · obtain ⟨c, rest, rfl, -⟩ := h.first
    exact List.cons_ne_nil c rest
  · rcases h.char c hc with hc | rfl
    · simp [isNameChar, hc]
    · rfl

/-- No label holds a mark that ends a host or parts one. -/
theorem not_mem (h : IsLabel s) : '.' ∉ s ∧ ':' ∉ s ∧ '/' ∉ s := by
  refine ⟨fun hm => ?_, fun hm => ?_, fun hm => ?_⟩ <;>
    · rcases h.char _ hm with hc | hc
      · exact absurd hc (by decide)
      · exact absurd hc (by decide)

private theorem toLower_char {c : Char} (hc : c.isAlphanum = true ∨ c = '-') :
    (c.toLower.isAlphanum = true ∨ c.toLower = '-') ∧
      (c.isAlpha = true → c.toLower.isAlpha = true) := by
  have hlt : c.toNat < 128 := by
    rcases hc with hc | rfl
    · exact toNat_lt_of_isAlphanum hc
    · decide
  exact of_ascii (p := fun c => c.isAlphanum = true ∨ c = '-' →
    (c.toLower.isAlphanum = true ∨ c.toLower = '-') ∧
      (c.isAlpha = true → c.toLower.isAlpha = true)) (by decide) hlt hc

/-- In lower case a label stays as it is. -/
theorem map_toLower_toLower (h : IsLabel s) :
    (s.map Char.toLower).map Char.toLower = s.map Char.toLower := by
  rw [List.map_map]
  exact List.map_congr_left fun c hc => (toLower_of_isNameChar (h.isHostName.char c hc)).2

/-- A label in lower case is a label. -/
theorem toLower (h : IsLabel s) : IsLabel (s.map Char.toLower) := by
  refine ⟨fun c hc => ?_, ?_, ?_⟩
  · obtain ⟨x, hx, rfl⟩ := List.mem_map.1 hc
    exact (toLower_char (h.char x hx)).1
  · obtain ⟨c, rest, rfl, hc⟩ := h.first
    exact ⟨c.toLower, rest.map Char.toLower, rfl,
      (toLower_char (h.char c List.mem_cons_self)).2 hc⟩
  · rw [h.map_toLower_toLower]
    exact h.plain

/-- A letter is no digit, decimal or octal, and starts no number. -/
theorem endsInNumber_eq_false (h : IsLabel s) : endsInNumber s = false := by
  have hparts : ipv4Parts s = [s] := by
    rw [ipv4Parts, Text.fields_of_not_mem h.not_mem.1]
    simp
  obtain ⟨c, rest, rfl, hc⟩ := h.first
  have hdigit : Decimal.digit? c = none := by
    refine of_ascii (p := fun c => c.isAlpha = true → Decimal.digit? c = none) (by decide) ?_ hc
    exact toNat_lt_of_isAlphanum (by simp [Char.isAlphanum, hc])
  have hzero : c ≠ '0' := by
    rintro rfl
    exact absurd hc (by decide)
  have hdigits : Decimal.digits? (c :: rest) = none := by
    rw [Decimal.digits?, Decimal.digitsFrom?, hdigit, Option.bind_none]
    exact List.cons_ne_nil c rest
  have hnumber : ipv4Number? (c :: rest) = none := by
    rw [ipv4Number?, hdigits]
    · exact List.cons_ne_nil c rest
    · exact fun _ he => hzero (List.cons.inj he).1
    · exact fun _ he => hzero (List.cons.inj he).1
    · exact fun _ _ he => hzero (List.cons.inj he).1
  rw [endsInNumber, hparts]
  simp [hdigit, hnumber]

private theorem isEncoded_eq_false (h : IsLabel s) :
    ∀ label ∈ Text.fields '.' s, isEncoded label = false := by
  rw [Text.fields_of_not_mem h.not_mem.1, List.forall_mem_singleton]
  refine Bool.eq_false_iff.2 fun hencoded => ?_
  obtain ⟨rest, hrest⟩ := Option.isSome_iff_exists.1 hencoded
  exact h.plain ⟨rest, (Text.dropFront?_eq_some_iff.1 hrest).symm⟩

/-- A label is read as a host in lower case. -/
theorem parse_host [Idna] (h : IsLabel s) :
    Host.parse s = .ok (.name (String.ofList (s.map Char.toLower))) := by
  rw [parse_of_isHostName h.isHostName h.isEncoded_eq_false, Host.ofDomain,
    h.toLower.endsInNumber_eq_false]
  simp [h.isHostName.ne_nil]

private theorem hostText_slash (h : IsLabel s) (rest : List Char) :
    hostText true false (s ++ '/' :: rest) = s := by
  refine hostText_append (fun c hc => ?_) (.inr rfl) rest
  have hchar := h.isHostName.hostChar c hc
  refine ⟨?_, (ne_of_isHostChar hchar).2.1, (not_endsAuthority_of_isHostChar hchar true).1⟩
  rintro rfl
  exact h.not_mem.2.1 hc

/-- A label without a user and a port is read as an authority of its host only. -/
theorem readAuthority_append [Idna] (h : IsLabel s) (scheme : String) (rest : List Char) :
    readAuthority scheme .special (s ++ '/' :: rest) =
      .ok (⟨"", none, some (.name (String.ofList (s.map Char.toLower))), none⟩, '/' :: rest) := by
  have hinfo : readUserInfo true (s ++ '/' :: rest) = .ok (.nobody, s ++ '/' :: rest) :=
    readUserInfo_of_isHostChar h.isHostName.hostChar (.inr ⟨rest, .inl rfl⟩)
  have hread : readHost .special s = .ok (some (.name (String.ofList (s.map Char.toLower)))) := by
    simp [readHost, SchemeKind.isSpecial, h.isHostName.ne_nil, h.parse_host, Except.map]
  have hspecial : SchemeKind.special.isSpecial = true := rfl
  simp only [readAuthority, hspecial, hinfo, bind, Except.bind, h.hostText_slash, hread,
    List.drop_left]
  simp [UserInfo.nobody, pure, Except.pure]

/-- A web address of a label and a slash has the label in lower case as its host. -/
theorem parse_web [Idna] {n : String} (h : IsLabel n.toList) :
    parse ("http://" ++ n ++ "/") =
      .ok ⟨"http", some ⟨"", none, some (.name n.toLower), none⟩, .segments [""], none, none⟩ := by
  have hlower : n.toLower = String.ofList (n.toList.map Char.toLower) :=
    toLower_eq_iff.2 String.toList_ofList.symm
  obtain ⟨c, rest, hn, -⟩ := h.first
  have htext : ("http://" ++ n ++ "/").toList = "http://".toList ++ c :: (rest ++ ['/']) := by
    simp [hn]
  have hchar : ∀ d ∈ c :: rest, isHostChar d = true := hn ▸ h.isHostName.hostChar
  have hblank : ∀ d ∈ c :: (rest ++ ['/']), 0x20 < d.toNat := by
    intro d hd
    rw [← List.cons_append, List.mem_append, List.mem_singleton] at hd
    rcases hd with hd | rfl
    · exact of_isHostChar (p := fun c => 0x20 < c.toNat) (hchar d hd) (by decide)
    · decide
  have hread := h.readAuthority_append "http" []
  rw [hn, List.cons_append] at hread
  rw [parse_http htext hblank (not_endsAuthority_of_isHostChar (hchar c List.mem_cons_self) true).2,
    parseHierarchical, hread, hlower, hn]
  rfl

/-- A label that is the host of a URL has no brackets to be taken off. -/
theorem bareHost?_eq {u : Url} {n : String} (h : IsLabel n.toList)
    (hu : u.host? = some (.name n)) : u.bareHost? = some n := by
  have hkeep (l : List Char) (hl : ∀ c ∈ l, c ∈ n.toList) :
      l.dropWhile (fun c => c == '[' || c == ']') = l := by
    cases l with
    | nil => rfl
    | cons c l =>
      have hc : (c == '[' || c == ']') = false :=
        of_isHostChar (p := fun c => (c == '[' || c == ']') = false)
          (h.isHostName.hostChar c (hl c List.mem_cons_self)) (by decide)
      rw [List.dropWhile_cons, hc]
      rfl
  have hback := hkeep n.toList.reverse fun c hc => List.mem_reverse.1 hc
  rw [bareHost?, hu]
  simp only [Option.map_some, Host.toText, hkeep n.toList fun _ hc => hc, hback,
    List.reverse_reverse, String.ofList_toList]

end IsLabel

end ServiceDiscovery.Url
