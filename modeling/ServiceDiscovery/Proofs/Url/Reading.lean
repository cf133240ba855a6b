import Mathlib.Data.List.TakeDrop
import ServiceDiscovery.Proofs.Url.Host
import ServiceDiscovery.Url.Parser

/-!
# Reading back a URL of a host and a port

A text of a scheme, a host, a port and what may follow them is read as a URL with this host and this
port. What the host is depends on how the scheme reads hosts; a colon in it ends it too early, and
local files have no port.
-/

namespace ServiceDiscovery.Url

/-- What may follow an authority: nothing, a path or a query. -/
def IsTail (s : List Char) : Prop := s = [] ∨ ∃ rest, s = '/' :: rest ∨ s = '?' :: rest

/-- The text of a host and a port, and what follows them. -/
def hostPort (host : List Char) (port : UInt16) (tail : List Char) : List Char :=
  host ++ ':' :: ((Decimal.text port.toNat).toList ++ tail)

/-- A host and a port stand before what follows them. -/
theorem hostPort_eq_append (host : List Char) (port : UInt16) (tail : List Char) :
    hostPort host port tail = (host ++ ':' :: (Decimal.text port.toNat).toList) ++ tail := by
  simp [hostPort]

/-- A text is a scheme that was read somewhere, a host with a port, and what may follow them. -/
structure Spells (text scheme : String) (host : List Char) (port : UInt16) (tail : List Char) :
    Prop where
  read : ∃ s rest, scheme? s = some (scheme, rest)
  ne_nil : host ≠ []
  char : ∀ c ∈ host, isHostChar c = true
  follows : IsTail tail
  text : text.toList = scheme.toList ++ ':' :: '/' :: '/' :: hostPort host port tail

/-! ### Authorities -/

/-- No character of a host ends an authority. -/
theorem not_endsAuthority_of_isHostChar {c : Char} (h : isHostChar c = true) (special : Bool) :
    endsAuthority special c = false ∧ c ≠ '/' ∧ c ≠ '\\' :=
  of_isHostChar (p := fun c => endsAuthority special c = false ∧ c ≠ '/' ∧ c ≠ '\\') h
    (by cases special <;> decide)

private theorem takeWhile_authority {special : Bool} {front tail : List Char}
    (h : ∀ c ∈ front, isHostChar c = true) (ht : IsTail tail) :
    (front ++ tail).takeWhile (fun c => !endsAuthority special c) = front := by
  rw [List.takeWhile_append_of_pos fun c hc => by
    rw [(not_endsAuthority_of_isHostChar (h c hc) special).1, Bool.not_false]]
  rcases ht with rfl | ⟨rest, rfl | rfl⟩
  · simp
  · simp [endsAuthority]
  · simp [endsAuthority]

/-- Without an at sign there is no user. -/
theorem readUserInfo_of_isHostChar {special : Bool} {front tail : List Char}
    (h : ∀ c ∈ front, isHostChar c = true) (ht : IsTail tail) :
    readUserInfo special (front ++ tail) = .ok (.nobody, front ++ tail) := by
  have hat : '@' ∉ front := fun hm => (ne_of_isHostChar (h '@' hm)).2.2 rfl
  rw [readUserInfo, takeWhile_authority h ht, Text.splitLast?_eq_none hat]

/-- The text of a host ends at the first colon, or where the authority ends. -/
theorem hostText_append {special : Bool} {s : List Char}
    (h : ∀ c ∈ s, c ≠ ':' ∧ c ≠ '[' ∧ endsAuthority special c = false) {d : Char}
    (hd : d = ':' ∨ endsAuthority special d = true) (rest : List Char) :
    hostText special false (s ++ d :: rest) = s := by
  induction s with
  | nil => simp [hostText, hd]
  | cons c s ih =>
    obtain ⟨⟨hcolon, hopen, hends⟩, hs⟩ := List.forall_mem_cons.1 h
    simp [hostText, hcolon, hopen, hends, ih hs]

/-- The text of a host ends at the first colon. -/
theorem hostText_of_isHostChar {special : Bool} {s : List Char}
    (h : ∀ c ∈ s, isHostChar c = true) (hc : ':' ∉ s) (rest : List Char) :
    hostText special false (s ++ ':' :: rest) = s := by
  refine hostText_append (fun c hm => ⟨?_, (ne_of_isHostChar (h c hm)).2.1, ?_⟩) (.inl rfl) rest
  · rintro rfl
    exact hc hm
  · exact (not_endsAuthority_of_isHostChar (h c hm) special).1

/-- A port is read back, and what follows it is left. -/
theorem readPort_text {n : Nat} (hn : n < 65536) {tail : List Char} (ht : IsTail tail) :
    readPort ((Decimal.text n).toList ++ tail) = .ok (some n, tail) := by
  have hdigits : ((Decimal.text n).toList ++ tail).takeWhile
      (fun c => (Decimal.digit? c).isSome) = (Decimal.text n).toList := by
    rw [List.takeWhile_append_of_pos fun c hc => by
      rw [Decimal.digit?_of_isDigit (Decimal.isDigit_of_mem_text hc)]
      rfl]
    rcases ht with rfl | ⟨rest, rfl | rfl⟩
    · simp
    · simp [Decimal.digit?]
    · simp [Decimal.digit?]
  have hfinish : readPort.finish (Decimal.text n).toList tail = .ok (some n, tail) := by
    rw [readPort.finish, Decimal.digits?_text]
    simp [hn]
  simp only [readPort, hdigits, List.drop_left]
  rcases ht with rfl | ⟨rest, rfl | rfl⟩
  · exact hfinish
  · exact hfinish
  · exact hfinish

private theorem drop_digits {front : List Char} (h : ∀ c ∈ front, isHostChar c = true)
    (rest : List Char) :
    ∃ c after, isHostChar c = true ∧ (front ++ ':' :: rest).drop ((front ++ ':' :: rest).takeWhile
      fun c => (Decimal.digit? c).isSome).length = c :: after := by
  induction front with
  | nil => exact ⟨':', rest, by decide, by simp [Decimal.digit?]⟩
  | cons d front ih =>
    cases hd : (Decimal.digit? d).isSome with
    | false => exact ⟨d, front ++ ':' :: rest, h d List.mem_cons_self, by simp [hd]⟩
    | true =>
      obtain ⟨c, after, hc, hdrop⟩ := ih fun c hc => h c (List.mem_cons_of_mem d hc)
      exact ⟨c, after, hc, by simpa [hd] using hdrop⟩

private theorem readPort_of_colon {front : List Char} (h : ∀ c ∈ front, isHostChar c = true)
    (rest : List Char) : readPort (front ++ ':' :: rest) = .error .port := by
  obtain ⟨c, after, hc, hdrop⟩ := drop_digits h rest
  simp [readPort, hdrop, (not_endsAuthority_of_isHostChar hc true).1]

private theorem char_of_hostPort {host : List Char} (h : ∀ c ∈ host, isHostChar c = true)
    (port : UInt16) :
    ∀ c ∈ host ++ ':' :: (Decimal.text port.toNat).toList, isHostChar c = true := by
  intro c hc
  rw [List.mem_append, List.mem_cons] at hc
  rcases hc with hc | rfl | hc
  · exact h c hc
  · decide
  · exact isHostChar_of_isDigit (Decimal.isDigit_of_mem_text hc)

private theorem readUserInfo_hostPort {special : Bool} {host : List Char}
    (h : ∀ c ∈ host, isHostChar c = true) (port : UInt16) {tail : List Char} (ht : IsTail tail) :
    readUserInfo special (hostPort host port tail) = .ok (.nobody, hostPort host port tail) := by
  rw [hostPort_eq_append]
  exact readUserInfo_of_isHostChar (char_of_hostPort h port) ht

/-- A host that can be read is read with its port, which is left out if the scheme implies it. -/
theorem readAuthority_hostPort [Idna] {scheme : String} {kind : SchemeKind} {host : List Char}
    {port : UInt16} {tail : List Char} {h : Host} (hchar : ∀ c ∈ host, isHostChar c = true)
    (hcolon : ':' ∉ host) (ht : IsTail tail) (hread : readHost kind host = .ok (some h)) :
    readAuthority scheme kind (hostPort host port tail) =
      .ok (⟨"", none, some h, (some port).filter fun p => defaultPort? scheme ≠ some p⟩, tail) := by
  have hport : port.toNat < 65536 := port.toNat_lt
  have htext : hostText kind.isSpecial false (hostPort host port tail) = host :=
    hostText_of_isHostChar hchar hcolon _
  have hdrop : (hostPort host port tail).drop host.length =
      ':' :: ((Decimal.text port.toNat).toList ++ tail) := by
    simp [hostPort]
  simp only [readAuthority, readUserInfo_hostPort hchar port ht, bind, Except.bind, htext, hread,
    hdrop, readPort_text hport ht]
  simp [UserInfo.nobody, pure, Except.pure]

/-- A host that cannot be read is no authority. -/
theorem readAuthority_of_error [Idna] {scheme : String} {kind : SchemeKind} {host : List Char}
    {port : UInt16} {tail : List Char} {f : Fault} (hchar : ∀ c ∈ host, isHostChar c = true)
    (hcolon : ':' ∉ host) (ht : IsTail tail) (hread : readHost kind host = .error f) :
    readAuthority scheme kind (hostPort host port tail) = .error f := by
  have htext : hostText kind.isSpecial false (hostPort host port tail) = host :=
    hostText_of_isHostChar hchar hcolon _
  simp only [readAuthority, readUserInfo_hostPort hchar port ht, bind, Except.bind, htext, hread]

/-- A host with a colon ends there, and the rest of it is no port. -/
theorem readAuthority_of_mem_colon [Idna] {scheme : String} {kind : SchemeKind} {host : List Char}
    {port : UInt16} {tail : List Char} (hchar : ∀ c ∈ host, isHostChar c = true)
    (hcolon : ':' ∈ host) (ht : IsTail tail) :
    ∃ f, readAuthority scheme kind (hostPort host port tail) = .error f := by
  obtain ⟨a, b, rfl, ha⟩ := List.eq_append_cons_of_mem hcolon
  have hachar : ∀ c ∈ a, isHostChar c = true := fun c hc => hchar c (List.mem_append_left _ hc)
  have hbchar : ∀ c ∈ b, isHostChar c = true := fun c hc =>
    hchar c (List.mem_append_right _ (List.mem_cons_of_mem _ hc))
  have hs : hostPort (a ++ ':' :: b) port tail =
      a ++ ':' :: (b ++ ':' :: ((Decimal.text port.toNat).toList ++ tail)) := by
    simp [hostPort]
  have htext : hostText kind.isSpecial false (hostPort (a ++ ':' :: b) port tail) = a := by
    rw [hs]
    exact hostText_of_isHostChar hachar ha _
  have hdrop : (hostPort (a ++ ':' :: b) port tail).drop a.length =
      ':' :: (b ++ ':' :: ((Decimal.text port.toNat).toList ++ tail)) := by
    rw [hs]
    simp
  cases hread : readHost kind a with
  | error f =>
    refine ⟨f, ?_⟩
    simp only [readAuthority, readUserInfo_hostPort hchar port ht, bind, Except.bind, htext, hread]
  | ok host =>
    cases host with
    | none =>
      refine ⟨.emptyHost, ?_⟩
      simp only [readAuthority, readUserInfo_hostPort hchar port ht, bind, Except.bind, htext,
        hread, hdrop]
      rfl
    | some h =>
      refine ⟨.port, ?_⟩
      simp only [readAuthority, readUserInfo_hostPort hchar port ht, bind, Except.bind, htext,
        hread, hdrop, readPort_of_colon hbchar]
      rfl

/-! ### Schemes -/

private theorem toLower_of_isSchemeChar {c : Char} (h : isSchemeChar c = true) :
    isSchemeChar c.toLower = true ∧ c.toLower.toLower = c.toLower ∧
      (c.isAlpha = true → c.toLower.isAlpha = true) ∧ 0x20 < c.toLower.toNat := by
  have hlt : c.toNat < 128 := by
    simp only [isSchemeChar, Bool.or_eq_true, beq_iff_eq] at h
    rcases h with ((h | rfl) | rfl) | rfl
    · exact toNat_lt_of_isAlphanum h
    all_goals decide
  exact of_ascii (p := fun c => isSchemeChar c = true →
    isSchemeChar c.toLower = true ∧ c.toLower.toLower = c.toLower ∧
      (c.isAlpha = true → c.toLower.isAlpha = true) ∧ 0x20 < c.toLower.toNat) (by decide) hlt h

/-- A scheme that was read is in lower case, and is read back before any other text. -/
theorem scheme?_append {s rest : List Char} {scheme : String}
    (h : scheme? s = some (scheme, rest)) :
    scheme.toList ≠ [] ∧ (∀ c ∈ scheme.toList, 0x20 < c.toNat) ∧
      ∀ t, scheme? (scheme.toList ++ ':' :: t) = some (scheme, t) := by
  rw [scheme?, List.span_eq_takeWhile_dropWhile] at h
  split at h
  · next first front after hspan =>
    split at h
    · next halpha =>
      cases h
      have htake : s.takeWhile isSchemeChar = first :: front := congrArg Prod.fst hspan
      have hchar : ∀ c ∈ first :: front, isSchemeChar c = true := by
        intro c hc
        rw [← htake] at hc
        exact List.all_eq_true.1 List.all_takeWhile c hc
      have hlower : ∀ c ∈ (first :: front).map Char.toLower,
          isSchemeChar c = true ∧ c.toLower = c ∧ 0x20 < c.toNat := by
        intro c hc
        obtain ⟨x, hx, rfl⟩ := List.mem_map.1 hc
        have hx' := toLower_of_isSchemeChar (hchar x hx)
        exact ⟨hx'.1, hx'.2.1, hx'.2.2.2⟩
      have hfirst := (toLower_of_isSchemeChar (hchar first List.mem_cons_self)).2.2.1 halpha
      have hsame : ((first :: front).map Char.toLower).map Char.toLower =
          (first :: front).map Char.toLower := by
        refine (List.map_congr_left fun c hc => ?_).trans (List.map_id _)
        exact (hlower c hc).2.1
      rw [String.toList_ofList]
      refine ⟨by simp, fun c hc => (hlower c hc).2.2, fun t => ?_⟩
      have htakeWhile : ((first :: front).map Char.toLower ++ ':' :: t).takeWhile isSchemeChar =
          (first :: front).map Char.toLower := by
        rw [List.takeWhile_append_of_pos fun c hc => (hlower c hc).1]
        simp [isSchemeChar]
      have hdropWhile : ((first :: front).map Char.toLower ++ ':' :: t).dropWhile isSchemeChar =
          ':' :: t := by
        rw [List.dropWhile_append_of_pos fun c hc => (hlower c hc).1]
        simp [isSchemeChar]
      rw [scheme?, List.span_eq_takeWhile_dropWhile, htakeWhile, hdropWhile]
      simp only [List.map_cons] at hsame ⊢
      rw [if_pos hfirst, hsame]
    · cases h
  · cases h

/-! ### The text that counts -/

private theorem trimBack_append {p : Char → Bool} {front : List Char} (hne : front ≠ [])
    (h : ∀ c ∈ front, p c = false) (tail : List Char) :
    Text.trimBack p (front ++ tail) = front ++ Text.trimBack p tail := by
  have hfront : front.reverse.dropWhile p = front.reverse := by
    cases hr : front.reverse with
    | nil => exact absurd (List.reverse_eq_nil_iff.1 hr) hne
    | cons c r =>
      have hc : p c = false := h c (List.mem_reverse.1 (hr ▸ List.mem_cons_self))
      rw [List.dropWhile_cons_of_neg (by simp [hc])]
  rw [Text.trimBack, Text.trimBack, List.reverse_append, List.dropWhile_append, hfront]
  split
  · next hempty =>
    rw [List.isEmpty_iff.1 hempty]
    simp
  · simp

private theorem dropTabs_eq {s : List Char} (h : ∀ c ∈ s, 0x20 < c.toNat) : dropTabs s = s := by
  refine dropTabs_eq_self_iff.2 fun c hc => ?_
  have hlt := h c hc
  refine ⟨?_, ?_, ?_⟩ <;>
    · rintro rfl
      exact absurd hlt (by decide)

private theorem dropTabs_append {front : List Char} (h : ∀ c ∈ front, 0x20 < c.toNat)
    (tail : List Char) : dropTabs (front ++ tail) = front ++ dropTabs tail := by
  rw [dropTabs, List.filter_append]
  exact congrArg (· ++ dropTabs tail) (dropTabs_eq h)

/-- The part of a tail that counts. -/
def significantTail (tail : List Char) : List Char :=
  dropTabs (Text.trimBack (fun c => c.toNat ≤ 0x20) tail)

/-- What stands before a tail counts in full. -/
theorem significant_append {front : List Char} (hne : front ≠ [])
    (h : ∀ c ∈ front, 0x20 < c.toNat) (tail : List Char) :
    significant (front ++ tail) = front ++ significantTail tail := by
  have hblank : ∀ c ∈ front, decide (c.toNat ≤ 0x20) = false := by
    intro c hc
    have hlt := h c hc
    simp
    omega
  have hfront : Text.trimFront (fun c => decide (c.toNat ≤ 0x20)) (front ++ tail) =
      front ++ tail := by
    cases front with
    | nil => exact absurd rfl hne
    | cons c s =>
      rw [Text.trimFront, List.cons_append, List.dropWhile_cons_of_neg]
      rw [hblank c List.mem_cons_self]
      exact Bool.false_ne_true
  rw [significant, Text.trim, hfront, trimBack_append hne hblank, dropTabs_append h]
  rfl

/-- A tail without blanks counts in full. -/
theorem significantTail_eq {tail : List Char} (h : ∀ c ∈ tail, 0x20 < c.toNat) :
    significantTail tail = tail := by
  cases tail with
  | nil => rfl
  | cons c tail =>
    have hblank : ∀ x ∈ c :: tail, decide (x.toNat ≤ 0x20) = false := fun x hx => by
      have hlt := h x hx
      simp
      omega
    have htrim : Text.trimBack (fun x => decide (x.toNat ≤ 0x20)) (c :: tail) = c :: tail := by
      simpa [Text.trimBack] using trimBack_append (List.cons_ne_nil c tail) hblank []
    rw [significantTail, htrim, dropTabs_eq h]

/-- A tail stays one when it is trimmed. -/
theorem IsTail.significant {tail : List Char} (h : IsTail tail) :
    IsTail (significantTail tail) := by
  have hcons {c : Char} (hc : 0x20 < c.toNat) (rest : List Char) :
      significantTail (c :: rest) = c :: significantTail rest := by
    have hmem : ∀ x ∈ [c], 0x20 < x.toNat := by simpa using hc
    have hblank : ∀ x ∈ [c], decide (x.toNat ≤ 0x20) = false := by
      simp
      omega
    rw [← List.singleton_append, significantTail, trimBack_append (by simp) hblank,
      dropTabs_append hmem]
    rfl
  rcases h with rfl | ⟨rest, rfl | rfl⟩
  · exact Or.inl rfl
  · exact Or.inr ⟨significantTail rest, Or.inl (hcons (by decide) rest)⟩
  · exact Or.inr ⟨significantTail rest, Or.inr (hcons (by decide) rest)⟩

/-- A text of a scheme, characters that count and a tail is read after its scheme. -/
theorem scheme?_significant_append {scheme : String}
    (h : ∃ s rest, scheme? s = some (scheme, rest)) {back : List Char}
    (hback : ∀ c ∈ back, 0x20 < c.toNat) (tail : List Char) :
    scheme? (significant (scheme.toList ++ ':' :: (back ++ tail))) =
      some (scheme, back ++ significantTail tail) := by
  obtain ⟨s, rest, hs⟩ := h
  obtain ⟨-, hscheme, happend⟩ := scheme?_append hs
  have hfront : ∀ c ∈ scheme.toList ++ ':' :: back, 0x20 < c.toNat := by
    intro c hc
    rw [List.mem_append, List.mem_cons] at hc
    rcases hc with hc | rfl | hc
    · exact hscheme c hc
    · decide
    · exact hback c hc
  rw [← List.cons_append, ← List.append_assoc, significant_append (by simp) hfront,
    List.append_assoc, List.cons_append, happend]

/-! ### URLs -/

/-- A web address is read after its slashes. -/
theorem parse_http [Idna] {text : String} {c : Char} {s : List Char}
    (htext : text.toList = "http://".toList ++ c :: s) (hblank : ∀ d ∈ c :: s, 0x20 < d.toNat)
    (hc : c ≠ '/' ∧ c ≠ '\\') : parse text = parseHierarchical "http" .special (c :: s) := by
  have hback : ∀ d ∈ '/' :: '/' :: c :: s, 0x20 < d.toNat := by
    simpa using hblank
  have hlist : text.toList = "http".toList ++ ':' :: ('/' :: '/' :: c :: s ++ []) := by
    rw [htext, List.append_nil]
    rfl
  have hread : scheme? "http:".toList = some ("http", []) := rfl
  have hkind : SchemeKind.ofScheme "http" = .special := rfl
  have hslashes : ('/' :: '/' :: c :: s).dropWhile (fun c => c == '/' || c == '\\') = c :: s := by
    simp [hc.1, hc.2]
  rw [parse, hlist, scheme?_significant_append ⟨_, _, hread⟩ hback,
    significantTail_eq (List.forall_mem_nil _), List.append_nil]
  simp only [hkind, hslashes]

/-- A port that is left out because the scheme implies it counts nevertheless. -/
theorem filter_or_defaultPort? (scheme : String) (port : UInt16) :
    ((some port).filter fun p => defaultPort? scheme ≠ some p).or (defaultPort? scheme) =
      some port := by
  by_cases hd : defaultPort? scheme = some port
  · simp [hd, Option.filter]
  · simp [hd]

namespace Spells

variable {host tail : List Char} {scheme text : String} {port : UInt16}

/-- A text of a scheme, a host and a port is read after its scheme. -/
theorem scheme?_significant (h : Spells text scheme host port tail) :
    scheme? (significant text.toList) =
      some (scheme, '/' :: '/' :: hostPort host port (significantTail tail)) := by
  have hfront : text.toList = scheme.toList ++
      ':' :: ('/' :: '/' :: (host ++ ':' :: (Decimal.text port.toNat).toList) ++ tail) := by
    simp [h.text, hostPort]
  have hblank : ∀ c ∈ '/' :: '/' :: (host ++ ':' :: (Decimal.text port.toNat).toList),
      0x20 < c.toNat := by
    intro c hc
    rw [List.mem_cons, List.mem_cons] at hc
    rcases hc with rfl | rfl | hc
    · decide
    · decide
    · exact of_isHostChar (p := fun c => 0x20 < c.toNat) (char_of_hostPort h.char port c hc)
        (by decide)
  rw [hfront, scheme?_significant_append h.read hblank]
  simp [hostPort]

/-- Under any scheme but that of local files, a text with a host and a port is read after its
slashes. -/
theorem parse_eq [Idna] (h : Spells text scheme host port tail)
    (hkind : SchemeKind.ofScheme scheme ≠ .file) :
    parse text = parseHierarchical scheme (SchemeKind.ofScheme scheme)
      (hostPort host port (significantTail tail)) := by
  have hslashes : ('/' :: '/' :: hostPort host port (significantTail tail)).dropWhile
      (fun c => c == '/' || c == '\\') = hostPort host port (significantTail tail) := by
    obtain ⟨c, rest, rfl⟩ := List.exists_cons_of_ne_nil h.ne_nil
    have hc := (not_endsAuthority_of_isHostChar (h.char c List.mem_cons_self) true).2
    simp [hostPort, hc.1, hc.2]
  rw [parse, h.scheme?_significant]
  cases hk : SchemeKind.ofScheme scheme with
  | file => exact absurd hk hkind
  | special => simp only [hk, hslashes]
  | other =>
    simp only [hk]
    rfl

/-- If the host can be read, the URL is assembled of it and of what follows it. -/
theorem parse_eq_assemble [Idna] (h : Spells text scheme host port tail)
    (hkind : SchemeKind.ofScheme scheme ≠ .file) (hcolon : ':' ∉ host) {x : Host}
    (hread : readHost (SchemeKind.ofScheme scheme) host = .ok (some x)) :
    parse text = .ok (assemble scheme (SchemeKind.ofScheme scheme)
      (some ⟨"", none, some x, (some port).filter fun p => defaultPort? scheme ≠ some p⟩)
      (pathAfterAuthority (SchemeKind.ofScheme scheme) (cutPath (significantTail tail)).1)
      (cutPath (significantTail tail)).2) := by
  rw [h.parse_eq hkind, parseHierarchical,
    readAuthority_hostPort h.char hcolon h.follows.significant hread]
  rfl

/-- If the host can be read, the URL has this host and this port. -/
theorem exists_parse [Idna] (h : Spells text scheme host port tail)
    (hkind : SchemeKind.ofScheme scheme ≠ .file) (hcolon : ':' ∉ host) {x : Host}
    (hread : readHost (SchemeKind.ofScheme scheme) host = .ok (some x)) :
    ∃ u, parse text = .ok u ∧ u.host? = some x ∧ u.effectivePort? = some port := by
  exact ⟨_, h.parse_eq_assemble hkind hcolon hread, rfl, filter_or_defaultPort? scheme port⟩

/-- If the host cannot be read, the text is no URL. -/
theorem parse_of_error [Idna] (h : Spells text scheme host port tail)
    (hkind : SchemeKind.ofScheme scheme ≠ .file) (hcolon : ':' ∉ host) {f : Fault}
    (hread : readHost (SchemeKind.ofScheme scheme) host = .error f) : parse text = .error f := by
  rw [h.parse_eq hkind, parseHierarchical,
    readAuthority_of_error h.char hcolon h.follows.significant hread]
  rfl

/-- If the host holds a colon, the text is no URL. -/
theorem parse_of_mem_colon [Idna] (h : Spells text scheme host port tail)
    (hkind : SchemeKind.ofScheme scheme ≠ .file) (hcolon : ':' ∈ host) :
    ∃ f, parse text = .error f := by
  obtain ⟨f, hf⟩ : ∃ f, readAuthority scheme (SchemeKind.ofScheme scheme)
      (hostPort host port (significantTail tail)) = .error f :=
    readAuthority_of_mem_colon h.char hcolon h.follows.significant
  refine ⟨f, ?_⟩
  rw [h.parse_eq hkind, parseHierarchical, hf]
  rfl

/-- A local file has no port. -/
theorem parse_of_file [Idna] (h : Spells text scheme host port tail)
    (hkind : SchemeKind.ofScheme scheme = .file) : parse text = .error .domainName := by
  have hcut : (hostPort host port (significantTail tail)).takeWhile
      (fun c => !endsAuthority true c) = host ++ ':' :: (Decimal.text port.toNat).toList := by
    rw [hostPort_eq_append]
    exact takeWhile_authority (char_of_hostPort h.char port) h.follows.significant
  have hdrive : isDriveLetter (host ++ ':' :: (Decimal.text port.toNat).toList) = false := by
    have hdigits := Decimal.text_ne_nil port.toNat
    match host, (Decimal.text port.toNat).toList, h.ne_nil, hdigits with
    | [a], d :: ds, _, _ => rfl
    | a :: b :: rest, d :: ds, _, _ => cases rest <;> rfl
  have hhost : readFileHost (host ++ ':' :: (Decimal.text port.toNat).toList) =
      .error .domainName := by
    rw [readFileHost, if_neg (by simp), Url.parse_of_mem_colon (char_of_hostPort h.char port)
      (by simp)]
    rfl
  rw [parse, h.scheme?_significant]
  simp only [hkind, parseFile]
  rw [if_pos (by decide), hcut, hdrive, hhost]
  rfl

end Spells

/-! ### What was read of a URL -/

-- What a URL keeps of its text: the scheme, and segments for a path if it has a host.
private structure Keeps (scheme : String) (u : Url) : Prop where
  scheme : u.scheme = scheme
  path : u.host?.isSome → ∃ segments, u.path = .segments segments

/-- Behind an authority the path is a list of segments. -/
theorem exists_segments (kind : SchemeKind) (s : List Char) :
    ∃ segments, pathAfterAuthority kind s = .segments segments := by
  cases s with
  | nil => exact ⟨_, rfl⟩
  | cons c rest =>
    rw [pathAfterAuthority]
    split <;> exact ⟨_, rfl⟩

/-- A URL is assembled from an authority that was read, the path behind it and the rest. -/
theorem of_parseHierarchical [Idna] {scheme : String} {kind : SchemeKind} {s : List Char} {u : Url}
    (h : parseHierarchical scheme kind s = .ok u) :
    ∃ a rest, readAuthority scheme kind s = .ok (a, rest) ∧
      u = assemble scheme kind (some a) (pathAfterAuthority kind (cutPath rest).1)
        (cutPath rest).2 := by
  rw [parseHierarchical] at h
  cases ha : readAuthority scheme kind s with
  | error f =>
    rw [ha] at h
    cases h
  | ok read =>
    rw [ha] at h
    cases h
    exact ⟨read.1, read.2, rfl, rfl⟩

private theorem keeps_of_parseHierarchical [Idna] {scheme : String} {kind : SchemeKind}
    {s : List Char} {u : Url} (h : parseHierarchical scheme kind s = .ok u) : Keeps scheme u := by
  obtain ⟨a, rest, -, rfl⟩ := of_parseHierarchical h
  exact ⟨rfl, fun _ => exists_segments kind _⟩

private theorem keeps_of_parseFile [Idna] {s : List Char} {u : Url} (h : parseFile s = .ok u) :
    Keeps "file" u := by
  revert h
  fun_cases parseFile s with
  | case1 | case3 | case4 =>
    intro h
    cases h
    exact ⟨rfl, fun _ => ⟨_, rfl⟩⟩
  | case2 isSlash finish a b t _ text _ =>
    intro h
    cases hhost : readFileHost text with
    | error f =>
      rw [hhost] at h
      cases h
    | ok host =>
      rw [hhost] at h
      cases h
      exact ⟨rfl, fun _ => ⟨_, rfl⟩⟩

private theorem keeps_of_parseOther [Idna] {scheme : String} {s : List Char} {u : Url}
    (h : parseOther scheme s = .ok u) : Keeps scheme u := by
  revert h
  fun_cases parseOther scheme s with
  | case1 rest => exact keeps_of_parseHierarchical
  | case2 =>
    intro h
    cases h
    exact ⟨rfl, fun _ => ⟨_, rfl⟩⟩
  | case3 =>
    intro h
    cases h
    exact ⟨rfl, nofun⟩

/-- A URL keeps the scheme that its text starts with, and its path is a list of segments if it has a
host. -/
theorem kept_of_parse [Idna] {text : String} {u : Url} (h : parse text = .ok u) :
    (∃ s rest, scheme? s = some (u.scheme, rest)) ∧
      (u.host?.isSome → ∃ segments, u.path = .segments segments) := by
  rw [parse] at h
  split at h
  · cases h
  · next scheme rest hs =>
    have hkeeps : Keeps scheme u := by
      split at h
      · next hkind =>
        have hfile : scheme = "file" := by
          refine Decidable.byContradiction fun hne => ?_
          rw [SchemeKind.ofScheme, if_neg hne] at hkind
          split at hkind <;> cases hkind
        rw [hfile]
        exact keeps_of_parseFile h
      · exact keeps_of_parseHierarchical h
      · exact keeps_of_parseOther h
    rw [hkeeps.scheme]
    exact ⟨⟨_, rest, hs⟩, hkeeps.path⟩

/-- A URL of a special scheme, and any URL with a host, is read after its slashes, local files
apart. -/
theorem exists_parseHierarchical [Idna] {text : String} {u : Url} (h : parse text = .ok u)
    (hfile : SchemeKind.ofScheme u.scheme ≠ .file)
    (hhost : SchemeKind.ofScheme u.scheme = .special ∨ u.host?.isSome) :
    ∃ s, parseHierarchical u.scheme (SchemeKind.ofScheme u.scheme) s = .ok u := by
  rw [parse] at h
  split at h
  · cases h
  · next scheme rest hs =>
    split at h
    · refine absurd ?_ hfile
      rw [(keeps_of_parseFile h).scheme]
      rfl
    · next hkind =>
      rw [(keeps_of_parseHierarchical h).scheme, hkind]
      exact ⟨_, h⟩
    · next hkind =>
      have hscheme := (keeps_of_parseOther h).scheme
      rw [hscheme, hkind] at hhost ⊢
      revert h
      fun_cases parseOther scheme rest with
      | case1 rest => exact fun h => ⟨rest, h⟩
      | case2 | case3 =>
        intro h
        cases h
        rcases hhost with hspecial | hhost
        · cases hspecial
        · cases hhost

end ServiceDiscovery.Url
