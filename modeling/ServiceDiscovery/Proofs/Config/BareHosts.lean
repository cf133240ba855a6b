import ServiceDiscovery.Config.Basic
import ServiceDiscovery.Proofs.Config.Address
import ServiceDiscovery.Proofs.Url.HostTexts
import ServiceDiscovery.Url.Latin

/-!
# Where the address of a bare host leads

The address that a bare host is given leads to this host at the usual port of an agent. This is so
for names, for IPv4 addresses and for IPv6 addresses in brackets. An IPv6 address without brackets
is given a port as well, but it hides it, and the address leads nowhere.
-/

namespace ServiceDiscovery

/-- A text is a host on its own, without a port. -/
inductive Address.IsBareHost [Url.Idna] (s : String) : Url.Host → Prop
  /-- It is what stands in a URL for the host. -/
  | plain {host : Url.Host} (h : Url.Host.parse s.toList = .ok host) : IsBareHost s host
  /-- It is an IPv6 address without brackets. -/
  | unbracketed {pieces : List Nat} (h : Url.ipv6? s.toList = some pieces) :
      IsBareHost s (.ipv6 pieces)

/-- Requests under a configuration go to a host at a port. -/
def Config.LeadsTo [Url.Idna] (c : Config) (host : Url.Host) (port : UInt16) : Prop :=
  ∃ u, Url.parse c.baseUrl = .ok u ∧ u.host? = some host ∧ u.effectivePort? = some port

namespace Address

variable {address : String} {host : Url.Host} {pieces : List Nat}

private theorem slash_not_mem_withPort (h : '/' ∉ address.toList) :
    '/' ∉ (withPort address).toList := by
  have hport : '/' ∉ ':' :: (Decimal.text defaultPort).toList := by decide
  rw [toList_withPort, List.mem_append, not_or]
  exact ⟨h, hport⟩

private theorem isUrl_eq_false (h : '/' ∉ address.toList) : isUrl address = false := by
  refine Bool.eq_false_iff.2 fun hurl => h ?_
  exact (isUrl_iff.1 hurl).subset (by simp)

private theorem startsLikeHttp_eq_false (h : '/' ∉ address.toList) :
    Config.startsLikeHttp address = false := by
  refine Bool.eq_false_iff.2 fun hstarts => h ?_
  simp only [Config.startsLikeHttp, Bool.or_eq_true, Option.isSome_iff_exists,
    Text.dropFront?_eq_some_iff] at hstarts
  rcases hstarts with ⟨rest, hlist⟩ | ⟨rest, hlist⟩ <;>
    · rw [hlist]
      simp

private theorem baseUrl_ofAddress (hslash : '/' ∉ address.toList) (hport : hasPort address = false)
    (htest : address ≠ testMode) :
    (Config.ofAddress address).baseUrl = "http://" ++ withPort address := by
  have haddress : (Config.ofAddress address).address = withPort address := by
    rw [Config.ofAddress, normalize, if_neg]
    · rfl
    · simp [htest, isUrl_eq_false hslash, hport]
  rw [Config.baseUrl, haddress, startsLikeHttp_eq_false (slash_not_mem_withPort hslash)]
  rfl

private theorem of_isHostText (h : Url.IsHostText address.toList) :
    '/' ∉ address.toList ∧ hasPort address = false ∧ ¬ HidesPort address :=
  ⟨fun hm => absurd (h.char '/' hm).2.2 (by decide), hasPort_eq_false h.colon,
    fun hhides => h.colon.elim (fun hno => hno hhides.colon) hhides.last⟩

private theorem hasPort_of_ipv6? (h : Url.ipv6? address.toList = some pieces) :
    hasPort address = false := by
  refine Bool.eq_false_iff.2 fun hport => ?_
  obtain ⟨host, port, hlist, hcolon, -, hhost⟩ := exists_of_hasPort hport
  have hchar := (Url.char_of_ipv6? h).1
  rw [hlist] at h hchar
  have hlast := hhost.resolve_left (not_not.2 (Url.mem_colon_of_ipv6? h hcolon))
  have hbracket := hchar ']' (List.mem_append_left _ (List.mem_of_getLast? hlast))
  exact absurd hbracket (by decide)

private theorem hidesPort_of_ipv6? (h : Url.ipv6? address.toList = some pieces) :
    HidesPort address := by
  obtain ⟨hchar, hcolon⟩ := Url.char_of_ipv6? h
  refine ⟨isUrl_eq_false fun hm => absurd (hchar _ hm) (by decide), hasPort_of_ipv6? h, hcolon,
    fun hlast => ?_⟩
  exact absurd (hchar _ (List.mem_of_getLast? hlast)) (by decide)

private theorem ipv6?_eq_none [Url.Idna] (h : Url.Host.parse address.toList = .ok host) :
    Url.ipv6? address.toList = none := by
  rw [Option.eq_none_iff_forall_ne_some]
  intro pieces hpieces
  obtain ⟨hchar, hcolon⟩ := Url.char_of_ipv6? hpieces
  rw [Url.parse_of_mem_colon hchar hcolon] at h
  cases h

private theorem not_leadsTo_testMode [Url.Idna] (host : Url.Host) :
    ¬ (Config.ofAddress testMode).LeadsTo host 8500 := by
  have hname : Url.Host.parse ['-'] = .ok (.name "-") := by
    rw [Url.parse_of_isHostName ⟨by decide, List.forall_mem_singleton.2 rfl⟩ (by decide)]
    rfl
  have hhost : Url.readHost .special ['-'] = .ok (some (.name "-")) := by
    simp [Url.readHost, Url.SchemeKind.isSpecial, hname, Except.map]
  have huser : Url.readUserInfo true ['-'] = .ok (.nobody, ['-']) := rfl
  have htext : Url.hostText true false ['-'] = ['-'] := rfl
  have hread : Url.readAuthority "http" .special ['-'] =
      .ok (⟨"", none, some (.name "-"), none⟩, []) := by
    simp only [Url.readAuthority, Url.SchemeKind.isSpecial, huser, htext, hhost, bind, Except.bind]
    rfl
  have hbase : (Config.ofAddress testMode).baseUrl = "http://-" := by decide
  have hparse : Url.parse "http://-" = Url.parseHierarchical "http" .special ['-'] :=
    Url.parse_http rfl (List.forall_mem_singleton.2 (by decide)) (by decide)
  rintro ⟨u, hu, -, hport⟩
  rw [hbase, hparse, Url.parseHierarchical, hread] at hu
  cases hu
  exact absurd hport (by decide)

private theorem leadsTo_of_parse [Url.Idna] (h : Url.Host.parse address.toList = .ok host)
    (htest : address ≠ testMode) : (Config.ofAddress address).LeadsTo host 8500 := by
  obtain ⟨hslash, hport, -⟩ := of_isHostText (Url.isHostText_of_parse h)
  rw [Config.LeadsTo, baseUrl_ofAddress hslash hport htest]
  exact Url.exists_parse_port h 8500

private theorem not_leadsTo_of_ipv6? [Url.Idna] (h : Url.ipv6? address.toList = some pieces)
    (host : Url.Host) (port : UInt16) : ¬ (Config.ofAddress address).LeadsTo host port := by
  obtain ⟨hchar, hcolon⟩ := Url.char_of_ipv6? h
  have hslash : '/' ∉ address.toList := fun hm => absurd (hchar _ hm) (by decide)
  have htest : address ≠ testMode := by
    rintro rfl
    exact absurd hcolon (by decide)
  have hspells : Url.Spells ("http://" ++ withPort address) "http" address.toList 8500 [] :=
    { read := ⟨"http:".toList, [], rfl⟩
      ne_nil := List.ne_nil_of_mem hcolon
      char := hchar
      follows := .inl rfl
      text := by
        rw [String.toList_append, toList_withPort, Url.hostPort, List.append_nil]
        rfl }
  obtain ⟨f, hf⟩ := hspells.parse_of_mem_colon (by decide) hcolon
  rw [Config.LeadsTo, baseUrl_ofAddress hslash (hasPort_of_ipv6? h) htest, hf]
  rintro ⟨u, hu, -⟩
  cases hu

/-- The address that a text is given. It is given once, and ends in a port that it shows, unless it
hides the port; its own port may have a plus sign. A bare host leads to itself at the usual port
unless it is an IPv6 address without brackets, which hides the port; the hyphen is no host. -/
theorem normalize_exact [Url.Idna] (address : String) :
    (normalize (normalize address) = normalize address ↔ ¬ HidesPort address) ∧
      (normalize address ≠ testMode → isUrl (normalize address) = false →
        ((EndsInPort (normalize address) ∧ hasPort (normalize address) = true) ↔
          ¬ HidesPort address ∧ ¬ SignsPort address)) ∧
      ∀ host, IsBareHost address host →
        (HidesPort address ↔ (Url.ipv6? address.toList).isSome = true) ∧
          ((Config.ofAddress address).LeadsTo host 8500 ↔
            address ≠ testMode ∧ ¬ HidesPort address) := by
  refine ⟨normalize_normalize_iff, endsInPort_normalize_iff, fun host hbare => ?_⟩
  cases hbare with
  | plain h =>
    have hshown := (of_isHostText (Url.isHostText_of_parse h)).2.2
    refine ⟨?_, ?_⟩
    · simp [hshown, ipv6?_eq_none h]
    · rw [and_iff_left hshown]
      constructor
      · rintro hleads rfl
        exact not_leadsTo_testMode host hleads
      · exact leadsTo_of_parse h
  | unbracketed h =>
    have hhides := hidesPort_of_ipv6? h
    refine ⟨?_, ?_⟩
    · simp [hhides, h]
    · exact iff_of_false (not_leadsTo_of_ipv6? h _ _) fun hshown => hshown.2 hhides

section

open scoped Url.Latin

/-- The address of the loopback without brackets hides the port, in brackets it leads there; a port
with a plus sign stays as it is. -/
theorem normalize_exact_loopback :
    normalize "::1" = "::1:8500" ∧ normalize (normalize "::1") ≠ normalize "::1" ∧
      ¬ (Config.ofAddress "::1").LeadsTo (.ipv6 [0, 0, 0, 0, 0, 0, 0, 1]) 8500 ∧
      (Config.ofAddress "[::1]").LeadsTo (.ipv6 [0, 0, 0, 0, 0, 0, 0, 1]) 8500 ∧
      (EndsInPort (normalize "consul") ∧ hasPort (normalize "consul") = true) ∧
      ¬ (EndsInPort (normalize "consul:+80") ∧ hasPort (normalize "consul:+80") = true) := by
  have hhides : HidesPort "::1" := ⟨by decide, by decide, by decide, by decide⟩
  have hshows : ¬ HidesPort "[::1]" := fun h => absurd h.last (by decide)
  have hbare : IsBareHost "::1" (.ipv6 [0, 0, 0, 0, 0, 0, 0, 1]) := .unbracketed (by decide)
  have hbare' : IsBareHost "[::1]" (.ipv6 [0, 0, 0, 0, 0, 0, 0, 1]) := .plain (by rfl)
  have hsigns : SignsPort "consul:+80" :=
    ⟨"consul".toList, "80".toList, by decide, isPort_iff.2 (by decide)⟩
  have hplain : ':' ∉ "consul".toList := by decide
  refine ⟨by decide, mt (normalize_exact "::1").1.1 (not_not.2 hhides),
    fun h => (((normalize_exact "::1").2.2 _ hbare).2.1 h).2 hhides,
    ((normalize_exact "[::1]").2.2 _ hbare').2.2 ⟨by decide, hshows⟩,
    ((normalize_exact "consul").2.1 (by decide) (by decide)).2 ⟨fun h => hplain h.colon, ?_⟩,
    fun h => (((normalize_exact "consul:+80").2.1 (by decide) (by decide)).1 h).2 hsigns⟩
  exact fun h => hplain h.colon_last.1

end

end Address

end ServiceDiscovery
