import ServiceDiscovery.Proofs.Url.Reading
import ServiceDiscovery.Service.HostTemplate
import ServiceDiscovery.Url.Latin

/-!
# Filled URLs

Whether a URL in which an endpoint was filled in for a service name leads to this endpoint: whether
it is read as a URL again, with the host and the port of the endpoint. It does for names and IPv4
addresses. It does not for IPv6 addresses, which are filled in without brackets, and not under the
scheme of local files, which have no port.
-/

namespace ServiceDiscovery

/-- A text is a URL with the host and the port of an endpoint. -/
def Endpoint.DialedBy [Url.Idna] (e : Endpoint) (text : String) : Prop :=
  ∃ u, Url.parse text = .ok u ∧ (∃ host, u.host? = some host ∧ host.Denotes e.host) ∧
    u.effectivePort? = some e.port

namespace HostTemplate

open Url (IsTail IsHostName IsIpv4Text IsDomain SchemeKind Spells)

/-- What stands behind the endpoint in a filled text. -/
def tail (t : HostTemplate) : List Char :=
  t.path.toList ++
    match t.query with
    | some q => '?' :: q.toList
    | none => []

/-- A filled URL is its scheme, the endpoint and what stands behind it. -/
theorem toList_fill {t : HostTemplate} {scheme : String} (h : t.scheme = some scheme)
    (e : Endpoint) :
    (t.fill e).toList =
      scheme.toList ++ ':' :: '/' :: '/' :: Url.hostPort e.host.toList e.port t.tail := by
  rw [fill, h, tail]
  cases t.query with
  | none => simp [Endpoint.toText, Url.hostPort]
  | some q => simp [Endpoint.toText, Url.hostPort]

private theorem toList_toText_segments (segments : List String) :
    (Url.Path.segments segments).toText.toList = [] ∨
      ∃ rest, (Url.Path.segments segments).toText.toList = '/' :: rest := by
  rw [Url.Path.toList_toText_segments]
  cases segments with
  | nil => exact Or.inl rfl
  | cons s segments => exact Or.inr ⟨_, rfl⟩

/-- A template is that of a URL with a host. -/
theorem of_ofUrl? [Url.Idna] {text : String} {afterSlashes : List Char} {t : HostTemplate}
    (h : ofUrl? text afterSlashes = some t) :
    ∃ u, Url.parse text = .ok u ∧ u.host?.isSome ∧ t.scheme = some u.scheme ∧
      t.path = (if afterSlashes.contains '/' then u.path.toText else "") ∧
      t.query = u.query.filter (· ≠ "") := by
  rw [ofUrl?] at h
  cases hu : Url.parse text with
  | error f =>
    rw [hu] at h
    cases h
  | ok u =>
    rw [hu] at h
    obtain ⟨host, hhost, rfl⟩ := Option.map_eq_some_iff.1 h
    obtain ⟨x, hx, -⟩ := Option.map_eq_some_iff.1 hhost
    refine ⟨u, rfl, ?_, rfl, rfl, rfl⟩
    rw [hx]
    rfl

/-- A template of a URL has a scheme that was read, and behind its host there is a path, a query or
nothing. -/
theorem scheme_of_ofUrl? [Url.Idna] {text : String} {afterSlashes : List Char} {t : HostTemplate}
    (h : ofUrl? text afterSlashes = some t) :
    ∃ scheme s rest, t.scheme = some scheme ∧ Url.scheme? s = some (scheme, rest) ∧
      IsTail t.tail := by
  obtain ⟨u, hu, hsome, hscheme, hpath, -⟩ := of_ofUrl? h
  obtain ⟨⟨s, rest, hs⟩, hsegments⟩ := Url.kept_of_parse hu
  refine ⟨u.scheme, s, rest, hscheme, hs, ?_⟩
  obtain ⟨segments, hsegments⟩ := hsegments hsome
  have hfront : t.path.toList = [] ∨ ∃ rest, t.path.toList = '/' :: rest := by
    rw [hpath]
    split
    · rw [hsegments]
      exact toList_toText_segments segments
    · exact Or.inl rfl
  rw [tail]
  rcases hfront with hnil | ⟨path, hpath⟩
  · rw [hnil, List.nil_append]
    cases t.query with
    | none => exact Or.inl rfl
    | some q => exact Or.inr ⟨q.toList, Or.inr rfl⟩
  · rw [hpath]
    exact Or.inr ⟨_, Or.inl rfl⟩

/-! ### Reading back a filled URL -/

section

variable {scheme text : String} {tail : List Char} {e : Endpoint}

private theorem not_dialedBy_of_error [Url.Idna] {f : Url.Fault} (h : Url.parse text = .error f) :
    ¬ e.DialedBy text := by
  rintro ⟨u, hu, -⟩
  rw [h] at hu
  cases hu

private theorem dialedBy_iff_denotes [Url.Idna] (h : Spells text scheme e.host.toList e.port tail)
    (hkind : SchemeKind.ofScheme scheme ≠ .file) (hcolon : ':' ∉ e.host.toList) {host : Url.Host}
    (hread : Url.readHost (SchemeKind.ofScheme scheme) e.host.toList = .ok (some host)) :
    e.DialedBy text ↔ host.Denotes e.host := by
  obtain ⟨u, hu, hhost, hport⟩ := h.exists_parse hkind hcolon hread
  constructor
  · rintro ⟨v, hv, ⟨x, hx, hdenotes⟩, -⟩
    rw [hu] at hv
    cases hv
    rw [hhost] at hx
    cases hx
    exact hdenotes
  · intro hdenotes
    exact ⟨u, hu, ⟨host, hhost, hdenotes⟩, hport⟩

private theorem dialedBy_iff_of_special [Url.Idna]
    (h : Spells text scheme e.host.toList e.port tail)
    (hkind : SchemeKind.ofScheme scheme = .special) (hname : IsHostName e.host.toList) :
    e.DialedBy text ↔ (∃ bytes, IsIpv4Text bytes e.host) ∨ IsDomain e.host.toList := by
  have hnf : SchemeKind.ofScheme scheme ≠ .file := by
    rw [hkind]
    exact nofun
  have hread : Url.readHost (SchemeKind.ofScheme scheme) e.host.toList =
      (Url.Host.parse e.host.toList).map some := by
    simp [Url.readHost, hkind, SchemeKind.isSpecial, hname.ne_nil]
  rw [← Url.denotes_iff_of_isHostName hname]
  cases hp : Url.Host.parse e.host.toList with
  | ok host =>
    rw [hp] at hread
    rw [dialedBy_iff_denotes h hnf hname.not_mem_colon hread]
    simp
  | error f =>
    rw [hp] at hread
    exact iff_of_false (not_dialedBy_of_error (h.parse_of_error hnf hname.not_mem_colon hread))
      (by simp)

private theorem dialedBy_of_other [Url.Idna] (h : Spells text scheme e.host.toList e.port tail)
    (hkind : SchemeKind.ofScheme scheme = .other) (hname : IsHostName e.host.toList) :
    e.DialedBy text := by
  have hnf : SchemeKind.ofScheme scheme ≠ .file := by
    rw [hkind]
    exact nofun
  have hread : Url.readHost (SchemeKind.ofScheme scheme) e.host.toList =
      .ok (some (.name (String.ofList e.host.toList))) := by
    simp [Url.readHost, hkind, SchemeKind.isSpecial, Url.parseOther_of_isHostName hname]
  rw [dialedBy_iff_denotes h hnf hname.not_mem_colon hread, String.ofList_toList]
  exact .written e.host

private theorem not_dialedBy_of_mem_colon [Url.Idna]
    (h : Spells text scheme e.host.toList e.port tail) (hcolon : ':' ∈ e.host.toList) :
    ¬ e.DialedBy text := by
  by_cases hkind : SchemeKind.ofScheme scheme = .file
  · exact not_dialedBy_of_error (h.parse_of_file hkind)
  · obtain ⟨f, hf⟩ := h.parse_of_mem_colon hkind hcolon
    exact not_dialedBy_of_error hf

end

/-- A URL in which an endpoint was filled in leads to the endpoint exactly if its scheme is not that
of local files, the endpoint's host is no IPv6 address and, under a special scheme, the host is an
IPv4 address or a domain. -/
theorem dialedBy_filled_iff [Url.Idna] {text domain : String} {t : HostTemplate} {e : Endpoint}
    (ht : discoverable? text domain = some t) (hslashes : ['/', '/'] <:+: text.toList)
    (he : IsHostName e.host.toList ∨ (Url.ipv6? e.host.toList).isSome) :
    ∃ scheme, t.scheme = some scheme ∧
      (e.DialedBy (filled text t (.ok e)) ↔
        SchemeKind.ofScheme scheme ≠ .file ∧ Url.ipv6? e.host.toList = none ∧
          (SchemeKind.ofScheme scheme = .special →
            (∃ bytes, IsIpv4Text bytes e.host) ∨ IsDomain e.host.toList)) := by
  obtain ⟨hparse, -⟩ := Option.filter_eq_some_iff.1 ht
  obtain ⟨⟨front, afterSlashes⟩, hsplit⟩ :=
    Option.isSome_iff_exists.1 (Text.splitFirst?_isSome hslashes)
  rw [parse?, hsplit] at hparse
  obtain ⟨scheme, s, rest, hscheme, hs, htail⟩ := scheme_of_ofUrl? hparse
  have htext := toList_fill hscheme e
  refine ⟨scheme, hscheme, ?_⟩
  show e.DialedBy (t.fill e) ↔ _
  rcases he with hname | hv6
  · have hspells : Spells (t.fill e) scheme e.host.toList e.port t.tail :=
      ⟨⟨s, rest, hs⟩, hname.ne_nil, hname.hostChar, htail, htext⟩
    have hno : Url.ipv6? e.host.toList = none := by
      rw [Option.eq_none_iff_forall_ne_some]
      exact fun pieces hp => hname.not_mem_colon (Url.char_of_ipv6? hp).2
    cases hkind : SchemeKind.ofScheme scheme with
    | file => simp [not_dialedBy_of_error (hspells.parse_of_file hkind)]
    | special => simp [dialedBy_iff_of_special hspells hkind hname, hno]
    | other => simp [dialedBy_of_other hspells hkind hname, hno]
  · obtain ⟨pieces, hp⟩ := Option.isSome_iff_exists.1 hv6
    obtain ⟨hchar, hcolon⟩ := Url.char_of_ipv6? hp
    have hspells : Spells (t.fill e) scheme e.host.toList e.port t.tail :=
      ⟨⟨s, rest, hs⟩, List.ne_nil_of_mem hcolon, hchar, htail, htext⟩
    simp [not_dialedBy_of_mem_colon hspells hcolon, hp]

/-- The template of a URL whose host is the name of a service. -/
def webTemplate : HostTemplate := ⟨some "http", "api", "/v1", none⟩

/-- The template of a local file whose host is the name of a service. -/
def fileTemplate : HostTemplate := ⟨some "file", "api", "/v1", none⟩

section

open scoped Url.Latin

/-- Under `http` a name and an IPv4 address are dialed when they are filled in, and an IPv6 address
is not; under `file` the IPv4 address is not dialed either. -/
theorem dialedBy_filled_iff_api :
    discoverable? "http://api/v1" "consul" = some webTemplate ∧
      discoverable? "file://api/v1" "consul" = some fileTemplate ∧
      ['/', '/'] <:+: "http://api/v1".toList ∧ ['/', '/'] <:+: "file://api/v1".toList ∧
      IsHostName "Node-1.internal".toList ∧ IsHostName "10.0.0.1".toList ∧
      (Url.ipv6? "::1".toList).isSome ∧
      Endpoint.DialedBy ⟨"Node-1.internal", 8080⟩
        (filled "http://api/v1" webTemplate (.ok ⟨"Node-1.internal", 8080⟩)) ∧
      Endpoint.DialedBy ⟨"10.0.0.1", 8080⟩
        (filled "http://api/v1" webTemplate (.ok ⟨"10.0.0.1", 8080⟩)) ∧
      ¬ Endpoint.DialedBy ⟨"::1", 8080⟩
        (filled "http://api/v1" webTemplate (.ok ⟨"::1", 8080⟩)) ∧
      ¬ Endpoint.DialedBy ⟨"10.0.0.1", 8080⟩
        (filled "file://api/v1" fileTemplate (.ok ⟨"10.0.0.1", 8080⟩)) := by
  have hweb : discoverable? "http://api/v1" "consul" = some webTemplate := by decide +kernel
  have hfile : discoverable? "file://api/v1" "consul" = some fileTemplate := by decide +kernel
  have hslashes : ['/', '/'] <:+: "http://api/v1".toList :=
    ⟨"http:".toList, "api/v1".toList, by decide⟩
  have hslashes' : ['/', '/'] <:+: "file://api/v1".toList :=
    ⟨"file:".toList, "api/v1".toList, by decide⟩
  have hname : IsHostName "Node-1.internal".toList :=
    ⟨by decide, List.all_eq_true.1 (by decide +kernel)⟩
  have hdomain : IsDomain "Node-1.internal".toList :=
    (Url.isDomain_iff hname (by decide)).2 (by decide)
  have hbytes : IsHostName "10.0.0.1".toList :=
    ⟨by decide, List.all_eq_true.1 (by decide +kernel)⟩
  have hpieces : (Url.ipv6? "::1".toList).isSome := by decide
  refine ⟨hweb, hfile, hslashes, hslashes', hname, hbytes, hpieces, ?_, ?_, ?_, ?_⟩
  · obtain ⟨scheme, hs, hiff⟩ :=
      dialedBy_filled_iff (e := ⟨"Node-1.internal", 8080⟩) hweb hslashes (Or.inl hname)
    cases hs
    exact hiff.2 ⟨by decide, by decide, fun _ => Or.inr hdomain⟩
  · obtain ⟨scheme, hs, hiff⟩ :=
      dialedBy_filled_iff (e := ⟨"10.0.0.1", 8080⟩) hweb hslashes (Or.inl hbytes)
    cases hs
    exact hiff.2 ⟨by decide, by decide,
      fun _ => Or.inl ⟨[10, 0, 0, 1], rfl, by decide, by decide⟩⟩
  · obtain ⟨scheme, hs, hiff⟩ :=
      dialedBy_filled_iff (e := ⟨"::1", 8080⟩) hweb hslashes (Or.inr hpieces)
    cases hs
    exact fun hd => absurd (hiff.1 hd).2.1 (by decide)
  · obtain ⟨scheme, hs, hiff⟩ :=
      dialedBy_filled_iff (e := ⟨"10.0.0.1", 8080⟩) hfile hslashes' (Or.inl hbytes)
    cases hs
    exact fun hd => (hiff.1 hd).1 (by decide)

end

end HostTemplate

end ServiceDiscovery
