import ServiceDiscovery.Proofs.Service.Filling
import ServiceDiscovery.Proofs.Url.Rereading
import ServiceDiscovery.Url.Latin

/-!
# What a filled URL keeps

A URL in which an endpoint was filled in for a service name is read with the scheme and the query of
the text, local files apart. It is read with the path of the text if a slash follows the first two
that stand side by side, and else without a path. A path can be there without such a slash, as a
backslash parts segments, too, and any number of slashes may stand before a host.
-/

namespace ServiceDiscovery.HostTemplate

open Url (IsHostName IsIpv4Text IsDomain SchemeKind Spells IsNormalPath IsNormalQuery)

/-- Whether a slash follows the first two slashes of a text that stand side by side. -/
def hasLaterSlash (text : String) : Bool :=
  (Text.splitFirst? ['/', '/'] text.toList).any fun p => p.2.contains '/'

/-- The text of the path of a URL that has none. -/
def rootText (scheme : String) : String :=
  if SchemeKind.ofScheme scheme = .special then "/" else ""

private theorem isNormal_of_parse [Url.Idna] {text : String} {u : Url} (hu : Url.parse text = .ok u)
    (hfile : SchemeKind.ofScheme u.scheme ≠ .file) (hhost : u.host?.isSome) :
    IsNormalPath (SchemeKind.ofScheme u.scheme) u.path ∧
      ∀ q, u.query = some q → IsNormalQuery (SchemeKind.ofScheme u.scheme) q := by
  obtain ⟨s, hs⟩ := Url.exists_parseHierarchical hu hfile (.inr hhost)
  obtain ⟨a, rest, -, hassemble⟩ := Url.of_parseHierarchical hs
  refine ⟨?_, fun q hq => ?_⟩
  · rw [congrArg Url.path hassemble]
    exact Url.isNormalPath_pathAfterAuthority hfile _
  · rw [congrArg Url.query hassemble] at hq
    exact Url.isNormalQuery_of_readQueryFragment hq

private theorem exists_readHost [Url.Idna] {scheme : String} {host : String}
    (hfile : SchemeKind.ofScheme scheme ≠ .file) (hname : IsHostName host.toList)
    (hspecial : SchemeKind.ofScheme scheme = .special →
      (∃ bytes, IsIpv4Text bytes host) ∨ IsDomain host.toList) :
    ∃ x, Url.readHost (SchemeKind.ofScheme scheme) host.toList = .ok (some x) := by
  cases hkind : SchemeKind.ofScheme scheme with
  | file => exact absurd hkind hfile
  | special =>
    obtain ⟨x, hx, -⟩ := (Url.denotes_iff_of_isHostName hname).2 (hspecial hkind)
    refine ⟨x, ?_⟩
    simp [Url.readHost, SchemeKind.isSpecial, hname.ne_nil, hx, Except.map]
  | other =>
    exact ⟨_, Url.parseOther_of_isHostName hname⟩

private theorem exists_parse_of_plain [Url.Idna] {text scheme : String} {e : Endpoint}
    {path : List Char} {query : Option String}
    (h : Spells text scheme e.host.toList e.port (path ++ Url.queryText query))
    (hfile : SchemeKind.ofScheme scheme ≠ .file) (hname : IsHostName e.host.toList)
    (hspecial : SchemeKind.ofScheme scheme = .special →
      (∃ bytes, IsIpv4Text bytes e.host) ∨ IsDomain e.host.toList)
    (hpath : ∀ c ∈ path, Percent.isEscaped Percent.pathSet c = false)
    (hquery : ∀ q, query = some q → IsNormalQuery (SchemeKind.ofScheme scheme) q) :
    ∃ v, Url.parse text = .ok v ∧ v.scheme = scheme ∧ v.query = query ∧
      v.path = Url.pathAfterAuthority (SchemeKind.ofScheme scheme) path := by
  obtain ⟨x, hx⟩ := exists_readHost hfile hname hspecial
  have hparse := h.parse_eq_assemble hfile hname.not_mem_colon hx
  rw [Url.significantTail_eq (Url.lt_toNat_of_mem_append hpath hquery),
    Url.cutPath_append_queryText hpath, Url.assemble,
    Url.readQueryFragment_queryText hquery] at hparse
  exact ⟨_, hparse, rfl, rfl, rfl⟩

private theorem toText_pathAfterAuthority_nil {scheme : String}
    (hfile : SchemeKind.ofScheme scheme ≠ .file) :
    (Url.pathAfterAuthority (SchemeKind.ofScheme scheme) []).toText = rootText scheme := by
  rw [rootText]
  cases hkind : SchemeKind.ofScheme scheme with
  | file => exact absurd hkind hfile
  | special => rfl
  | other => rfl

/-- A text in which an endpoint was filled in, a name or an IPv4 address that its scheme can read,
is a URL again, local files apart. It has the scheme and the query of the text, where an empty query
counts as none. It has the path of the text exactly if a slash follows the first two slashes, or the
text has no path. -/
theorem filled_keeps [Url.Idna] {text domain : String} {t : HostTemplate} {e : Endpoint}
    (ht : discoverable? text domain = some t) (hslashes : ['/', '/'] <:+: text.toList)
    (hname : IsHostName e.host.toList) :
    ∃ u, Url.parse text = .ok u ∧
      (SchemeKind.ofScheme u.scheme ≠ .file →
        (SchemeKind.ofScheme u.scheme = .special →
          (∃ bytes, IsIpv4Text bytes e.host) ∨ IsDomain e.host.toList) →
        ∃ v, Url.parse (filled text t (.ok e)) = .ok v ∧ v.scheme = u.scheme ∧
          v.query = u.query.filter (· ≠ "") ∧
          (v.path.toText = u.path.toText ↔
            hasLaterSlash text = true ∨ u.path.toText = rootText u.scheme)) := by
  obtain ⟨hparse, -⟩ := Option.filter_eq_some_iff.1 ht
  obtain ⟨⟨front, afterSlashes⟩, hsplit⟩ :=
    Option.isSome_iff_exists.1 (Text.splitFirst?_isSome hslashes)
  rw [parse?, hsplit] at hparse
  have hlater : hasLaterSlash text = afterSlashes.contains '/' := by
    rw [hasLaterSlash, hsplit]
    rfl
  obtain ⟨u, hu, hhost, hscheme, hpath, hquery⟩ := of_ofUrl? hparse
  obtain ⟨scheme, s, rest, hscheme', hs, htail⟩ := scheme_of_ofUrl? hparse
  rw [hscheme] at hscheme'
  cases hscheme'
  refine ⟨u, hu, fun hfile hspecial => ?_⟩
  have hspells : Spells (t.fill e) u.scheme e.host.toList e.port t.tail :=
    ⟨⟨s, rest, hs⟩, hname.ne_nil, hname.hostChar, htail, toList_fill hscheme e⟩
  obtain ⟨hnormal, hqueries⟩ := isNormal_of_parse hu hfile hhost
  have hkept : ∀ q, u.query.filter (· ≠ "") = some q →
      IsNormalQuery (SchemeKind.ofScheme u.scheme) q := fun q hq =>
    hqueries q (Option.filter_eq_some_iff.1 hq).1
  have htail_eq : t.tail = t.path.toList ++ Url.queryText (u.query.filter (· ≠ "")) := by
    rw [tail, hquery]
    rfl
  rw [htail_eq, hpath] at hspells
  rw [hlater]
  cases hslash : afterSlashes.contains '/' with
  | true =>
    rw [hslash, if_pos rfl] at hspells
    obtain ⟨v, hv, hvscheme, hvquery, hvpath⟩ :=
      exists_parse_of_plain hspells hfile hname hspecial hnormal.plain hkept
    refine ⟨v, hv, hvscheme, hvquery, iff_of_true ?_ (.inl rfl)⟩
    rw [hvpath, hnormal.read_toText hfile]
  | false =>
    rw [hslash, if_neg Bool.false_ne_true, String.toList_empty] at hspells
    obtain ⟨v, hv, hvscheme, hvquery, hvpath⟩ :=
      exists_parse_of_plain hspells hfile hname hspecial (List.forall_mem_nil _) hkept
    refine ⟨v, hv, hvscheme, hvquery, ?_⟩
    rw [hvpath, toText_pathAfterAuthority_nil hfile]
    simp [eq_comm]

/-- A URL of the web without user and port. -/
def webUrl (host : String) (path : List String) : Url :=
  ⟨"http", some ⟨"", none, some (.name host), none⟩, .segments path, none, none⟩

/-- The template of a URL in which a backslash stands before the path. -/
def backslashTemplate : HostTemplate := ⟨some "http", "api", "", none⟩

section

open scoped Url.Latin

/-- The path behind a slash is kept when an IPv4 address is filled in, and the same path behind a
backslash is lost. -/
theorem filled_keeps_api :
    discoverable? "http://api/v1" "consul" = some webTemplate ∧
      discoverable? "http://api\\v1" "consul" = some backslashTemplate ∧
      ['/', '/'] <:+: "http://api/v1".toList ∧ ['/', '/'] <:+: "http://api\\v1".toList ∧
      IsHostName "10.0.0.1".toList ∧
      Url.parse "http://api/v1" = .ok (webUrl "api" ["v1"]) ∧
      Url.parse "http://api\\v1" = .ok (webUrl "api" ["v1"]) ∧
      (∃ v, Url.parse (filled "http://api/v1" webTemplate (.ok ⟨"10.0.0.1", 8080⟩)) = .ok v ∧
        v.path.toText = "/v1") ∧
      ∃ v, Url.parse (filled "http://api\\v1" backslashTemplate (.ok ⟨"10.0.0.1", 8080⟩)) = .ok v ∧
        v.path.toText ≠ "/v1" := by
  have hweb : discoverable? "http://api/v1" "consul" = some webTemplate := by decide +kernel
  have hback : discoverable? "http://api\\v1" "consul" = some backslashTemplate := by decide +kernel
  have hslashes : ['/', '/'] <:+: "http://api/v1".toList :=
    ⟨"http:".toList, "api/v1".toList, by decide⟩
  have hslashes' : ['/', '/'] <:+: "http://api\\v1".toList :=
    ⟨"http:".toList, "api\\v1".toList, by decide⟩
  have hbytes : IsIpv4Text [10, 0, 0, 1] "10.0.0.1" := ⟨rfl, by decide, by decide⟩
  have hparse : Url.parse "http://api/v1" = .ok (webUrl "api" ["v1"]) := by rfl
  have hparse' : Url.parse "http://api\\v1" = .ok (webUrl "api" ["v1"]) := by rfl
  refine ⟨hweb, hback, hslashes, hslashes', hbytes.isHostName, hparse, hparse', ?_, ?_⟩
  · obtain ⟨u, hu, hkept⟩ :=
      filled_keeps (e := ⟨"10.0.0.1", 8080⟩) hweb hslashes hbytes.isHostName
    rw [hparse] at hu
    cases hu
    obtain ⟨v, hv, -, -, hiff⟩ := hkept (by decide) fun _ => .inl ⟨_, hbytes⟩
    exact ⟨v, hv, hiff.2 (.inl (by decide))⟩
  · obtain ⟨u, hu, hkept⟩ :=
      filled_keeps (e := ⟨"10.0.0.1", 8080⟩) hback hslashes' hbytes.isHostName
    rw [hparse'] at hu
    cases hu
    obtain ⟨v, hv, -, -, hiff⟩ := hkept (by decide) fun _ => .inl ⟨_, hbytes⟩
    exact ⟨v, hv, fun h => absurd (hiff.1 h) (by decide)⟩

end

end ServiceDiscovery.HostTemplate
