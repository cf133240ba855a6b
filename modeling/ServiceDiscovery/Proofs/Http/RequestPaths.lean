import ServiceDiscovery.Http.AgentClient
import ServiceDiscovery.Proofs.Url.Extension
import ServiceDiscovery.Proofs.Url.Reading
import ServiceDiscovery.Url.Latin

/-!
# Which name a request asks for

The path of a request under the URL of an agent names what is asked for, a service or a key: its
segments behind those of the agent's URL are decoded to the name, and no other name is asked for in
the same way. This is so for names that a path carries. A name of one or two dots is left out of the
path and tabs and line ends are left out of a name, so that a request may ask for another service or
key than the one that was meant.
-/

namespace ServiceDiscovery

/-- A URL of the web can be extended. -/
theorem Url.isBase_of_parse [Url.Idna] {text : String} {u : Url} (h : Url.parse text = .ok u)
    (hs : u.scheme = "http" ∨ u.scheme = "https") : u.IsBase := by
  have hkind : Url.SchemeKind.ofScheme u.scheme = .special := by
    rcases hs with hs | hs <;> rw [hs] <;> decide
  have hfile : Url.SchemeKind.ofScheme u.scheme ≠ .file := by
    rw [hkind]
    exact nofun
  obtain ⟨s, hs⟩ := Url.exists_parseHierarchical h hfile (.inl hkind)
  obtain ⟨a, rest, -, hu⟩ := Url.of_parseHierarchical hs
  refine ⟨?_, ?_, hfile⟩
  · rw [hu]
    rfl
  · rw [hu]
    exact Url.exists_segments _ _

namespace AgentClient

open Url (IsCarried)

private theorem encode_intercalate (l : List (List Char)) :
    Utf8.encode (['/'].intercalate l) = [0x2F].intercalate (l.map Utf8.encode) := by
  induction l with
  | nil => rfl
  | cons s l ih =>
    cases l with
    | nil => simp
    | cons t l =>
      rw [List.map_cons, List.map_cons, List.intercalate_cons_cons, List.intercalate_cons_cons,
        ← List.map_cons, ← ih]
      simp [Utf8.encode, String.utf8EncodeChar]

/-- A key without the slashes in front of it. -/
def strippedKey (key : String) : List Char := Text.trimFront (· == '/') key.toList

/-- A key whose names, between its slashes, are all carried by a path. -/
def KeyIsCarried (key : String) : Prop := ∀ s ∈ Text.fields '/' (strippedKey key), IsCarried s

instance (key : String) : Decidable (KeyIsCarried key) :=
  inferInstanceAs (Decidable (∀ s ∈ Text.fields '/' (strippedKey key), IsCarried s))

private theorem keyIsCarried_iff {key : String} :
    (∀ n ∈ (Text.fields '/' (strippedKey key)).map String.ofList, IsCarried n.toList) ↔
      KeyIsCarried key := by
  simp [KeyIsCarried]

section

variable {client : AgentClient} {u v : Url} {names : List String}

/-- What is extended is the URL of the agent. -/
theorem url_eq_ok [Url.Idna] (hbase : Url.parse client.base = .ok u)
    (hv : u.extend? names = some v) :
    client.url names = .ok v := by
  rw [url, hbase]
  simp only [hv]

private theorem url_of_isCarried [Url.Idna] (hbase : Url.parse client.base = .ok u) (hu : u.IsBase)
    (hnames : ∀ n ∈ names, IsCarried n.toList) :
    client.url ("v1" :: names) = .ok (u.carrying ("v1" :: names)) :=
  url_eq_ok hbase (hu.extend?_of_isCarried (by decide) (by decide) hnames)

private theorem url_leadsTo_iff [Url.Idna] (hbase : Url.parse client.base = .ok u) (hu : u.IsBase)
    (names : List String) :
    ∃ v, client.url ("v1" :: names) = .ok v ∧
      (u.LeadsTo ("v1" :: names) v ↔ ∀ n ∈ names, IsCarried n.toList) := by
  have hfirst : IsCarried "v1".toList := by decide
  obtain ⟨v, hv, hleads⟩ := hu.leadsTo_iff hfirst (by decide) names
  exact ⟨v, url_eq_ok hbase hv, hleads⟩

private theorem names_eq_of_url [Url.Idna] (hbase : Url.parse client.base = .ok u) (hu : u.IsBase)
    {names' : List String} {v' : Url} (hnames : ∀ n ∈ names, IsCarried n.toList)
    (hnames' : ∀ n ∈ names', IsCarried n.toList) (hv : client.url ("v1" :: names) = .ok v)
    (hv' : client.url ("v1" :: names') = .ok v') (ht : v.toText = v'.toText) : names = names' := by
  rw [url_of_isCarried hbase hu hnames] at hv
  rw [url_of_isCarried hbase hu hnames'] at hv'
  cases hv
  cases hv'
  exact (List.cons.inj (hu.names_eq_of_toText ht)).2

end

variable {client : AgentClient} {u : Url}

/-- Under an agent's URL of the web, the path of a request leads to the service or key that is asked
for exactly if it is carried. A key that is carried is what its segments are decoded to, with
slashes between them, and no two services and no two keys that are carried share a request's URL. -/
theorem requests_identify [Url.Idna] (hbase : Url.parse client.base = .ok u)
    (hscheme : u.scheme = "http" ∨ u.scheme = "https") :
    (∀ service, ∃ v, client.url (healthSegments service) = .ok v ∧
        (u.LeadsTo (healthSegments service) v ↔ IsCarried service.toList)) ∧
      (∀ key, ∃ v, client.url (valueSegments key) = .ok v ∧
        (u.LeadsTo (valueSegments key) v ↔ KeyIsCarried key) ∧
        (KeyIsCarried key → ∃ segments,
          v.path = .segments (u.path.front ++ ["v1", "kv"] ++ segments) ∧
            [0x2F].intercalate (segments.map fun s => Percent.decode s.toList) =
              Utf8.encode (strippedKey key))) ∧
      (∀ service service' v v', IsCarried service.toList → IsCarried service'.toList →
        client.url (healthSegments service) = .ok v →
        client.url (healthSegments service') = .ok v' → v.toText = v'.toText →
          service = service') ∧
      ∀ key key' v v', KeyIsCarried key → KeyIsCarried key' →
        client.url (valueSegments key) = .ok v → client.url (valueSegments key') = .ok v' →
        v.toText = v'.toText → strippedKey key = strippedKey key' := by
  have hu := Url.isBase_of_parse hbase hscheme
  have hservice (service : String) :
      (∀ n ∈ ["health", "service", service], IsCarried n.toList) ↔ IsCarried service.toList := by
    have hhealth : IsCarried "health".toList ∧ IsCarried "service".toList := by decide
    rw [List.forall_mem_cons, and_iff_right hhealth.1, List.forall_mem_cons,
      and_iff_right hhealth.2, List.forall_mem_singleton]
  have hkey (key : String) :
      (∀ n ∈ "kv" :: (Text.fields '/' (strippedKey key)).map String.ofList,
        IsCarried n.toList) ↔ KeyIsCarried key := by
    have hkv : IsCarried "kv".toList := by decide
    rw [List.forall_mem_cons, keyIsCarried_iff]
    exact and_iff_right hkv
  refine ⟨fun service => ?_, fun key => ?_, ?_, ?_⟩
  · obtain ⟨v, hv, hleads⟩ := url_leadsTo_iff hbase hu ["health", "service", service]
    exact ⟨v, hv, hleads.trans (hservice service)⟩
  · obtain ⟨v, hv, hleads⟩ := url_leadsTo_iff hbase hu
      ("kv" :: (Text.fields '/' (strippedKey key)).map String.ofList)
    refine ⟨v, hv, hleads.trans (hkey key), fun hcarried => ?_⟩
    rw [url_of_isCarried hbase hu ((hkey key).2 hcarried)] at hv
    cases hv
    have hplain (kind : Url.SchemeKind) :
        String.ofList (Url.segmentOf kind "v1".toList) = "v1" ∧
          String.ofList (Url.segmentOf kind "kv".toList) = "kv" := by
      cases kind <;> decide
    refine ⟨(Text.fields '/' (strippedKey key)).map fun s =>
      String.ofList (Url.segmentOf (Url.SchemeKind.ofScheme u.scheme) s), ?_, ?_⟩
    · rw [Url.carrying, List.map_cons, List.map_cons, (hplain _).1, (hplain _).2]
      simp [Function.comp_def]
    · rw [List.map_map]
      simp only [Function.comp_def, String.toList_ofList, Url.decode_segmentOf]
      rw [← encode_intercalate, Text.intercalate_fields]
  · intro service service' v v' hs hs' hv hv' ht
    have heq := names_eq_of_url hbase hu ((hservice service).2 hs) ((hservice service').2 hs')
      hv hv' ht
    simpa using heq
  · intro key key' v v' hk hk' hv hv' ht
    have heq := names_eq_of_url hbase hu ((hkey key).2 hk) ((hkey key').2 hk') hv hv' ht
    have hfields := (List.map_inj_right fun _ _ => String.ofList_injective).1
      (List.cons.inj heq).2
    rw [← Text.intercalate_fields '/' (strippedKey key), hfields, Text.intercalate_fields]

/-- A client of an agent behind a proxy. -/
def behindProxy : AgentClient := ⟨"http://proxy.internal/agent", defaultTimeout⟩

/-- The URL of the agent behind the proxy. -/
def proxyUrl : Url where
  scheme := "http"
  authority := some ⟨"", none, some (.name "proxy.internal"), none⟩
  path := .segments ["agent"]
  query := none
  fragment := none

section

open scoped Url.Latin

/-- A key with a percent sign is asked for as it is; a key with a tab is asked for without it. -/
theorem requests_identify_behindProxy :
    Url.parse behindProxy.base = .ok proxyUrl ∧
      (∃ v, behindProxy.url (valueSegments "/a/50%") = .ok v ∧
        proxyUrl.LeadsTo (valueSegments "/a/50%") v) ∧
      ∃ v, behindProxy.url (valueSegments "a\tb") = .ok v ∧
        behindProxy.url (valueSegments "ab") = .ok v ∧
        ¬ proxyUrl.LeadsTo (valueSegments "a\tb") v := by
  have hbase : Url.parse behindProxy.base = .ok proxyUrl := by rfl
  obtain ⟨-, hkey, -⟩ := requests_identify hbase (.inl rfl)
  refine ⟨hbase, ?_, ?_⟩
  · obtain ⟨v, hv, hleads, -⟩ := hkey "/a/50%"
    exact ⟨v, hv, hleads.2 (by decide)⟩
  · obtain ⟨v, hv, hleads, -⟩ := hkey "a\tb"
    have hsame : behindProxy.url (valueSegments "ab") = behindProxy.url (valueSegments "a\tb") := by
      rfl
    exact ⟨v, hv, hsame.trans hv, fun h => absurd (hleads.1 h) (by decide)⟩

end

end AgentClient

end ServiceDiscovery
