import ServiceDiscovery.Proofs.Key.Grammar
import ServiceDiscovery.Service.HostTemplate
import ServiceDiscovery.Url.Latin

/-!
# Hosts that are searched for

Which hosts of URLs the registry is asked about. A host with a point in it is, if its last label is
the registry's domain. That is the way the host ends, as a qualified name ends in its domain; but
where the domain consists of several labels itself, the last label is never the domain, and no
qualified name is searched for.
-/

namespace ServiceDiscovery

/-- A host with a point in it is searched for exactly if it ends in a point and the domain and the
domain is a single label. -/
theorem shouldDiscover_iff {host domain : String} (hp : '.' ∈ host.toList) :
    shouldDiscover host domain = true ↔
      '.' ∉ domain.toList ∧ ∃ front, host = front ++ "." ++ domain := by
  have hne : host ≠ "" := by
    rintro rfl
    cases hp
  have hin : ['.'] <:+: host.toList := by
    obtain ⟨front, back, h⟩ := List.append_of_mem hp
    exact ⟨front, back, by rw [h, List.append_assoc, List.singleton_append]⟩
  obtain ⟨⟨front, last⟩, hcut⟩ := Option.isSome_iff_exists.1 (Text.splitLast?_isSome hin)
  rw [shouldDiscover, if_neg hne, hcut, decide_eq_true_iff]
  constructor
  · rintro rfl
    rw [String.toList_ofList]
    refine ⟨Text.not_mem_of_splitLast? hcut, String.ofList front, String.toList_inj.1 ?_⟩
    simp [Text.eq_append_of_splitLast? hcut]
  · rintro ⟨hd, before, rfl⟩
    have hagain : Text.splitLast? ['.'] (before ++ "." ++ domain).toList =
        some (before.toList, domain.toList) := by
      simpa using Text.splitLast?_append hd before.toList
    rw [hcut] at hagain
    cases hagain
    exact String.ofList_toList

/-- A qualified name ends in a point and the domain. -/
theorem Key.exists_append_of_name_ne {host domain : String}
    (h : (Key.parse host domain).name ≠ host) : ∃ front, host = front ++ "." ++ domain := by
  rcases name_parse_ne_iff.1 h with ⟨name, hl⟩ | ⟨name, datacenter, hr⟩
  · refine ⟨name ++ ".service", ?_⟩
    rw [hl.text_eq, String.append_assoc, String.append_assoc, String.append_assoc]
    rfl
  · exact ⟨_, hr.text_eq⟩

/-- A qualified name is searched for if and only if the domain is a single label. A host with a
point in it that does not end in a point and the domain is never searched for; under a domain of
several labels no host with a point in it is, so no text with such a host is ever filled in. -/
theorem qualified_discovered_iff [Url.Idna] {host domain : String} :
    ((Key.parse host domain).name ≠ host →
      (shouldDiscover host domain = true ↔ '.' ∉ domain.toList)) ∧
    ('.' ∈ host.toList → (∀ front, host ≠ front ++ "." ++ domain) →
      shouldDiscover host domain = false) ∧
    ('.' ∈ domain.toList → ∀ text t, HostTemplate.discoverable? text domain = some t →
      '.' ∉ t.host.toList) := by
  refine ⟨fun hq => ?_, fun hp hn => ?_, fun hd text t ht hp => ?_⟩
  · obtain ⟨front, rfl⟩ := Key.exists_append_of_name_ne hq
    have hp : '.' ∈ (front ++ "." ++ domain).toList := by simp
    rw [shouldDiscover_iff hp]
    exact and_iff_left ⟨front, rfl⟩
  · refine Bool.eq_false_iff.2 fun h => ?_
    obtain ⟨-, front, hfront⟩ := (shouldDiscover_iff hp).1 h
    exact hn front hfront
  · have hs := (Option.filter_eq_some_iff.1 ht).2
    exact ((shouldDiscover_iff hp).1 (by simpa using hs)).1 hd

section

open scoped Url.Latin

/-- Under the domain `consul` the name of a service is searched for, under `sd.example` it is not,
though both are read as names of that service; and `api.consul.io` is left alone under `consul`. -/
theorem qualified_discovered_iff_labels :
    shouldDiscover "api.service.consul" "consul" = true ∧
      Key.parse "api.service.sd.example" "sd.example" = .ofName "api" ∧
      shouldDiscover "api.service.sd.example" "sd.example" = false ∧
      shouldDiscover "api.consul.io" "consul" = false ∧
      ∀ t, HostTemplate.discoverable? "http://api.service.sd.example/v1" "sd.example" = some t →
        '.' ∉ t.host.toList := by
  have hread : Key.parse "api.service.sd.example" "sd.example" = .ofName "api" := by decide
  have hname : (Key.parse "api.service.sd.example" "sd.example").name ≠
      "api.service.sd.example" := by
    rw [hread]
    decide
  have hend : ∀ front, "api.consul.io" ≠ front ++ "." ++ "consul" := by
    intro front h
    have hlast := congrArg (fun s : String => s.toList.getLast?) h
    simp at hlast
  obtain ⟨hone, -, -⟩ := @qualified_discovered_iff _ "api.service.consul" "consul"
  obtain ⟨hseveral, -, hnone⟩ := @qualified_discovered_iff _ "api.service.sd.example" "sd.example"
  obtain ⟨-, hother, -⟩ := @qualified_discovered_iff _ "api.consul.io" "consul"
  refine ⟨(hone (by decide)).2 (by decide), hread, ?_, hother (by decide) hend,
    hnone (by decide) _⟩
  exact Bool.eq_false_iff.2 fun h => (hseveral hname).1 h (by decide)

end

end ServiceDiscovery
