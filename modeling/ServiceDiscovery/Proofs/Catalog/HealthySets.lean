import Mathlib.Data.List.Nodup
import ServiceDiscovery.Catalog.Entry
import ServiceDiscovery.Proofs.Text.ByteOrder
import ServiceDiscovery.Text.Split

/-!
# Healthy instances as a set

The endpoints of the healthy instances depend on nothing but which endpoints these are: the order of
the instances, repeats, and what other instances say of the same endpoint make no difference. For a
set is determined by its members, as there is one list of them in ascending order, and everything
that reads a set reads this list.
-/

namespace ServiceDiscovery

namespace Endpoint

/-- An endpoint comes before another one if its host has the smaller bytes or, where the hosts are
the same, its port is the smaller number. -/
def Before (a b : Endpoint) : Prop :=
  Utf8.encode a.host.toList < Utf8.encode b.host.toList ∨
    a.host = b.host ∧ a.port.toNat < b.port.toNat

/-- An endpoint compares below another one exactly if it comes before it. -/
theorem compare_eq_lt_iff {a b : Endpoint} : compare a b = .lt ↔ a.Before b := by
  have hport : compare a.port b.port = .lt ↔ a.port.toNat < b.port.toNat := by
    rw [← UInt16.lt_iff_toNat_lt]
    exact compareOfLessAndEq_eq_lt
  rw [compare_def, Ordering.then_eq_lt, Utf8.compare_eq_lt_iff, compare_eq_iff_eq, hport, Before]

/-- Different endpoints are written differently. -/
theorem toText_injective : Function.Injective toText := by
  intro a b h
  have hsplit : ∀ e : Endpoint, Text.splitLast? [':'] e.toText.toList =
      some (e.host.toList, (Decimal.text e.port.toNat).toList) := by
    intro e
    have hcolon : ':' ∉ (Decimal.text e.port.toNat).toList := fun hm =>
      absurd (Decimal.isDigit_of_mem_text hm) (by decide)
    have htext : e.toText.toList =
        e.host.toList ++ ':' :: (Decimal.text e.port.toNat).toList := by
      simp [toText]
    rw [htext, Text.splitLast?_append hcolon]
  have hparts := hsplit a
  rw [h, hsplit b, Option.some.injEq, Prod.mk.injEq] at hparts
  have hhost : a.host = b.host := String.toList_injective hparts.1.symm
  have hport : a.port = b.port := by
    refine UInt16.toNat_inj.1 (Option.some.inj ?_)
    rw [← Decimal.digits?_text, ← Decimal.digits?_text b.port.toNat, hparts.2]
  cases a
  cases b
  cases hhost
  cases hport
  rfl

end Endpoint

/-- A healthy instance is reached at an endpoint: every check passes or warns, the host is the
instance's address or, if it has none, that of its node, and the port is the instance's. -/
structure Entry.Offers (entry : Entry) (e : Endpoint) : Prop where
  /-- Every check passes or warns. -/
  good : ∀ check ∈ entry.checks, check.status = "passing" ∨ check.status = "warning"
  /-- An address of the instance is taken as it is. -/
  own : entry.service.address ≠ "" → e.host = entry.service.address
  /-- Without one, the node's address is. -/
  node : entry.service.address = "" → e.host = entry.node.address
  /-- The port is the instance's. -/
  port : e.port = entry.service.port

/-- What a healthy instance offers is its endpoint, and nothing else. -/
theorem Entry.offers_iff {entry : Entry} {e : Endpoint} :
    entry.Offers e ↔ entry.isHealthy = true ∧ entry.endpoint = e := by
  have hgood : entry.isHealthy = true ↔
      ∀ check ∈ entry.checks, check.status = "passing" ∨ check.status = "warning" := by
    simp [isHealthy, HealthCheck.isGood]
  rw [hgood]
  constructor
  · intro h
    refine ⟨h.good, ?_⟩
    by_cases ha : entry.service.address = ""
    · rw [endpoint, if_pos ha, ← h.node ha, ← h.port]
    · rw [endpoint, if_neg ha, ← h.own ha, ← h.port]
  · rintro ⟨hall, rfl⟩
    exact ⟨hall, fun ha => if_neg ha, fun ha => if_pos ha, rfl⟩

/-- An endpoint is among the healthy ones exactly if a healthy instance is reached there. -/
theorem mem_healthyEndpoints_iff {entries : List Entry} {e : Endpoint} :
    e ∈ healthyEndpoints entries ↔ ∃ entry ∈ entries, entry.Offers e := by
  simp only [mem_healthyEndpoints, Entry.offers_iff]

namespace EndpointSet

/-- The set of a list with the endpoints of another list inserted one after the other. -/
def built (first more : List Endpoint) : EndpointSet :=
  more.foldl (fun set e => set.insert e) (ofList first)

/-- A list of the members, in strictly ascending order. -/
structure Listing (s : EndpointSet) (m : List Endpoint) : Prop where
  ascending : m.Pairwise Endpoint.Before
  members : ∀ e, e ∈ m ↔ e ∈ s

/-- Whatever reads a set reads a list, from its beginning to its end. -/
structure Reads (s : EndpointSet) (m : List Endpoint) : Prop where
  /-- The set is gone through in the order of the list. -/
  iterated : s.toList = m
  /-- A place of the set is the place in the list. -/
  got : ∀ i, s.get? i = m[i]?
  /-- There are as many members as the list is long. -/
  counted : s.size = m.length
  /-- The texts are those of the list. -/
  written : s.texts = m.map Endpoint.toText
  /-- No text stands twice. -/
  apart : s.texts.Nodup
  /-- The texts of the list stand in the joined text, with the separator between them. -/
  joined : ∀ separator : String, s.join separator =
    separator.intercalate (m.map Endpoint.toText)

/-- The ascending list of a set is the only list of its members in ascending order. -/
theorem listing_iff {s : EndpointSet} {m : List Endpoint} : s.Listing m ↔ m = s.toList := by
  constructor
  · intro h
    have hascending : m.Pairwise fun a b => compare a b = .lt :=
      h.ascending.imp Endpoint.compare_eq_lt_iff.2
    have hset : (⟨m, hascending⟩ : EndpointSet) = s := ext h.members
    rw [← hset]
  · rintro rfl
    exact ⟨s.ascending.imp Endpoint.compare_eq_lt_iff.1, fun _ => mem_def.symm⟩

/-- Whatever reads a set reads its ascending list. -/
theorem reads_toList (s : EndpointSet) : s.Reads s.toList where
  iterated := rfl
  got _ := rfl
  counted := rfl
  written := rfl
  apart := List.Nodup.map Endpoint.toText_injective s.nodup_toList
  joined _ := rfl

/-- Two sets are equal exactly if they have the same members. -/
theorem eq_iff {a b : EndpointSet} : a = b ↔ ∀ e, e ∈ a ↔ e ∈ b := by
  constructor
  · rintro rfl
    exact fun _ => Iff.rfl
  · exact ext

end EndpointSet

/-- The endpoints of the healthy instances are a set in the plain sense. An endpoint is in it
exactly if one of the entries is healthy and reached there, and entries that offer the same
endpoints give equal sets. A set holds what it was built from, sets are equal exactly if they have
the same members, and there is just one list of the members in ascending order, which everything
reads. -/
theorem healthy_sets_canonical :
    (∀ (entries : List Entry) (e : Endpoint),
      e ∈ healthyEndpoints entries ↔ ∃ entry ∈ entries, entry.Offers e) ∧
    (∀ xs ys : List Entry, healthyEndpoints xs = healthyEndpoints ys ↔
      ∀ e, (∃ x ∈ xs, x.Offers e) ↔ ∃ y ∈ ys, y.Offers e) ∧
    (∀ (first more : List Endpoint) (e : Endpoint),
      e ∈ EndpointSet.built first more ↔ e ∈ first ∨ e ∈ more) ∧
    (∀ a b : EndpointSet, a = b ↔ ∀ e, e ∈ a ↔ e ∈ b) ∧
    ∀ s : EndpointSet, ∃ m, s.Reads m ∧ ∀ list, s.Listing list ↔ list = m := by
  refine ⟨fun _ _ => mem_healthyEndpoints_iff, fun xs ys => ?_, fun first more e => ?_,
    fun _ _ => EndpointSet.eq_iff, fun s => ⟨s.toList, s.reads_toList, fun _ =>
      EndpointSet.listing_iff⟩⟩
  · simp only [EndpointSet.eq_iff, mem_healthyEndpoints_iff]
  · rw [EndpointSet.built, EndpointSet.mem_foldl_insert, EndpointSet.mem_ofList, or_comm]

end ServiceDiscovery
