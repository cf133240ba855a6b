import ServiceDiscovery.EndpointSet

/-!
# Choosing an endpoint

One endpoint out of a set: drawn at random, the next one in turn, or the first. A balancer counts
the turns it has given; nothing is counted where there is nothing to choose.
-/

namespace ServiceDiscovery

/-- How one endpoint of a set is chosen. -/
inductive Strategy
  | random
  | roundRobin
  | first
  deriving DecidableEq, Repr

/-- A strategy with the number of turns given so far, which wraps as a machine word does. -/
structure Balancer where
  strategy : Strategy
  turns : UInt64
  deriving DecidableEq, Repr

namespace Balancer

/-- A balancer that has given no turn. -/
def ofStrategy (s : Strategy) : Balancer := ⟨s, 0⟩

/-- The endpoint chosen from a set, and the balancer after it; `draw` is the random number of this
choice. -/
def pick (draw : Nat) (set : EndpointSet) (b : Balancer) : Option Endpoint × Balancer :=
  if set.isEmpty then (none, b)
  else
    match b.strategy with
    | .random => (set.get? (draw % set.size), b)
    | .roundRobin => (set.get? (b.turns.toNat % set.size), { b with turns := b.turns + 1 })
    | .first => (set.get? 0, b)

/-- The endpoints that a random choice can give. -/
def reachable (set : EndpointSet) : List Endpoint :=
  (List.range set.size).filterMap fun draw => ((ofStrategy .random).pick draw set).1

/-- From a set with members, a member is chosen. -/
theorem exists_pick {set : EndpointSet} (hne : set.isEmpty = false) (draw : Nat) (b : Balancer) :
    ∃ e b', b.pick draw set = (some e, b') ∧ e ∈ set := by
  have hpos : 0 < set.toList.length :=
    List.length_pos_iff.2 (by simpa [EndpointSet.isEmpty] using hne)
  have member (n : Nat) : ∃ e, set.get? (n % set.size) = some e ∧ e ∈ set := by
    have hlt : n % set.size < set.toList.length := Nat.mod_lt n hpos
    exact ⟨set.toList[n % set.size], List.getElem?_eq_getElem hlt, List.getElem_mem hlt⟩
  cases hs : b.strategy with
  | random =>
    obtain ⟨e, he, hmem⟩ := member draw
    exact ⟨e, b, by simp [pick, hne, hs, he], hmem⟩
  | roundRobin =>
    obtain ⟨e, he, hmem⟩ := member b.turns.toNat
    exact ⟨e, { b with turns := b.turns + 1 }, by simp [pick, hne, hs, he], hmem⟩
  | first =>
    obtain ⟨e, he, hmem⟩ := member 0
    rw [Nat.zero_mod] at he
    exact ⟨e, b, by simp [pick, hne, hs, he], hmem⟩

end Balancer

end ServiceDiscovery
