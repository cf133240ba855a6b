import Mathlib.Data.List.Perm.Subperm
import Mathlib.Data.List.Nodup
import ServiceDiscovery.Service.Dispatch

/-!
# Turns of a shared balancer

All calls of a service take their turns from one counter. A call gets the endpoint at its turn
modulo the size of its set, so calls of one service in a row get its endpoints one after the other.
Turns that calls of other services take in between are lost to it: which endpoints it gets in a
round depends on the remainders of its own turns alone.
-/

namespace ServiceDiscovery

namespace Balancer

/-- In turn, a set gives the endpoint at the turn modulo its size, and a turn is given. -/
theorem pick_roundRobin {b : Balancer} (hb : b.strategy = .roundRobin) (draw : Nat)
    {set : EndpointSet} (hs : set.isEmpty = false) :
    b.pick draw set =
      (set.get? (b.turns.toNat % set.size), { b with turns := b.turns + 1 }) := by
  simp only [pick, hs, hb]
  rfl

end Balancer

/-- A choice is the endpoint at its turn modulo the size of its set. -/
def Pick.InTurn (p : Pick) : Prop := p.set.get? (p.turn % p.set.size) = some p.endpoint

/-- Choices in turn from one set give different endpoints exactly when the remainders of their turns
differ. -/
theorem nodup_endpoints_iff {set : EndpointSet} {picks : List Pick}
    (hin : ∀ p ∈ picks, p.InTurn) (hset : ∀ p ∈ picks, p.set = set) :
    (picks.map Pick.endpoint).Nodup ↔ (picks.map (·.turn % set.size)).Nodup := by
  have hget : ∀ p ∈ picks, set.toList[p.turn % set.size]? = some p.endpoint := by
    intro p hp
    rw [← hset p hp]
    exact hin p hp
  have hmap : (picks.map (·.turn % set.size)).map (set.toList[·]?) =
      (picks.map Pick.endpoint).map some := by
    rw [List.map_map, List.map_map]
    exact List.map_congr_left hget
  constructor
  · intro h
    have hsome : ((picks.map Pick.endpoint).map some).Nodup := h.map fun _ _ => Option.some.inj
    rw [← hmap] at hsome
    exact hsome.of_map
  · intro h
    refine List.Nodup.of_map some ?_
    rw [← hmap]
    refine h.map_on ?_
    intro i hi j _ hij
    obtain ⟨p, hp, rfl⟩ := List.mem_map.1 hi
    have hlt : p.turn % set.size < set.toList.length :=
      (List.getElem?_eq_some_iff.1 (hget p hp)).1
    exact (List.getElem?_inj hlt set.nodup_toList).1 hij

/-- As many choices in turn as their set has endpoints give each endpoint once exactly when the
remainders of their turns differ. -/
theorem perm_endpoints_iff {set : EndpointSet} {picks : List Pick}
    (hin : ∀ p ∈ picks, p.InTurn) (hset : ∀ p ∈ picks, p.set = set)
    (hsize : picks.length = set.size) :
    (picks.map Pick.endpoint).Perm set.toList ↔ (picks.map (·.turn % set.size)).Nodup := by
  rw [← nodup_endpoints_iff hin hset]
  constructor
  · intro h
    exact h.nodup_iff.2 set.nodup_toList
  · intro h
    have hsub : picks.map Pick.endpoint ⊆ set.toList := by
      intro e he
      obtain ⟨p, hp, rfl⟩ := List.mem_map.1 he
      rw [← hset p hp]
      exact List.mem_of_getElem? (hin p hp)
    have hlen : set.toList.length ≤ (picks.map Pick.endpoint).length := by
      rw [List.length_map, hsize]
      exact Nat.le_refl _
    exact (List.subperm_of_subset h hsub).perm_of_length_le hlen

private theorem nodup_mod_range' (start n : Nat) : ((List.range' start n).map (· % n)).Nodup := by
  refine List.Nodup.map_on ?_ List.nodup_range'
  intro i hi j hj hij
  rw [List.mem_range'_1] at hi hj
  have hdiff : i - j < n ∧ j - i < n := by omega
  rcases Nat.le_total i j with h | h
  · have hmod : (j - i) % n = 0 := Nat.sub_mod_eq_zero_of_mod_eq hij.symm
    rw [Nat.mod_eq_of_lt hdiff.2] at hmod
    omega
  · have hmod : (i - j) % n = 0 := Nat.sub_mod_eq_zero_of_mod_eq hij
    rw [Nat.mod_eq_of_lt hdiff.1] at hmod
    omega

namespace Dispatch

variable {ρ : Type} {d d' : Dispatch ρ}

/-- The dispatches that moves lead to from a start with the strategy of turns. -/
inductive Reached : Dispatch ρ → Prop
  /-- Nobody has called the service. -/
  | start (registry : String) (agent : Agent) (watch : WatchConfig) :
      Reached (.start (.start registry agent watch) .roundRobin)
  /-- A move follows. -/
  | move {d d' : Dispatch ρ} {m : Move ρ} (h : Reached d) (hm : d.move? m = some d') : Reached d'

/-- What holds of the choices of a shared balancer: they are made in turn, and each turn counts the
choices before it. -/
structure Rotating (d : Dispatch ρ) : Prop where
  strategy : d.balancer.strategy = .roundRobin
  turns : d.balancer.turns = UInt64.ofNat d.picks.length
  inTurn : ∀ p ∈ d.picks, p.InTurn
  turn : ∀ k p, d.picks[k]? = some p → p.turn = (UInt64.ofNat k).toNat

private theorem chosen_cases (hd : d.balancer.strategy = .roundRobin) (i draw : Nat) (name : String)
    (result : Except Failure EndpointSet) :
    ((d.chosen i draw name result).balancer = d.balancer ∧
        (d.chosen i draw name result).picks = d.picks) ∨
      ∃ p : Pick, p.InTurn ∧ p.turn = d.balancer.turns.toNat ∧
        (d.chosen i draw name result).balancer =
          { d.balancer with turns := d.balancer.turns + 1 } ∧
        (d.chosen i draw name result).picks = d.picks ++ [p] := by
  cases result with
  | error f =>
    left
    simp [chosen, Choice.oneOf, pick?]
  | ok set =>
    cases he : set.isEmpty with
    | true =>
      left
      simp [chosen, Choice.oneOf, Choice.one, Balancer.pick, he, pick?]
    | false =>
      right
      have hlt : d.balancer.turns.toNat % set.size < set.toList.length :=
        Nat.mod_lt _ (List.length_pos_iff.2 (by simpa [EndpointSet.isEmpty] using he))
      have hget : set.get? (d.balancer.turns.toNat % set.size) = some (set.toList.get ⟨_, hlt⟩) :=
        List.getElem?_eq_getElem hlt
      refine ⟨⟨i, name, set, d.balancer.turns.toNat, set.toList.get ⟨_, hlt⟩⟩, hget, rfl, ?_⟩
      simp [chosen, Choice.oneOf, Choice.one, Balancer.pick_roundRobin hd draw he, hget, pick?]

private theorem Rotating.picked (h : d.Rotating) {p : Pick} (hin : p.InTurn)
    (ht : p.turn = d.balancer.turns.toNat)
    (hb : d'.balancer = { d.balancer with turns := d.balancer.turns + 1 })
    (hp : d'.picks = d.picks ++ [p]) : d'.Rotating := by
  refine ⟨?_, ?_, ?_, ?_⟩
  · rw [hb]
    exact h.strategy
  · rw [hb, hp, List.length_append]
    simp [h.turns, UInt64.ofNat_add]
  · intro q hq
    rw [hp, List.mem_append, List.mem_singleton] at hq
    rcases hq with hq | rfl
    · exact h.inTurn q hq
    · exact hin
  · intro k q hq
    rw [hp] at hq
    rcases Nat.lt_or_ge k d.picks.length with hk | hk
    · rw [List.getElem?_append_left hk] at hq
      exact h.turn k q hq
    · rw [List.getElem?_append_right hk, List.getElem?_singleton] at hq
      split at hq
      · cases hq
        rw [ht, h.turns]
        congr 2
        omega
      · cases hq

/-- Every move keeps the choices in turn. -/
theorem Rotating.of_move (h : d.Rotating) {m : Move ρ} (hm : d.move? m = some d') :
    d'.Rotating := by
  cases m with
  | act a =>
    obtain ⟨o, -, rfl⟩ := Option.map_eq_some_iff.1 hm
    exact ⟨h.strategy, h.turns, h.inTurn, h.turn⟩
  | choose i draw =>
    simp only [move?] at hm
    split at hm
    · cases hm
    · obtain ⟨name, -, hm⟩ := Option.bind_eq_some_iff.1 hm
      obtain ⟨result, -, rfl⟩ := Option.map_eq_some_iff.1 hm
      rcases chosen_cases h.strategy i draw name result with ⟨hb, hp⟩ | ⟨p, hin, ht, hb, hp⟩
      · exact ⟨by rw [hb]; exact h.strategy, by rw [hb, hp]; exact h.turns,
          by rw [hp]; exact h.inTurn, by rw [hp]; exact h.turn⟩
      · exact h.picked hin ht hb hp

/-- A shared balancer gives its turns one after the other. -/
theorem Reached.rotating (h : d.Reached) : d.Rotating := by
  induction h with
  | start registry agent watch => exact ⟨rfl, rfl, nofun, nofun⟩
  | move _ hm ih => exact ih.of_move hm

/-- While the counter has not wrapped, a choice's turn is its place among all choices. -/
theorem Rotating.turn_eq (h : d.Rotating) (hmany : d.picks.length ≤ UInt64.size) {k : Nat}
    {p : Pick} (hp : d.picks[k]? = some p) : p.turn = k := by
  have hk : k < d.picks.length := (List.getElem?_eq_some_iff.1 hp).1
  rw [h.turn k p hp, UInt64.toNat_ofNat']
  exact Nat.mod_eq_of_lt (Nat.lt_of_lt_of_le hk hmany)

/-- The turns of choices in a row are numbers in a row. -/
theorem Rotating.turns_in_a_row (h : d.Rotating) (hmany : d.picks.length ≤ UInt64.size)
    {before window after : List Pick} (hw : d.picks = before ++ window ++ after) :
    window.map Pick.turn = List.range' before.length window.length := by
  refine List.ext_getElem (by simp) ?_
  intro k hk _
  rw [List.length_map] at hk
  rw [List.getElem_map, List.getElem_range', Nat.one_mul]
  refine h.turn_eq hmany ?_
  rw [hw, List.append_assoc, List.getElem?_append_right (Nat.le_add_right _ _),
    Nat.add_sub_cancel_left, List.getElem?_append_left hk, List.getElem?_eq_getElem hk]

/-- As many choices for a name in a row as its unchanged set has endpoints, whatever choices for
other names fall between them, give each endpoint once exactly when the remainders of their turns by
the size of the set differ. While the counter has not wrapped, a turn is the place among all
choices, so they do if no choice for another name falls between. -/
theorem each_once_iff (hd : d.Reached) {name : String} {set : EndpointSet}
    {before window after : List Pick} (hw : d.picks = before ++ window ++ after)
    (hset : ∀ p ∈ window, p.name = name → p.set = set)
    (hsize : (window.filter (·.name = name)).length = set.size) :
    (((window.filter (·.name = name)).map Pick.endpoint).Perm set.toList ↔
        ((window.filter (·.name = name)).map (·.turn % set.size)).Nodup) ∧
      (d.picks.length ≤ UInt64.size →
        (∀ (k : Nat) (p : Pick), d.picks[k]? = some p → p.turn = k) ∧
          ((∀ p ∈ window, p.name = name) → (window.map Pick.endpoint).Perm set.toList)) := by
  have hr : d.Rotating := hd.rotating
  have hin : ∀ p ∈ window, p.InTurn := by
    intro p hp
    refine hr.inTurn p ?_
    rw [hw]
    exact List.mem_append_left _ (List.mem_append_right _ hp)
  have hown : ∀ p ∈ window.filter (·.name = name), p.InTurn ∧ p.set = set := by
    intro p hp
    obtain ⟨hp, hn⟩ := List.mem_filter.1 hp
    exact ⟨hin p hp, hset p hp (of_decide_eq_true hn)⟩
  refine ⟨perm_endpoints_iff (fun p hp => (hown p hp).1) (fun p hp => (hown p hp).2) hsize, ?_⟩
  intro hmany
  refine ⟨fun k p hp => hr.turn_eq hmany hp, ?_⟩
  intro hall
  have hfilter : window.filter (·.name = name) = window :=
    List.filter_eq_self.2 fun p hp => decide_eq_true (hall p hp)
  rw [hfilter] at hsize
  refine (perm_endpoints_iff hin (fun p hp => hset p hp (hall p hp)) hsize).2 ?_
  have hrow := hr.turns_in_a_row hmany hw
  have hmod : window.map (·.turn % set.size) = (window.map Pick.turn).map (· % set.size) := by
    rw [List.map_map]
    rfl
  rw [hmod, hrow, hsize]
  exact nodup_mod_range' _ _

/-- Every list of moves leads from a reached dispatch to a reached one. -/
theorem Reached.run (h : d.Reached) {moves : List (Move ρ)} (hr : d.run moves = some d') :
    d'.Reached := by
  induction moves generalizing d with
  | nil =>
    cases hr
    exact h
  | cons m moves ih =>
    obtain ⟨d₁, hm, hr⟩ := Option.bind_eq_some_iff.1 hr
    exact ih (h.move hm) hr

/-- One call for `api`, which has two endpoints, one for `db`, which has one, and two more for
`api`. -/
def alternating : List (Move Unit) :=
  [.act (.resolve "api"), .act (.lookup 0), .act (.lookup 0),
    .act (.answerLookup 0
      (.ok ⟨[.ofAddress "api" "10.0.0.1" 80, .ofAddress "api" "10.0.0.2" 80], 1⟩)),
    .act (.lookup 0), .act (.lookup 0), .act (.lookup 0), .choose 0 0,
    .act (.resolve "db"), .act (.lookup 1), .act (.lookup 1),
    .act (.answerLookup 1 (.ok ⟨[.ofAddress "db" "10.0.0.3" 5432], 2⟩)),
    .act (.lookup 1), .act (.lookup 1), .act (.lookup 1), .choose 1 0,
    .act (.resolve "api"), .act (.lookup 2), .act (.lookup 2), .choose 2 0,
    .act (.resolve "api"), .act (.lookup 3), .act (.lookup 3), .choose 3 0]

/-- The dispatch after these calls. -/
def alternated : Dispatch Unit :=
  ((start (.start "registry" default .standard) .roundRobin).run alternating).getD
    (start (.start "registry" default .standard) .roundRobin)

/-- The endpoints of `api`. -/
def apiSet : EndpointSet := .ofList [⟨"10.0.0.1", 80⟩, ⟨"10.0.0.2", 80⟩]

/-- The choices of these calls: the one for `db` takes the turn of the second endpoint of `api`. -/
def alternatedPicks : List Pick :=
  [⟨0, "api", apiSet, 0, ⟨"10.0.0.1", 80⟩⟩,
    ⟨1, "db", .ofList [⟨"10.0.0.3", 5432⟩], 1, ⟨"10.0.0.3", 5432⟩⟩,
    ⟨2, "api", apiSet, 2, ⟨"10.0.0.1", 80⟩⟩, ⟨3, "api", apiSet, 3, ⟨"10.0.0.2", 80⟩⟩]

/-- With a call for `db` in between, two calls for `api` in a row get the same one of its two
endpoints; without one, they get both. -/
theorem each_once_iff_alternated :
    alternated.Reached ∧ alternated.picks = alternatedPicks ∧
      (∀ p ∈ alternatedPicks, p.name = "api" → p.set = apiSet) ∧
      ((alternatedPicks.take 3).filter (·.name = "api")).length = apiSet.size ∧
      ¬ (((alternatedPicks.take 3).filter (·.name = "api")).map Pick.endpoint).Perm apiSet.toList ∧
      ((alternatedPicks.drop 2).map Pick.endpoint).Perm apiSet.toList := by
  have hr : alternated.Reached := by
    have hrun : (start (.start "registry" default .standard) .roundRobin).run alternating =
        some alternated := rfl
    exact (Reached.start "registry" default .standard).run hrun
  have hp : alternated.picks = alternatedPicks := rfl
  have hset : ∀ p ∈ alternatedPicks, p.name = "api" → p.set = apiSet := by decide
  have hfirst : alternated.picks = [] ++ alternatedPicks.take 3 ++ alternatedPicks.drop 3 := hp
  have hlast : alternated.picks = alternatedPicks.take 2 ++ alternatedPicks.drop 2 ++ [] := hp
  refine ⟨hr, hp, hset, by decide, ?_, ?_⟩
  · have h := (each_once_iff hr hfirst
      (fun p hm => hset p (List.mem_of_mem_take hm)) (by decide)).1
    rw [h]
    decide
  · refine ((each_once_iff hr hlast
      (fun p hm => hset p (List.mem_of_mem_drop hm)) (by decide)).2 ?_).2 (by decide)
    rw [hp]
    decide

end Dispatch

end ServiceDiscovery
