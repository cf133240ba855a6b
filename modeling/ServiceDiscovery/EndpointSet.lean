import ServiceDiscovery.Endpoint

/-!
# Endpoint sets

Each endpoint at most once, in ascending order, whatever order and repeats the set was built from.
As the order is part of the type, two sets with the same members are equal (`ext`). The empty set
means that a service is known and no instance of it is healthy.
-/

namespace ServiceDiscovery

/-- A finite set of endpoints, listed in strictly ascending order. -/
structure EndpointSet where
  toList : List Endpoint
  ascending : toList.Pairwise fun a b => compare a b = .lt
  deriving DecidableEq

namespace EndpointSet

/-- An endpoint put into its place in an ascending list; one that is there already is left. -/
def place (e : Endpoint) : List Endpoint → List Endpoint
  | [] => [e]
  | a :: s =>
    match compare e a with
    | .lt => e :: a :: s
    | .eq => a :: s
    | .gt => a :: place e s

/-- Placing adds exactly the endpoint. -/
theorem mem_place {e x : Endpoint} {s : List Endpoint} : x ∈ place e s ↔ x = e ∨ x ∈ s := by
  induction s with
  | nil => simp [place]
  | cons a s ih =>
    rw [place]
    split
    · simp
    · next h =>
      cases Std.LawfulEqOrd.eq_of_compare h
      simp
    · simp only [List.mem_cons, ih]
      constructor <;> rintro (h | h | h) <;> simp [h]

/-- Placing keeps a list ascending. -/
theorem ascending_place (e : Endpoint) {s : List Endpoint}
    (h : s.Pairwise fun a b => compare a b = .lt) :
    (place e s).Pairwise fun a b => compare a b = .lt := by
  induction s with
  | nil => simp [place]
  | cons a s ih =>
    rw [List.pairwise_cons] at h
    rw [place]
    split
    · next hlt =>
      refine List.pairwise_cons.2 ⟨?_, List.pairwise_cons.2 h⟩
      intro x hx
      rcases List.mem_cons.1 hx with rfl | hx
      · exact hlt
      · exact Std.TransCmp.lt_trans hlt (h.1 x hx)
    · exact List.pairwise_cons.2 h
    · next hgt =>
      refine List.pairwise_cons.2 ⟨?_, ih h.2⟩
      intro x hx
      rcases mem_place.1 hx with rfl | hx
      · exact Std.OrientedCmp.lt_of_gt hgt
      · exact h.1 x hx

/-- The set without members. -/
def empty : EndpointSet := ⟨[], .nil⟩

/-- The set with one more member. -/
def insert (e : Endpoint) (s : EndpointSet) : EndpointSet :=
  ⟨place e s.toList, ascending_place e s.ascending⟩

/-- The set of the endpoints of a list. -/
def ofList (s : List Endpoint) : EndpointSet := s.foldl (fun set e => set.insert e) empty

/-- Whether an endpoint is a member. -/
def contains (s : EndpointSet) (e : Endpoint) : Bool := s.toList.contains e

/-- The number of members. -/
def size (s : EndpointSet) : Nat := s.toList.length

/-- Whether there are no members. -/
def isEmpty (s : EndpointSet) : Bool := s.toList.isEmpty

/-- The member at a place of the ascending order. -/
def get? (s : EndpointSet) (i : Nat) : Option Endpoint := s.toList[i]?

/-- Every member as `host:port`, in ascending order. -/
def texts (s : EndpointSet) : List String := s.toList.map Endpoint.toText

/-- Every member as `host:port`, in ascending order, with a separator between them. -/
def join (separator : String) (s : EndpointSet) : String := separator.intercalate s.texts

instance : Membership Endpoint EndpointSet := ⟨fun s e => e ∈ s.toList⟩

/-- Membership is membership in the ascending list. -/
theorem mem_def {s : EndpointSet} {e : Endpoint} : e ∈ s ↔ e ∈ s.toList := Iff.rfl

/-- The members after an insertion. -/
@[simp]
theorem mem_insert {s : EndpointSet} {e x : Endpoint} : x ∈ s.insert e ↔ x = e ∨ x ∈ s :=
  mem_place

/-- The empty set has no members. -/
@[simp]
theorem not_mem_empty {e : Endpoint} : ¬ e ∈ empty := List.not_mem_nil

/-- Inserting the endpoints of a list one after the other adds exactly them. -/
theorem mem_foldl_insert {l : List Endpoint} {s : EndpointSet} {x : Endpoint} :
    x ∈ l.foldl (fun set e => set.insert e) s ↔ x ∈ l ∨ x ∈ s := by
  induction l generalizing s with
  | nil => simp
  | cons a l ih =>
    rw [List.foldl_cons, ih, mem_insert, List.mem_cons, or_assoc]
    exact or_left_comm

/-- The members of the set of a list. -/
@[simp]
theorem mem_ofList {l : List Endpoint} {x : Endpoint} : x ∈ ofList l ↔ x ∈ l := by
  simp [ofList, mem_foldl_insert]

/-- No member is listed twice. -/
theorem nodup_toList (s : EndpointSet) : s.toList.Nodup :=
  s.ascending.imp fun {a b} h he => by
    have hs : compare b b = .eq := Std.ReflOrd.compare_self
    rw [he, hs] at h
    cases h

/-- Two sets with the same members are equal. -/
theorem ext {a b : EndpointSet} (h : ∀ e, e ∈ a ↔ e ∈ b) : a = b := by
  have hp : a.toList.Perm b.toList := (List.perm_ext_iff_of_nodup a.nodup_toList b.nodup_toList).2 h
  have hl : a.toList = b.toList :=
    hp.eq_of_pairwise (fun x y _ _ hxy hyx => by
      rw [Std.OrientedCmp.gt_of_lt hxy] at hyx
      cases hyx) a.ascending b.ascending
  cases a
  cases b
  cases hl
  rfl

/-- An endpoint is contained exactly when it is a member. -/
theorem contains_iff {s : EndpointSet} {e : Endpoint} : s.contains e = true ↔ e ∈ s := by
  simp [contains, mem_def]

end EndpointSet

end ServiceDiscovery
