import ServiceDiscovery.Text.Split

/-!
# Resolution keys

A key names what is cached and watched: a service in a datacenter, where no datacenter means the
agent's own. `parse` reads a name as people write it. A name of the form `<name>.service.<domain>`
or `<name>.service.<datacenter>.<domain>` is taken apart; any other text, and every text when the
domain is empty, is itself the name of a service.
-/

namespace ServiceDiscovery

/-- A service in a datacenter. -/
structure Key where
  name : String
  datacenter : Option String
  deriving DecidableEq, Repr

namespace Key

/-- The key of a service in the agent's own datacenter. -/
def ofName (name : String) : Key := ⟨name, none⟩

/-- The key of a service in a datacenter; an empty datacenter is the agent's own. -/
def ofParts (name datacenter : String) : Key :=
  ⟨name, if datacenter = "" then none else some datacenter⟩

/-- The key as text: the name, with a hyphen and the datacenter where there is one. -/
def toText (k : Key) : String :=
  match k.datacenter with
  | some dc => k.name ++ "-" ++ dc
  | none => k.name

/-- The label between a service and its datacenter or domain. -/
def marker : List Char := ['.', 's', 'e', 'r', 'v', 'i', 'c', 'e']

/-- A text without `.<domain>` at its end. -/
def beforeDomain? (text domain : List Char) : Option (List Char) :=
  (Text.dropBack? domain text).bind (Text.dropBack? ['.'])

/-- The service name of `<name>.service`. -/
def localName? (s : List Char) : Option (List Char) :=
  (Text.dropBack? marker s).filter (· ≠ [])

/-- The service and the datacenter of `<name>.service.<datacenter>`, split at the last `.service.`.
-/
def remoteParts? (s : List Char) : Option (List Char × List Char) :=
  (Text.splitLast? (marker ++ ['.']) s).filter fun p => p.1 ≠ [] ∧ p.2 ≠ []

/-- The key that a qualified name denotes; none for any other text. -/
def qualified? (text domain : List Char) : Option (List Char × Option (List Char)) :=
  if domain = [] then none
  else
    (beforeDomain? text domain).bind fun s =>
      match localName? s with
      | some name => some (name, none)
      | none => (remoteParts? s).map fun p => (p.1, some p.2)

/-- The key that a name denotes under a registry domain. -/
def parse (text domain : String) : Key :=
  match qualified? text.toList domain.toList with
  | some (name, datacenter) => ⟨String.ofList name, datacenter.map String.ofList⟩
  | none => ofName text

/-- Keys compare by name and then by datacenter, none before any. -/
instance : Ord Key :=
  ⟨fun a b => (compare a.name b.name).then (compare a.datacenter b.datacenter)⟩

/-- Whether a key comes before another one or is equal to it. -/
def le (a b : Key) : Bool := (compare a b).isLE

/-- The keys in ascending order, repeats kept. -/
def sort (keys : List Key) : List Key := keys.mergeSort le

/-- The keys without repeats, the first occurrence of each kept. -/
def distinct (keys : List Key) : List Key :=
  keys.foldl (fun seen k => if k ∈ seen then seen else seen ++ [k]) []

/-- The text before the domain has a point and the domain behind it. -/
theorem beforeDomain?_eq_some_iff {text domain s : List Char} :
    beforeDomain? text domain = some s ↔ text = s ++ '.' :: domain := by
  simp only [beforeDomain?, Option.bind_eq_some_iff, Text.dropBack?_eq_some_iff]
  constructor
  · rintro ⟨_, rfl, rfl⟩
    rw [List.append_assoc, List.singleton_append]
  · rintro rfl
    exact ⟨s ++ ['.'], by rw [List.append_assoc, List.singleton_append], rfl⟩

/-- The name of `<name>.service` is what stands before the label. -/
theorem localName?_eq_some_iff {s name : List Char} :
    localName? s = some name ↔ name ≠ [] ∧ s = name ++ marker := by
  rw [localName?, Option.filter_eq_some_iff, Text.dropBack?_eq_some_iff, and_comm,
    decide_eq_true_iff]

/-- The parts of `<name>.service.<datacenter>` stand around the last label with points. -/
theorem remoteParts?_eq_some_iff {s name datacenter : List Char} :
    remoteParts? s = some (name, datacenter) ↔
      (name ≠ [] ∧ datacenter ≠ []) ∧ s = name ++ (marker ++ ['.']) ++ datacenter ∧
        ∀ front back, s = front ++ (marker ++ ['.']) ++ back → front.length ≤ name.length := by
  rw [remoteParts?, Option.filter_eq_some_iff, Text.splitLast?_eq_some_iff, and_comm,
    decide_eq_true_iff]

/-- The service of a qualified name is shorter than the name. -/
theorem length_of_qualified? {text domain name : List Char} {datacenter : Option (List Char)}
    (h : qualified? text domain = some (name, datacenter)) : name.length < text.length := by
  rw [qualified?] at h
  split at h
  · cases h
  · obtain ⟨s, hs, h⟩ := Option.bind_eq_some_iff.1 h
    rw [beforeDomain?_eq_some_iff.1 hs, List.length_append, List.length_cons]
    refine Nat.lt_of_le_of_lt ?_ (Nat.lt_add_of_pos_right (Nat.succ_pos _))
    split at h
    · next hlocal =>
      cases h
      rw [(localName?_eq_some_iff.1 hlocal).2, List.length_append]
      exact Nat.le_add_right _ _
    · obtain ⟨⟨a, b⟩, hremote, hab⟩ := Option.map_eq_some_iff.1 h
      cases hab
      rw [(remoteParts?_eq_some_iff.1 hremote).2.1, List.append_assoc, List.length_append]
      exact Nat.le_add_right _ _

/-- A name is the name of its own service exactly if it is not qualified. -/
theorem name_parse_eq_iff {text domain : String} :
    (parse text domain).name = text ↔ qualified? text.toList domain.toList = none := by
  rw [parse]
  split
  · next name datacenter hq =>
    have hlt := length_of_qualified? hq
    simp only [hq, reduceCtorEq, iff_false]
    rintro rfl
    rw [String.toList_ofList] at hlt
    exact Nat.lt_irrefl _ hlt
  · next hq => simp [ofName, hq]

end Key

end ServiceDiscovery
