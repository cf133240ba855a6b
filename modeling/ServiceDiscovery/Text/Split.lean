/-!
# Cutting lists at marks

Total splitters on lists, used on the characters of names, addresses and URLs. Each is pinned
down by what the pieces concatenate to: `dropFront?` and `dropBack?` find a given front or back,
`splitFirst?` and `splitLast?` cut at the first or last occurrence of a mark, and `fields` cuts at
every occurrence of one separator.
-/

namespace ServiceDiscovery.Text

variable {α : Type} [DecidableEq α]

/-- What follows `front` in a list that starts with it. -/
def dropFront? : (front s : List α) → Option (List α)
  | [], s => some s
  | _ :: _, [] => none
  | a :: front, b :: s => if a = b then dropFront? front s else none

/-- What precedes `back` in a list that ends with it. -/
def dropBack? (back s : List α) : Option (List α) :=
  (dropFront? back.reverse s.reverse).map List.reverse

/-- The pieces before and after the first occurrence of `mark`. -/
def splitFirst? (mark : List α) : List α → Option (List α × List α)
  | [] => (dropFront? mark []).map fun rest => ([], rest)
  | c :: s =>
    match dropFront? mark (c :: s) with
    | some rest => some ([], rest)
    | none => (splitFirst? mark s).map fun p => (c :: p.1, p.2)

/-- The pieces before and after the last occurrence of `mark`. -/
def splitLast? (mark : List α) : List α → Option (List α × List α)
  | [] => (dropFront? mark []).map fun rest => ([], rest)
  | c :: s =>
    match splitLast? mark s with
    | some p => some (c :: p.1, p.2)
    | none => (dropFront? mark (c :: s)).map fun rest => ([], rest)

/-- The fields between the occurrences of `separator`; never the empty list. -/
def fields (separator : α) : List α → List (List α)
  | [] => [[]]
  | c :: s =>
    if c = separator then [] :: fields separator s
    else
      match fields separator s with
      | [] => [[c]]
      | f :: rest => (c :: f) :: rest

/-- The list without the leading elements that satisfy `p`. -/
def trimFront (p : α → Bool) (s : List α) : List α := s.dropWhile p

/-- The list without the trailing elements that satisfy `p`. -/
def trimBack (p : α → Bool) (s : List α) : List α := (s.reverse.dropWhile p).reverse

/-- The list without the leading and trailing elements that satisfy `p`. -/
def trim (p : α → Bool) (s : List α) : List α := trimBack p (trimFront p s)

/-- A front is found exactly when the list is that front and the rest. -/
theorem dropFront?_eq_some_iff {front s rest : List α} :
    dropFront? front s = some rest ↔ s = front ++ rest := by
  induction front generalizing s with
  | nil => simp [dropFront?, eq_comm]
  | cons a front ih =>
    cases s with
    | nil => simp [dropFront?]
    | cons b s =>
      by_cases h : a = b
      · simp [dropFront?, h, ih]
      · simp [dropFront?, h, Ne.symm h]

/-- A back is found exactly when the list is the rest and that back. -/
theorem dropBack?_eq_some_iff {back s rest : List α} :
    dropBack? back s = some rest ↔ s = rest ++ back := by
  simp only [dropBack?, Option.map_eq_some_iff, dropFront?_eq_some_iff]
  constructor
  · rintro ⟨r, h, rfl⟩
    have := congrArg List.reverse h
    simpa using this
  · rintro rfl
    exact ⟨rest.reverse, by simp, by simp⟩

/-- The pieces around the last mark make up the list. -/
theorem eq_append_of_splitLast? {mark s a b : List α} (h : splitLast? mark s = some (a, b)) :
    s = a ++ mark ++ b := by
  induction s generalizing a b with
  | nil =>
    obtain ⟨rest, hr, he⟩ := Option.map_eq_some_iff.1 h
    cases he
    simpa using dropFront?_eq_some_iff.1 hr
  | cons c s ih =>
    rw [splitLast?] at h
    split at h
    · next p hp =>
      cases h
      simpa using ih (a := p.1) (b := p.2) hp
    · obtain ⟨rest, hr, he⟩ := Option.map_eq_some_iff.1 h
      cases he
      simpa using dropFront?_eq_some_iff.1 hr

/-- A mark that a list holds is found from the back, too. -/
theorem splitLast?_isSome {mark s : List α} (h : mark <:+: s) : (splitLast? mark s).isSome := by
  obtain ⟨a, b, rfl⟩ := h
  rw [List.append_assoc]
  induction a with
  | nil =>
    rw [List.nil_append]
    have hdrop : dropFront? mark (mark ++ b) = some b := dropFront?_eq_some_iff.2 rfl
    cases hs : mark ++ b with
    | nil =>
      rw [hs] at hdrop
      simp [splitLast?, hdrop]
    | cons c s =>
      rw [hs] at hdrop
      cases h : splitLast? mark s <;> simp [splitLast?, h, hdrop]
  | cons c a ih =>
    obtain ⟨p, hp⟩ := Option.isSome_iff_exists.1 ih
    simp [splitLast?, hp]

/-- No occurrence of a mark begins behind the last one. -/
theorem length_le_of_splitLast? {mark s a b front back : List α}
    (h : splitLast? mark s = some (a, b)) (hs : s = front ++ mark ++ back) :
    front.length ≤ a.length := by
  induction s generalizing a b front with
  | nil =>
    have hfront : front = [] := by simp_all
    rw [hfront]
    exact Nat.zero_le _
  | cons c s ih =>
    cases front with
    | nil => exact Nat.zero_le _
    | cons d front =>
      obtain ⟨-, hrest⟩ := List.cons.inj hs
      have hin : mark <:+: s := ⟨front, back, hrest.symm⟩
      obtain ⟨p, hp⟩ := Option.isSome_iff_exists.1 (splitLast?_isSome hin)
      rw [splitLast?, hp] at h
      cases h
      exact Nat.succ_le_succ (ih (a := p.1) (b := p.2) hp hrest)

/-- The pieces around the last mark are those with the longest front. -/
theorem splitLast?_eq_some_iff {mark s a b : List α} :
    splitLast? mark s = some (a, b) ↔
      s = a ++ mark ++ b ∧
        ∀ front back, s = front ++ mark ++ back → front.length ≤ a.length := by
  constructor
  · exact fun h => ⟨eq_append_of_splitLast? h, fun _ _ hs => length_le_of_splitLast? h hs⟩
  · rintro ⟨rfl, hlast⟩
    have hin : mark <:+: a ++ mark ++ b := List.infix_append a mark b
    obtain ⟨⟨a', b'⟩, hp⟩ := Option.isSome_iff_exists.1 (splitLast?_isSome hin)
    have heq := eq_append_of_splitLast? hp
    have hlen : a.length = a'.length :=
      Nat.le_antisymm (length_le_of_splitLast? hp rfl) (hlast a' b' heq)
    rw [List.append_assoc, List.append_assoc] at heq
    obtain ⟨rfl, hback⟩ := List.append_inj heq hlen
    rw [hp, List.append_cancel_left hback]

/-- The fields of a list are never none at all. -/
theorem fields_ne_nil (separator : α) (s : List α) : fields separator s ≠ [] := by
  cases s with
  | nil => simp [fields]
  | cons c s =>
    rw [fields]
    split
    · simp
    · split <;> simp

/-- A mark of one element that a list does not hold is not found in it. -/
theorem splitLast?_eq_none {m : α} {s : List α} (h : m ∉ s) : splitLast? [m] s = none := by
  induction s with
  | nil => rfl
  | cons c s ih =>
    rw [List.mem_cons, not_or] at h
    simp [splitLast?, ih h.2, dropFront?, h.1]

/-- A list is cut at an element that does not come again. -/
theorem splitLast?_append {m : α} {b : List α} (h : m ∉ b) (a : List α) :
    splitLast? [m] (a ++ m :: b) = some (a, b) := by
  induction a with
  | nil => simp [splitLast?, splitLast?_eq_none h, dropFront?]
  | cons c a ih => simp [splitLast?, ih]

/-- Behind the last occurrence of an element it does not come again. -/
theorem not_mem_of_splitLast? {m : α} {s a b : List α} (h : splitLast? [m] s = some (a, b)) :
    m ∉ b := by
  intro hm
  obtain ⟨front, back, rfl⟩ := List.append_of_mem hm
  have hs : s = (a ++ m :: front) ++ [m] ++ back := by simp [eq_append_of_splitLast? h]
  have hle := length_le_of_splitLast? h hs
  rw [List.length_append, List.length_cons] at hle
  omega

/-- A list without the separator is one field. -/
theorem fields_of_not_mem {separator : α} {s : List α} (h : separator ∉ s) :
    fields separator s = [s] := by
  induction s with
  | nil => rfl
  | cons c s ih =>
    rw [List.mem_cons, not_or] at h
    simp [fields, ih h.2, Ne.symm h.1]

/-- The first field ends at the first separator. -/
theorem fields_append {separator : α} {s : List α} (h : separator ∉ s) (rest : List α) :
    fields separator (s ++ separator :: rest) = s :: fields separator rest := by
  induction s with
  | nil => simp [fields]
  | cons c s ih =>
    rw [List.mem_cons, not_or] at h
    simp [fields, ih h.2, Ne.symm h.1]

/-- Fields with the separator between them are found again. -/
theorem fields_append_flatMap {separator : α} {s : List α} {rest : List (List α)}
    (hs : separator ∉ s) (hrest : ∀ t ∈ rest, separator ∉ t) :
    fields separator (s ++ rest.flatMap (separator :: ·)) = s :: rest := by
  induction rest generalizing s with
  | nil => rw [List.flatMap_nil, List.append_nil, fields_of_not_mem hs]
  | cons t rest ih =>
    rw [List.forall_mem_cons] at hrest
    rw [List.flatMap_cons, List.cons_append, fields_append hs, ih hrest.1 hrest.2]

/-- The fields of a list with the separator between them make up the list. -/
theorem intercalate_fields (separator : α) (s : List α) :
    [separator].intercalate (fields separator s) = s := by
  induction s with
  | nil => rfl
  | cons c s ih =>
    rw [fields]
    split
    · next hc =>
      obtain ⟨f, rest, hf⟩ := List.exists_cons_of_ne_nil (fields_ne_nil separator s)
      rw [hf] at ih ⊢
      rw [hc, List.intercalate_cons_cons, ih]
      rfl
    · split
      · next hnil => exact absurd hnil (fields_ne_nil separator s)
      · next f rest hf =>
        rw [hf] at ih
        cases rest with
        | nil => simpa using ih
        | cons g rest =>
          rw [List.intercalate_cons_cons] at ih ⊢
          simp only [List.cons_append, ih]

/-- What holds of the separator and of all fields' elements holds of all elements. -/
theorem forall_mem_of_fields {m : α} {p : α → Prop} {s : List α} (hm : p m)
    (h : ∀ f ∈ fields m s, ∀ c ∈ f, p c) : ∀ c ∈ s, p c := by
  induction s with
  | nil => exact nofun
  | cons c s ih =>
    rw [fields] at h
    split at h
    · next hc =>
      refine List.forall_mem_cons.2 ⟨hc ▸ hm, ih fun f hf => h f (List.mem_cons_of_mem _ hf)⟩
    · split at h
      · next hnil => exact absurd hnil (fields_ne_nil m s)
      · next f rest hf =>
        rw [hf] at ih
        have hfirst := h (c :: f) List.mem_cons_self
        refine List.forall_mem_cons.2 ⟨hfirst c List.mem_cons_self, ih ?_⟩
        refine List.forall_mem_cons.2 ⟨fun x hx => hfirst x (List.mem_cons_of_mem c hx), ?_⟩
        exact fun g hg => h g (List.mem_cons_of_mem _ hg)

/-- The pieces around the first mark make up the list. -/
theorem eq_append_of_splitFirst? {mark s a b : List α} (h : splitFirst? mark s = some (a, b)) :
    s = a ++ mark ++ b := by
  induction s generalizing a b with
  | nil =>
    obtain ⟨rest, hr, he⟩ := Option.map_eq_some_iff.1 h
    cases he
    simpa using dropFront?_eq_some_iff.1 hr
  | cons c s ih =>
    rw [splitFirst?] at h
    split at h
    · next rest hr =>
      cases h
      simpa using dropFront?_eq_some_iff.1 hr
    · obtain ⟨p, hp, he⟩ := Option.map_eq_some_iff.1 h
      cases he
      simpa using ih (a := p.1) (b := p.2) hp

/-- A mark that a list holds is found. -/
theorem splitFirst?_isSome {mark s : List α} (h : mark <:+: s) : (splitFirst? mark s).isSome := by
  obtain ⟨a, b, rfl⟩ := h
  rw [List.append_assoc]
  induction a with
  | nil =>
    rw [List.nil_append]
    have hdrop : dropFront? mark (mark ++ b) = some b := dropFront?_eq_some_iff.2 rfl
    cases hs : mark ++ b with
    | nil =>
      rw [hs] at hdrop
      simp [splitFirst?, hdrop]
    | cons c s =>
      rw [hs] at hdrop
      simp [splitFirst?, hdrop]
  | cons c a ih =>
    rw [List.cons_append, splitFirst?]
    split
    · rfl
    · rwa [Option.isSome_map]

end ServiceDiscovery.Text
