import Mathlib.Data.List.TakeDrop
import ServiceDiscovery.Url.Parser

/-!
# Paths and queries that are read as they are

A path and a query that were read have a normal form: nothing in them is left to be escaped, and the
segments of the path are no dots and hold no slashes. Read once more, what is normal stays as it is.
-/

namespace ServiceDiscovery.Url

variable {kind : SchemeKind}

/-! ### Segments -/

/-- Whether a character parts segments. -/
def IsSeparator (kind : SchemeKind) (c : Char) : Prop := c = '/' ∨ (kind.isSpecial ∧ c = '\\')

/-- A segment that is read as it is. -/
structure IsNormal (kind : SchemeKind) (s : List Char) : Prop where
  plain : ∀ c ∈ s, Percent.isEscaped Percent.pathSet c = false
  whole : ∀ c ∈ s, ¬ IsSeparator kind c
  not_dot : isSingleDot s = false
  not_dots : isDoubleDot s = false

/-- The empty segment is read as it is. -/
theorem isNormal_nil (kind : SchemeKind) : IsNormal kind [] := ⟨nofun, nofun, rfl, rfl⟩

private theorem not_isSeparator_of_mem_rawSegments {s f : List Char}
    (h : f ∈ rawSegments kind.isSpecial s) : ∀ c ∈ f, ¬ IsSeparator kind c := by
  induction s generalizing f with
  | nil =>
    cases List.mem_singleton.1 h
    exact nofun
  | cons c s ih =>
    rw [rawSegments] at h
    split at h
    · rcases List.mem_cons.1 h with rfl | h
      · exact nofun
      · exact ih h
    · next hc =>
      split at h
      · cases List.mem_singleton.1 h
        exact List.forall_mem_singleton.2 hc
      · next g rest hg =>
        rw [hg] at ih
        rcases List.mem_cons.1 h with rfl | h
        · exact List.forall_mem_cons.2 ⟨hc, ih List.mem_cons_self⟩
        · exact ih (List.mem_cons_of_mem g h)

private theorem rawSegments_of_whole {x : List Char} (hx : ∀ c ∈ x, ¬ IsSeparator kind c) :
    rawSegments kind.isSpecial x = [x] := by
  induction x with
  | nil => rfl
  | cons c x ih =>
    rw [List.forall_mem_cons] at hx
    have hc : ¬ (c = '/' ∨ (kind.isSpecial ∧ c = '\\')) := hx.1
    rw [rawSegments, if_neg hc, ih hx.2]

private theorem rawSegments_append {x : List Char} (hx : ∀ c ∈ x, ¬ IsSeparator kind c)
    (s : List Char) :
    rawSegments kind.isSpecial (x ++ '/' :: s) = x :: rawSegments kind.isSpecial s := by
  induction x with
  | nil => rw [List.nil_append, rawSegments, if_pos (.inl rfl)]
  | cons c x ih =>
    rw [List.forall_mem_cons] at hx
    have hc : ¬ (c = '/' ∨ (kind.isSpecial ∧ c = '\\')) := hx.1
    rw [List.cons_append, rawSegments, if_neg hc, ih hx.2]

private theorem rawSegments_append_flatMap {x : List Char} {rest : List (List Char)}
    (hx : ∀ c ∈ x, ¬ IsSeparator kind c) (hrest : ∀ y ∈ rest, ∀ c ∈ y, ¬ IsSeparator kind c) :
    rawSegments kind.isSpecial (x ++ rest.flatMap ('/' :: ·)) = x :: rest := by
  induction rest generalizing x with
  | nil => rw [List.flatMap_nil, List.append_nil, rawSegments_of_whole hx]
  | cons y rest ih =>
    rw [List.forall_mem_cons] at hrest
    rw [List.flatMap_cons, List.cons_append, rawSegments_append hx, ih hrest.1 hrest.2]

private theorem not_isSeparator_of_mem_encode {f : List Char}
    (h : ∀ c ∈ f, ¬ IsSeparator kind c) :
    ∀ c ∈ Percent.encode Percent.pathSet f, ¬ IsSeparator kind c := by
  intro c hc
  rcases Percent.of_mem_encode hc with ⟨hmem, -⟩ | rfl | ⟨n, hn, rfl⟩
  · exact h c hmem
  · rintro (hslash | ⟨-, hback⟩)
    · exact absurd hslash (by decide)
    · exact absurd hback (by decide)
  · have hdigit : ∀ n < 16, Hex.upper n ≠ '/' ∧ Hex.upper n ≠ '\\' := by decide
    rintro (hslash | ⟨-, hback⟩)
    · exact (hdigit n hn).1 hslash
    · exact (hdigit n hn).2 hback

private theorem isNormal_encode {s f : List Char} (h : f ∈ rawSegments kind.isSpecial s)
    (hdot : isSingleDot (Percent.encode Percent.pathSet f) = false)
    (hdots : isDoubleDot (Percent.encode Percent.pathSet f) = false) :
    IsNormal kind (Percent.encode Percent.pathSet f) where
  plain _ hc := Percent.not_escaped_of_mem_encode (by decide) hc
  whole := not_isSeparator_of_mem_encode (not_isSeparator_of_mem_rawSegments h)
  not_dot := hdot
  not_dots := hdots

/-! ### Lists of segments -/

private theorem mem_of_mem_shorten {done : List (List Char)} {x : List Char}
    (h : x ∈ shorten done) : x ∈ done := by
  rw [shorten] at h
  split at h
  · split at h
    · exact h
    · exact List.dropLast_subset _ h
  · cases h

private theorem isNormal_pushSegment (hkind : kind ≠ .file) {done : List (List Char)}
    (hdone : ∀ x ∈ done, IsNormal kind x) {s f : List Char}
    (hf : f ∈ rawSegments kind.isSpecial s) :
    ∀ x ∈ pushSegment kind done (Percent.encode Percent.pathSet f), IsNormal kind x := by
  intro x hx
  rw [pushSegment, normalizeDrive_of_ne_file hkind] at hx
  split at hx
  · exact hdone x (mem_of_mem_shorten hx)
  next hdots =>
  split at hx
  · exact hdone x hx
  next hdot =>
  rcases List.mem_append.1 hx with hx | hx
  · exact hdone x hx
  · cases List.mem_singleton.1 hx
    exact isNormal_encode hf (Bool.eq_false_iff.2 hdot) (Bool.eq_false_iff.2 hdots)

private theorem pushLast_cases (kind : SchemeKind) (done : List (List Char)) (s : List Char) :
    pushLast kind done s ≠ [] ∧
      ∀ x ∈ pushLast kind done s, x = [] ∨ x ∈ pushSegment kind done s := by
  rw [pushLast, pushSegment]
  split
  · exact ⟨by simp, fun x hx => by simpa [or_comm] using hx⟩
  split
  · exact ⟨by simp, fun x hx => by simpa [or_comm] using hx⟩
  · exact ⟨by simp, fun x hx => .inr hx⟩

private theorem exists_rawSegments (special : Bool) (s : List Char) :
    ∃ front last, rawSegments special s = front ++ [last] := by
  have hne : rawSegments special s ≠ [] := by
    cases s with
    | nil => exact List.cons_ne_nil _ _
    | cons c s =>
      rw [rawSegments]
      split
      · exact List.cons_ne_nil _ _
      · split <;> exact List.cons_ne_nil _ _
  exact ⟨_, _, (List.dropLast_concat_getLast hne).symm⟩

private theorem readSegments_eq (hkind : kind ≠ .file) {s last : List Char}
    {front : List (List Char)} (h : rawSegments kind.isSpecial s = front ++ [last]) :
    readSegments kind s =
      pushLast kind ((front.map (Percent.encode Percent.pathSet)).foldl (pushSegment kind) [])
        (Percent.encode Percent.pathSet last) := by
  simp [readSegments, h, dropEmptyFront_of_ne_file hkind]

/-- What is read of a path are normal segments, and one at least. -/
theorem isNormal_readSegments (hkind : kind ≠ .file) (s : List Char) :
    readSegments kind s ≠ [] ∧ ∀ x ∈ readSegments kind s, IsNormal kind x := by
  obtain ⟨front, last, hraw⟩ := exists_rawSegments kind.isSpecial s
  rw [readSegments_eq hkind hraw]
  have hlast : last ∈ rawSegments kind.isSpecial s := by simp [hraw]
  have hfront : ∀ f ∈ front, f ∈ rawSegments kind.isSpecial s := fun f hf => by simp [hraw, hf]
  -- the segments before any raw segment are normal, and those behind it, too
  have hdone : ∀ (l : List (List Char)) (done : List (List Char)), (∀ f ∈ l, f ∈ front) →
      (∀ x ∈ done, IsNormal kind x) →
      ∀ x ∈ (l.map (Percent.encode Percent.pathSet)).foldl (pushSegment kind) done,
        IsNormal kind x := by
    intro l
    induction l with
    | nil => exact fun _ _ h => h
    | cons f l ih =>
      intro done hl h
      rw [List.forall_mem_cons] at hl
      exact ih _ hl.2 (isNormal_pushSegment hkind h (hfront f hl.1))
  obtain ⟨hne, hcases⟩ := pushLast_cases kind
    ((front.map (Percent.encode Percent.pathSet)).foldl (pushSegment kind) [])
    (Percent.encode Percent.pathSet last)
  refine ⟨hne, fun x hx => ?_⟩
  rcases hcases x hx with rfl | hx
  · exact isNormal_nil kind
  · exact isNormal_pushSegment hkind (hdone front [] (fun _ h => h) nofun) hlast x hx

private theorem IsNormal.encode_eq {s : List Char} (h : IsNormal kind s) :
    Percent.encode Percent.pathSet s = s :=
  Percent.encode_of_not_escaped h.plain

private theorem IsNormal.push_eq {s : List Char} (h : IsNormal kind s) (hkind : kind ≠ .file)
    (done : List (List Char)) :
    pushSegment kind done s = done ++ [s] ∧ pushLast kind done s = done ++ [s] := by
  simp [pushSegment, pushLast, h.not_dot, h.not_dots, normalizeDrive_of_ne_file hkind]

/-- Normal segments are read as they are. -/
theorem readSegments_of_isNormal (hkind : kind ≠ .file) {x : List Char} {rest : List (List Char)}
    (h : ∀ y ∈ x :: rest, IsNormal kind y) :
    readSegments kind (x ++ rest.flatMap ('/' :: ·)) = x :: rest := by
  have hwhole := (List.forall_mem_cons (p := fun y => ∀ c ∈ y, ¬ IsSeparator kind c)).1
    fun y hy => (h y hy).whole
  have hraw := rawSegments_append_flatMap hwhole.1 hwhole.2
  rw [← List.dropLast_concat_getLast (List.cons_ne_nil x rest)] at hraw h ⊢
  generalize (x :: rest).dropLast = front, (x :: rest).getLast _ = last at hraw h ⊢
  rw [readSegments_eq hkind hraw]
  have hlast : IsNormal kind last := h last (by simp)
  have hfront : ∀ y ∈ front, IsNormal kind y := fun y hy => h y (by simp [hy])
  have hencode : front.map (Percent.encode Percent.pathSet) = front :=
    (List.map_congr_left fun y hy => (hfront y hy).encode_eq).trans (List.map_id front)
  have hfoldl : ∀ (l done : List (List Char)), (∀ y ∈ l, IsNormal kind y) →
      l.foldl (pushSegment kind) done = done ++ l := by
    intro l
    induction l with
    | nil => simp
    | cons y l ih =>
      intro done hl
      rw [List.forall_mem_cons] at hl
      rw [List.foldl_cons, (hl.1.push_eq hkind done).1, ih _ hl.2, List.append_assoc,
        List.singleton_append]
  rw [hencode, hfoldl front [] hfront, List.nil_append, hlast.encode_eq,
    (hlast.push_eq hkind front).2]

/-! ### Paths -/

/-- A path that is read as it is: normal segments, and one at least under a special scheme. -/
def IsNormalPath (kind : SchemeKind) (p : Path) : Prop :=
  ∃ list : List (List Char), p = .ofSegments list ∧ (∀ s ∈ list, IsNormal kind s) ∧
    (list = [] → kind.isSpecial = false)

/-- The path behind an authority is normal. -/
theorem isNormalPath_pathAfterAuthority (hkind : kind ≠ .file) (s : List Char) :
    IsNormalPath kind (pathAfterAuthority kind s) := by
  have hread (t : List Char) : IsNormalPath kind (.ofSegments (readSegments kind t)) :=
    ⟨_, rfl, (isNormal_readSegments hkind t).2,
      fun h => absurd h (isNormal_readSegments hkind t).1⟩
  cases s with
  | nil =>
    refine ⟨_, rfl, ?_, ?_⟩
    · split
      · exact List.forall_mem_singleton.2 (isNormal_nil kind)
      · exact nofun
    · split
      · nofun
      · next h => exact fun _ => Bool.eq_false_iff.2 h
  | cons c s =>
    rw [pathAfterAuthority]
    split
    · exact hread s
    · exact hread (c :: s)

private theorem toList_toText_ofSegments (list : List (List Char)) :
    (Path.ofSegments list).toText.toList = list.flatMap ('/' :: ·) := by
  simp [Path.ofSegments, Path.toList_toText_segments, Function.comp_def]

/-- Behind an authority a normal path is read back from its text. -/
theorem IsNormalPath.read_toText {p : Path} (h : IsNormalPath kind p) (hkind : kind ≠ .file) :
    pathAfterAuthority kind p.toText.toList = p := by
  obtain ⟨list, rfl, hnormal, hnil⟩ := h
  rw [toList_toText_ofSegments]
  cases list with
  | nil => simp [pathAfterAuthority, hnil rfl]
  | cons x rest =>
    rw [List.flatMap_cons, List.cons_append, pathAfterAuthority, if_pos (.inl rfl),
      readSegments_of_isNormal hkind hnormal]

/-- Nothing in the text of a normal path is escaped. -/
theorem IsNormalPath.plain {p : Path} (h : IsNormalPath kind p) :
    ∀ c ∈ p.toText.toList, Percent.isEscaped Percent.pathSet c = false := by
  obtain ⟨list, rfl, hnormal, -⟩ := h
  rw [toList_toText_ofSegments]
  intro c hc
  obtain ⟨s, hs, hc⟩ := List.mem_flatMap.1 hc
  rcases List.mem_cons.1 hc with rfl | hc
  · decide
  · exact (hnormal s hs).plain c hc

/-! ### Queries -/

/-- The characters that are escaped in a query. -/
def SchemeKind.querySet (kind : SchemeKind) : List Char :=
  if kind.isSpecial then Percent.specialQuerySet else Percent.querySet

/-- A query in which nothing is left to be escaped. -/
def IsNormalQuery (kind : SchemeKind) (q : String) : Prop :=
  ∀ c ∈ q.toList, Percent.isEscaped kind.querySet c = false

/-- A query behind its question mark, if there is one. -/
def queryText : Option String → List Char
  | some q => '?' :: q.toList
  | none => []

/-- A query that was read is normal. -/
theorem isNormalQuery_of_readQueryFragment {s : List Char} {q : String}
    (h : (readQueryFragment kind s).1 = some q) : IsNormalQuery kind q := by
  simp only [readQueryFragment] at h
  split at h
  · cases h
    intro c hc
    rw [String.toList_ofList] at hc
    exact Percent.not_escaped_of_mem_encode (by cases kind <;> decide) hc
  · cases h

private theorem span_append {p : Char → Bool} {s rest : List Char} (hs : ∀ c ∈ s, p c = true)
    (hrest : ∀ c ∈ rest.head?, p c = false) : (s ++ rest).span p = (s, rest) := by
  rw [List.span_eq_takeWhile_dropWhile, List.takeWhile_append_of_pos hs,
    List.dropWhile_append_of_pos hs]
  cases rest with
  | nil => simp
  | cons c rest => simp [hrest c rfl]

/-- A normal query is read as it is. -/
theorem readQueryFragment_queryText {query : Option String}
    (h : ∀ q, query = some q → IsNormalQuery kind q) :
    readQueryFragment kind (queryText query) = (query, none) := by
  cases query with
  | none => rfl
  | some q =>
    have hq := h q rfl
    have hhash : ∀ c ∈ queryText (some q), decide (c ≠ '#') = true := by
      refine List.forall_mem_cons.2 ⟨by decide, fun c hc => decide_eq_true ?_⟩
      rintro rfl
      have hescaped : Percent.isEscaped kind.querySet '#' = true := by cases kind <;> decide
      rw [hq '#' hc] at hescaped
      cases hescaped
    have hspan : (queryText (some q) ++ []).span (· ≠ '#') = (queryText (some q), []) :=
      span_append hhash nofun
    rw [List.append_nil] at hspan
    have hencode := Percent.encode_of_not_escaped hq
    rw [SchemeKind.querySet] at hencode
    simp only [readQueryFragment, hspan]
    simp only [queryText, hencode, String.ofList_toList]

/-- A text is cut between a path without escapes left to make and a query. -/
theorem cutPath_append_queryText {path : List Char}
    (h : ∀ c ∈ path, Percent.isEscaped Percent.pathSet c = false) (query : Option String) :
    cutPath (path ++ queryText query) = (path, queryText query) := by
  refine span_append (fun c hc => decide_eq_true ?_) ?_
  · have hplain := h c hc
    constructor <;> rintro rfl <;> exact absurd hplain (by decide)
  · cases query with
    | none => exact nofun
    | some q =>
      intro c hc
      cases hc
      decide

/-- A path without escapes left to make and a normal query hold no blanks. -/
theorem lt_toNat_of_mem_append {path : List Char}
    (h : ∀ c ∈ path, Percent.isEscaped Percent.pathSet c = false) {query : Option String}
    (hquery : ∀ q, query = some q → IsNormalQuery kind q) :
    ∀ c ∈ path ++ queryText query, 0x20 < c.toNat := by
  intro c hc
  rcases List.mem_append.1 hc with hc | hc
  · exact Percent.lt_toNat_of_not_escaped (by decide) (h c hc)
  · cases query with
    | none => cases hc
    | some q =>
      rcases List.mem_cons.1 hc with rfl | hc
      · decide
      · exact Percent.lt_toNat_of_not_escaped (by cases kind <;> decide) (hquery q rfl c hc)

end ServiceDiscovery.Url
