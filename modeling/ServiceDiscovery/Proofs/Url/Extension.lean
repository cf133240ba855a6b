import ServiceDiscovery.Url.Path

/-!
# Paths extended by segments

A path that is extended by names holds its own segments and then, for each name, one segment that is
decoded to the name. This holds as long as the names are carried: a name of one or two dots is left
out, and tabs and line ends count for nothing in a name. A step adds one segment at most, so that
no later name makes up for one that is not carried.
-/

namespace ServiceDiscovery.Url

/-- A name that a path carries as one segment. -/
structure IsCarried (s : List Char) : Prop where
  ne_dot : s ≠ ['.']
  ne_dots : s ≠ ['.', '.']
  no_tabs : ∀ c ∈ s, c ≠ '\t' ∧ c ≠ '\n' ∧ c ≠ '\r'

instance (s : List Char) : Decidable (IsCarried s) :=
  decidable_of_iff (s ≠ ['.'] ∧ s ≠ ['.', '.'] ∧ dropTabs s = s)
    ⟨fun h => ⟨h.1, h.2.1, dropTabs_eq_self_iff.1 h.2.2⟩,
      fun h => ⟨h.1, h.2, dropTabs_eq_self_iff.2 h.3⟩⟩

/-- Nothing is dropped of a name that is carried. -/
theorem IsCarried.dropTabs_eq {s : List Char} (h : IsCarried s) : dropTabs s = s :=
  dropTabs_eq_self_iff.2 h.no_tabs

/-! ### Dots -/

private theorem of_isDotEscape {s : List Char} (h : isDotEscape s = true) :
    s = ['%', '2', 'e'] ∨ s = ['%', '2', 'E'] := by
  unfold isDotEscape at h
  split at h
  · simpa using h
  · cases h

/-- Whatever stands for one dot is decoded to it. -/
theorem decode_of_isSingleDot {s : List Char} (h : isSingleDot s = true) :
    Percent.decode s = Utf8.encode ['.'] := by
  rcases Bool.or_eq_true_iff.1 h with hdot | hescape
  · rw [beq_iff_eq.1 hdot]
    rfl
  · rcases of_isDotEscape hescape with rfl | rfl <;> rfl

/-- Whatever stands for two dots is decoded to them. -/
theorem decode_of_isDoubleDot {s : List Char} (h : isDoubleDot s = true) :
    Percent.decode s = Utf8.encode ['.', '.'] := by
  unfold isDoubleDot at h
  split at h
  · rw [Percent.decode_cons (by decide), decode_of_isSingleDot h]
    rfl
  · next a b c rest _ =>
    obtain ⟨hescape, hrest⟩ := Bool.and_eq_true_iff.1 h
    have hdot : Percent.decode (a :: b :: c :: rest) = 0x2E :: Percent.decode rest := by
      rcases of_isDotEscape hescape with he | he <;> cases he <;> rfl
    rw [hdot, decode_of_isSingleDot hrest]
    rfl
  · cases h

/-! ### One name -/

variable {kind : SchemeKind}

/-- The characters that are escaped in a segment. -/
def SchemeKind.segmentSet (kind : SchemeKind) : List Char :=
  if kind.isSpecial then Percent.specialSegmentSet else Percent.segmentSet

/-- The segment that carries a name. -/
def segmentOf (kind : SchemeKind) (name : List Char) : List Char :=
  Percent.encode kind.segmentSet name

/-- Percent signs and slashes are escaped in a segment. -/
theorem mem_segmentSet (kind : SchemeKind) : '%' ∈ kind.segmentSet ∧ '/' ∈ kind.segmentSet := by
  cases kind <;> decide

/-- A segment is decoded to the name that it carries. -/
theorem decode_segmentOf (kind : SchemeKind) (name : List Char) :
    Percent.decode (segmentOf kind name) = Utf8.encode name :=
  Percent.decode_encode (mem_segmentSet kind).1 name

private theorem not_mem_segmentOf (kind : SchemeKind) (name : List Char) :
    '/' ∉ segmentOf kind name := by
  intro h
  rcases Percent.of_mem_encode h with ⟨-, hplain⟩ | hescape | ⟨n, hn, hdigit⟩
  · simp [Percent.isEscaped, (mem_segmentSet kind).2] at hplain
  · exact absurd hescape (by decide)
  · have hno : ∀ n < 16, '/' ≠ Hex.upper n := by decide
    exact hno n hn hdigit

/-- The list that a path is extended from: the root is replaced by the first name. -/
def rooted (l : List (List Char)) : List (List Char) := if l = [[]] then [] else l

/-- What one name adds to a path. -/
theorem appendSegment_eq (hkind : kind ≠ .file) (l : List (List Char)) (s : List Char) :
    appendSegment kind l s =
      if s = ['.'] ∨ s = ['.', '.'] then l
      else if isDoubleDot (segmentOf kind (dropTabs s)) then shorten (rooted l) ++ [[]]
      else if isSingleDot (segmentOf kind (dropTabs s)) then rooted l ++ [[]]
      else rooted l ++ [segmentOf kind (dropTabs s)] := by
  simp only [appendSegment, dropEmptyFront_of_ne_file hkind, pushLast,
    normalizeDrive_of_ne_file hkind, segmentOf, SchemeKind.segmentSet, rooted]
  rfl

/-- A name that is carried adds its segment. -/
theorem appendSegment_of_isCarried (hkind : kind ≠ .file) {s : List Char} (hs : IsCarried s)
    (l : List (List Char)) : appendSegment kind l s = rooted l ++ [segmentOf kind s] := by
  have hdouble : isDoubleDot (segmentOf kind s) ≠ true := fun h => by
    have hbytes := decode_of_isDoubleDot h
    rw [decode_segmentOf] at hbytes
    exact hs.ne_dots (Utf8.encode_injective hbytes)
  have hsingle : isSingleDot (segmentOf kind s) ≠ true := fun h => by
    have hbytes := decode_of_isSingleDot h
    rw [decode_segmentOf] at hbytes
    exact hs.ne_dot (Utf8.encode_injective hbytes)
  rw [appendSegment_eq hkind, if_neg (not_or.2 ⟨hs.ne_dot, hs.ne_dots⟩), hs.dropTabs_eq,
    if_neg hdouble, if_neg hsingle]

private theorem decode_nil_iff {s : List Char} (hs : s ≠ ['.'] ∧ s ≠ ['.', '.'])
    (hdots : dropTabs s = ['.'] ∨ dropTabs s = ['.', '.']) :
    Percent.decode [] = Utf8.encode s ↔ IsCarried s := by
  refine iff_of_false (fun h => ?_) fun h => ?_
  · have hnil : s = [] := Utf8.encode_injective h.symm
    subst hnil
    rcases hdots with hdots | hdots <;> cases hdots
  · rw [h.dropTabs_eq] at hdots
    exact hdots.elim hs.1 hs.2

/-- A name lengthens a path by one segment at most, which is decoded to the name exactly if the name
is carried. -/
theorem appendSegment_cases (hkind : kind ≠ .file) (l : List (List Char)) (s : List Char) :
    (appendSegment kind l s).length ≤ l.length ∨
      ∃ x, appendSegment kind l s = l ++ [x] ∧
        (Percent.decode x = Utf8.encode s ↔ IsCarried s) := by
  rw [appendSegment_eq hkind]
  split
  · exact .inl (Nat.le_refl _)
  next hdots =>
  have hs : s ≠ ['.'] ∧ s ≠ ['.', '.'] := not_or.1 hdots
  by_cases hroot : l = [[]]
  · -- the root is replaced, so the path is not longer than before
    subst hroot
    refine .inl ?_
    split
    · exact Nat.le_refl _
    · split <;> exact Nat.le_refl _
  have hl : rooted l = l := if_neg hroot
  rw [hl]
  split
  · next hdouble =>
    have hbytes := decode_of_isDoubleDot hdouble
    rw [decode_segmentOf] at hbytes
    have hiff := decode_nil_iff hs (.inr (Utf8.encode_injective hbytes))
    rw [shorten]
    split
    · split
      · exact .inr ⟨[], rfl, hiff⟩
      · next last hlast _ =>
        refine .inl ?_
        have hpos : 0 < l.length := List.length_pos_iff.2 (by
          rintro rfl
          cases hlast)
        rw [List.length_append, List.length_dropLast, List.length_singleton]
        omega
    · next hnone =>
      rw [List.getLast?_eq_none_iff.1 hnone]
      exact .inr ⟨[], rfl, hiff⟩
  split
  · next hsingle =>
    have hbytes := decode_of_isSingleDot hsingle
    rw [decode_segmentOf] at hbytes
    exact .inr ⟨[], rfl, decode_nil_iff hs (.inl (Utf8.encode_injective hbytes))⟩
  · refine .inr ⟨_, rfl, ?_⟩
    rw [decode_segmentOf]
    exact ⟨fun h => ⟨hs.1, hs.2, dropTabs_eq_self_iff.1 (Utf8.encode_injective h)⟩,
      fun h => by rw [h.dropTabs_eq]⟩

/-! ### Many names -/

private theorem foldl_appendSegment (hkind : kind ≠ .file) {names : List (List Char)}
    (hnames : ∀ s ∈ names, IsCarried s) {l : List (List Char)} (hnil : l ≠ []) (hroot : l ≠ [[]]) :
    names.foldl (appendSegment kind) l = l ++ names.map (segmentOf kind) := by
  induction names generalizing l with
  | nil => simp
  | cons s names ih =>
    rw [List.forall_mem_cons] at hnames
    have hl : rooted l = l := if_neg hroot
    have hlong : l ++ [segmentOf kind s] ≠ [[]] := fun h => by
      have hlength := congrArg List.length h
      rw [List.length_append, List.length_singleton, List.length_singleton] at hlength
      exact hnil (List.eq_nil_of_length_eq_zero (by omega))
    rw [List.foldl_cons, appendSegment_of_isCarried hkind hnames.1, hl,
      ih hnames.2 (by simp) hlong, List.map_cons, List.append_assoc, List.singleton_append]

private theorem length_foldl_appendSegment_le (hkind : kind ≠ .file) (names l : List (List Char)) :
    (names.foldl (appendSegment kind) l).length ≤ l.length + names.length := by
  induction names generalizing l with
  | nil => exact Nat.le_refl _
  | cons s names ih =>
    have hrest := ih (appendSegment kind l s)
    rw [List.foldl_cons, List.length_cons]
    rcases appendSegment_cases hkind l s with hle | ⟨x, hx, -⟩
    · omega
    · rw [hx, List.length_append, List.length_singleton] at hrest
      rw [hx]
      omega

private theorem foldl_appendSegment_of_length (hkind : kind ≠ .file) (names : List (List Char))
    {l : List (List Char)}
    (h : (names.foldl (appendSegment kind) l).length = l.length + names.length) :
    ∃ segments, names.foldl (appendSegment kind) l = l ++ segments ∧
      (segments.map Percent.decode = names.map Utf8.encode ↔ ∀ s ∈ names, IsCarried s) := by
  induction names generalizing l with
  | nil => exact ⟨[], by simp⟩
  | cons s names ih =>
    rw [List.foldl_cons, List.length_cons] at h
    have hrest := length_foldl_appendSegment_le hkind names (appendSegment kind l s)
    rcases appendSegment_cases hkind l s with hle | ⟨x, hx, hiff⟩
    · omega
    · rw [hx] at h
      rw [List.foldl_cons, hx]
      obtain ⟨segments, hsegments, hall⟩ := ih (l := l ++ [x]) (by
        rw [h, List.length_append, List.length_singleton]
        omega)
      refine ⟨x :: segments, ?_, ?_⟩
      · rw [hsegments, List.append_assoc, List.singleton_append]
      · rw [List.map_cons, List.map_cons, List.cons.injEq, hiff, hall, List.forall_mem_cons]

/-! ### URLs -/

/-- The segments of a path without an empty one at its end; the root has none. -/
def Path.front (p : Path) : List String :=
  match p.popEmpty with
  | .segments list => if list = [""] then [] else list
  | .plain _ => []

/-- A URL that can be extended as web addresses are: it has an authority, its path is a list of
segments, and it is no local file. -/
structure IsBase (u : Url) : Prop where
  authority : u.authority.isSome
  path : ∃ list, u.path = .segments list
  kind : SchemeKind.ofScheme u.scheme ≠ .file

/-- The path of a URL leads from that of a base to some names: it holds the segments of the base
and then one segment for each name, which is decoded to it. -/
def LeadsTo (base : Url) (names : List String) (v : Url) : Prop :=
  ∃ segments, v.path = .segments (base.path.front ++ segments) ∧
    segments.map (fun s => Percent.decode s.toList) = names.map fun n => Utf8.encode n.toList

/-- The base with its path extended by the segments of names. -/
def carrying (base : Url) (names : List String) : Url :=
  { base with
    path := .segments (base.path.front ++
      names.map fun n => String.ofList (segmentOf (SchemeKind.ofScheme base.scheme) n.toList)) }

private theorem rooted_map_toList (l : List String) :
    rooted (l.map String.toList) = (if l = [""] then [] else l).map String.toList := by
  have hroot : l.map String.toList = [[]] ↔ l = [""] := by
    rw [show [[]] = [""].map String.toList from rfl]
    exact List.map_inj_right fun _ _ h => String.toList_inj.1 h
  rw [rooted]
  by_cases h : l = [""]
  · rw [if_pos (hroot.2 h), if_pos h, List.map_nil]
  · rw [if_neg (mt hroot.1 h), if_neg h]

variable {base : Url} {first : String} {names : List String}

private theorem IsBase.extend?_eq (h : base.IsBase) (hfirst : IsCarried first.toList)
    (names : List String) :
    base.extend? (first :: names) =
      some { base with
        path := .ofSegments ((names.map String.toList).foldl
          (appendSegment (SchemeKind.ofScheme base.scheme))
          (base.path.front.map String.toList ++
            [segmentOf (SchemeKind.ofScheme base.scheme) first.toList])) } := by
  obtain ⟨list, hlist⟩ := h.path
  simp only [extend?, hlist, Path.popEmpty, Path.front, List.foldl_cons, List.foldl_map]
  rw [appendSegment_of_isCarried h.kind hfirst, rooted_map_toList]

private theorem append_segmentOf_ne (hne : first ≠ "") (kind : SchemeKind)
    (l : List (List Char)) :
    l ++ [segmentOf kind first.toList] ≠ [] ∧ l ++ [segmentOf kind first.toList] ≠ [[]] := by
  refine ⟨by simp, fun h => hne ?_⟩
  have hlast : segmentOf kind first.toList ∈ [[]] := by
    rw [← h]
    simp
  have hbytes := decode_segmentOf kind first.toList
  rw [List.mem_singleton.1 hlast] at hbytes
  exact String.toList_eq_nil_iff.1 (Utf8.encode_injective hbytes.symm)

/-- Names that are carried extend a base by their segments. -/
theorem IsBase.extend?_of_isCarried (h : base.IsBase) (hfirst : IsCarried first.toList)
    (hne : first ≠ "") (hnames : ∀ n ∈ names, IsCarried n.toList) :
    base.extend? (first :: names) = some (base.carrying (first :: names)) := by
  have hall : ∀ s ∈ names.map String.toList, IsCarried s := by simpa using hnames
  obtain ⟨hnil, hroot⟩ := append_segmentOf_ne hne (SchemeKind.ofScheme base.scheme)
    (base.path.front.map String.toList)
  rw [h.extend?_eq hfirst, foldl_appendSegment h.kind hall hnil hroot, carrying, Path.ofSegments]
  simp [Function.comp_def]

/-- The path of a base with names leads to them. -/
theorem leadsTo_carrying (base : Url) (names : List String) :
    base.LeadsTo names (base.carrying names) :=
  ⟨_, rfl, by simp [Function.comp_def, decode_segmentOf]⟩

/-- A base that is extended by names leads to them exactly if they are carried. -/
theorem IsBase.leadsTo_iff (h : base.IsBase) (hfirst : IsCarried first.toList) (hne : first ≠ "")
    (names : List String) :
    ∃ v, base.extend? (first :: names) = some v ∧
      (base.LeadsTo (first :: names) v ↔ ∀ n ∈ names, IsCarried n.toList) := by
  refine ⟨_, h.extend?_eq hfirst names, fun hleads => ?_, fun hnames => ?_⟩
  · obtain ⟨segments, hpath, hdecode⟩ := hleads
    have hlist := Path.segments.inj hpath
    have hcount : segments.length = names.length + 1 := by
      simpa using congrArg List.length hdecode
    have hlength := congrArg List.length hlist
    rw [List.length_map, List.length_append, hcount] at hlength
    -- as long as can be, so each name has added one segment
    obtain ⟨xs, hxs, hall⟩ := foldl_appendSegment_of_length h.kind
      (names.map String.toList) (by
        rw [hlength]
        simp
        omega)
    have hsegments : segments =
        (segmentOf (SchemeKind.ofScheme base.scheme) first.toList :: xs).map String.ofList := by
      rw [hxs] at hlist
      simpa [Function.comp_def] using hlist.symm
    rw [hsegments] at hdecode
    have hnames := hall.1 (by simpa [Function.comp_def] using (List.cons.inj hdecode).2)
    simpa using hnames
  · have hcarried := h.extend?_of_isCarried hfirst hne hnames
    rw [h.extend?_eq hfirst] at hcarried
    rw [Option.some.inj hcarried]
    exact leadsTo_carrying base (first :: names)

/-- Different names extend a base to URLs with different texts. -/
theorem IsBase.names_eq_of_toText (h : base.IsBase) {names' : List String}
    (ht : (base.carrying names).toText = (base.carrying names').toText) : names = names' := by
  obtain ⟨a, ha⟩ := Option.isSome_iff_exists.1 h.authority
  simp only [toText, carrying, pathGuard, ha] at ht
  have hpath := (String.append_right_inj _).1
    ((String.append_left_inj _).1 ((String.append_left_inj _).1 ht))
  have hchars := congrArg String.toList hpath
  rw [Path.toList_toText_segments, Path.toList_toText_segments, List.map_append, List.map_append,
    List.flatMap_append, List.flatMap_append] at hchars
  have hfields := congrArg (Text.fields '/' ∘ ([] ++ ·)) (List.append_cancel_left hchars)
  simp only [Function.comp_apply] at hfields
  have hslash : ∀ names : List String, ∀ s ∈ (names.map fun n =>
      String.ofList (segmentOf (SchemeKind.ofScheme base.scheme) n.toList)).map String.toList,
      '/' ∉ s := by
    simp [not_mem_segmentOf]
  rw [Text.fields_append_flatMap List.not_mem_nil (hslash names),
    Text.fields_append_flatMap List.not_mem_nil (hslash names')] at hfields
  have hsegments := (List.cons.inj hfields).2
  have hbytes := congrArg (List.map Percent.decode) hsegments
  simp only [List.map_map, Function.comp_def, String.toList_ofList, decode_segmentOf] at hbytes
  exact (List.map_inj_right fun _ _ hb => String.toList_inj.1 (Utf8.encode_injective hb)).1 hbytes

end ServiceDiscovery.Url
