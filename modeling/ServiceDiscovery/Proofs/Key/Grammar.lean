import ServiceDiscovery.Key

/-!
# The grammar of names

The forms in which a name can be qualified, said of whole texts, and the key that each form denotes.
A name is read exactly by these forms: every text denotes one key, the one that `parse` gives. Name,
datacenter and domain may hold points and the word `service` themselves. So a name that was written
from its parts is not always read back as these parts, but it is unless the datacenter, between two
points, shows one more `.service.`.
-/

namespace ServiceDiscovery.Key

/-- A text is `<name>.service.<domain>`. -/
structure IsLocal (text domain name : String) : Prop where
  domain_ne : domain ≠ ""
  name_ne : name ≠ ""
  text_eq : text = name ++ ".service." ++ domain

/-- A text is `<name>.service.<datacenter>.<domain>`, and before the domain no `.service.` begins
behind the one after the name. -/
structure IsRemote (text domain name datacenter : String) : Prop where
  domain_ne : domain ≠ ""
  name_ne : name ≠ ""
  datacenter_ne : datacenter ≠ ""
  text_eq : text = name ++ ".service." ++ datacenter ++ "." ++ domain
  last : ∀ front back, name ++ ".service." ++ datacenter = front ++ ".service." ++ back →
    front.length ≤ name.length

/-- The key that a text denotes under a domain. -/
inductive Denotes (text domain : String) : Key → Prop
  /-- A service in the agent's own datacenter; this form goes first. -/
  | ofLocal {name : String} (h : IsLocal text domain name) : Denotes text domain ⟨name, none⟩
  /-- A service in a datacenter that is named. -/
  | ofRemote {name datacenter : String} (hl : ∀ name, ¬ IsLocal text domain name)
      (h : IsRemote text domain name datacenter) : Denotes text domain ⟨name, some datacenter⟩
  /-- A text in neither form is the name of a service. -/
  | verbatim (hl : ∀ name, ¬ IsLocal text domain name)
      (hr : ∀ name datacenter, ¬ IsRemote text domain name datacenter) :
      Denotes text domain ⟨text, none⟩

/-! ### The forms as the reader finds them -/

private theorem toList_marker : ".service.".toList = marker ++ ['.'] := rfl

private theorem length_marker : marker.length = 8 := rfl

/-- A local name is found by taking the domain and then the label off. -/
theorem isLocal_iff {text domain name : String} :
    IsLocal text domain name ↔
      domain ≠ "" ∧
        (beforeDomain? text.toList domain.toList).bind localName? = some name.toList := by
  simp only [Option.bind_eq_some_iff, beforeDomain?_eq_some_iff, localName?_eq_some_iff]
  constructor
  · rintro ⟨hd, hn, rfl⟩
    refine ⟨hd, name.toList ++ marker, ?_, fun h => hn (String.toList_eq_nil_iff.1 h), rfl⟩
    simp [toList_marker]
  · rintro ⟨hd, s, ht, hn, rfl⟩
    refine ⟨hd, fun h => hn (String.toList_eq_nil_iff.2 h), String.toList_inj.1 ?_⟩
    simp [ht, toList_marker]

/-- A name with a datacenter is found by taking the domain off and cutting at the last label. -/
theorem isRemote_iff {text domain name datacenter : String} :
    IsRemote text domain name datacenter ↔
      domain ≠ "" ∧
        (beforeDomain? text.toList domain.toList).bind remoteParts? =
          some (name.toList, datacenter.toList) := by
  simp only [Option.bind_eq_some_iff, beforeDomain?_eq_some_iff, remoteParts?_eq_some_iff,
    ← toList_marker]
  constructor
  · rintro ⟨hd, hn, hdc, rfl, hlast⟩
    refine ⟨hd, (name ++ ".service." ++ datacenter).toList, by simp, ?_, by simp, ?_⟩
    · exact ⟨fun h => hn (String.toList_eq_nil_iff.1 h),
        fun h => hdc (String.toList_eq_nil_iff.1 h)⟩
    · intro front back h
      have hcut : name ++ ".service." ++ datacenter =
          String.ofList front ++ ".service." ++ String.ofList back :=
        String.toList_inj.1 (by simpa using h)
      simpa [String.length_toList] using hlast _ _ hcut
  · rintro ⟨hd, s, ht, ⟨hn, hdc⟩, rfl, hlast⟩
    refine ⟨hd, fun h => hn (String.toList_eq_nil_iff.2 h),
      fun h => hdc (String.toList_eq_nil_iff.2 h), String.toList_inj.1 (by simp [ht]), ?_⟩
    intro front back h
    have hcut := congrArg String.toList h
    simpa [String.length_toList] using hlast front.toList back.toList (by simpa using hcut)

private theorem IsLocal.unique {text domain name other : String} (h : IsLocal text domain name)
    (ho : IsLocal text domain other) : name = other := by
  have hname := (isLocal_iff.1 h).2
  rw [(isLocal_iff.1 ho).2] at hname
  exact (String.toList_inj.1 (Option.some.inj hname)).symm

private theorem IsRemote.unique {text domain name datacenter name' datacenter' : String}
    (h : IsRemote text domain name datacenter) (h' : IsRemote text domain name' datacenter') :
    name = name' ∧ datacenter = datacenter' := by
  have hparts := (isRemote_iff.1 h).2
  rw [(isRemote_iff.1 h').2] at hparts
  obtain ⟨hname, hdatacenter⟩ := Prod.mk.inj (Option.some.inj hparts)
  exact ⟨(String.toList_inj.1 hname).symm, (String.toList_inj.1 hdatacenter).symm⟩

/-- Under a domain, the local form is tried first and then the one with a datacenter. -/
theorem qualified?_eq {text domain : String} (hd : domain ≠ "") :
    qualified? text.toList domain.toList =
      (((beforeDomain? text.toList domain.toList).bind localName?).map fun n => (n, none)).or
        (((beforeDomain? text.toList domain.toList).bind remoteParts?).map fun p =>
          (p.1, some p.2)) := by
  rw [qualified?, if_neg fun h => hd (String.toList_eq_nil_iff.1 h)]
  cases beforeDomain? text.toList domain.toList with
  | none => rfl
  | some s =>
    simp only [Option.bind_some]
    cases localName? s <;> simp

/-- Every text denotes the key that is read from it. -/
theorem denotes_parse (text domain : String) : Denotes text domain (parse text domain) := by
  by_cases hd : domain = ""
  · have hnone : qualified? text.toList domain.toList = none := by simp [qualified?, hd]
    rw [parse, hnone]
    exact .verbatim (fun name h => h.domain_ne hd) fun name datacenter h => h.domain_ne hd
  · rw [parse, qualified?_eq hd]
    cases hlocal : (beforeDomain? text.toList domain.toList).bind localName? with
    | some name =>
      refine .ofLocal (isLocal_iff.2 ⟨hd, ?_⟩)
      rw [hlocal, String.toList_ofList]
    | none =>
      have hl : ∀ name, ¬ IsLocal text domain name := by
        intro name h
        rw [(isLocal_iff.1 h).2] at hlocal
        cases hlocal
      cases hremote : (beforeDomain? text.toList domain.toList).bind remoteParts? with
      | some parts =>
        refine .ofRemote hl (isRemote_iff.2 ⟨hd, ?_⟩)
        rw [hremote, String.toList_ofList, String.toList_ofList]
      | none =>
        refine .verbatim hl fun name datacenter h => ?_
        rw [(isRemote_iff.1 h).2] at hremote
        cases hremote

/-- A text denotes one key. -/
theorem Denotes.unique {text domain : String} {key other : Key} (h : Denotes text domain key)
    (ho : Denotes text domain other) : key = other := by
  cases h with
  | ofLocal h =>
    cases ho with
    | ofLocal ho => rw [h.unique ho]
    | ofRemote hl _ => exact absurd h (hl _)
    | verbatim hl _ => exact absurd h (hl _)
  | ofRemote hl h =>
    cases ho with
    | ofLocal ho => exact absurd ho (hl _)
    | ofRemote _ ho =>
      obtain ⟨hname, hdatacenter⟩ := h.unique ho
      rw [hname, hdatacenter]
    | verbatim _ hr => exact absurd h (hr _ _)
  | verbatim hl hr =>
    cases ho with
    | ofLocal ho => exact absurd ho (hl _)
    | ofRemote _ ho => exact absurd ho (hr _ _)
    | verbatim _ _ => rfl

/-- What is read from a text is what it denotes. -/
theorem parse_eq_iff {text domain : String} {key : Key} :
    parse text domain = key ↔ Denotes text domain key := by
  constructor
  · rintro rfl
    exact denotes_parse text domain
  · exact (denotes_parse text domain).unique

/-! ### Reading back what was written -/

private theorem ne_append_marker (name rest : String) : name ≠ name ++ ".service." ++ rest := by
  intro he
  have hlength := congrArg String.length he
  have hmarker : ".service.".length = 9 := rfl
  rw [String.length_append, String.length_append] at hlength
  omega

/-- A name is that of its own service exactly if it has neither form. -/
theorem name_parse_ne_iff {text domain : String} :
    (parse text domain).name ≠ text ↔
      (∃ name, IsLocal text domain name) ∨
        ∃ name datacenter, IsRemote text domain name datacenter := by
  cases hkey : parse text domain with
  | mk name datacenter =>
    cases parse_eq_iff.1 hkey with
    | ofLocal h =>
      have hne : name ≠ text := h.text_eq ▸ ne_append_marker name domain
      exact iff_of_true hne (Or.inl ⟨name, h⟩)
    | ofRemote _ h =>
      have hne : name ≠ text := by
        rw [h.text_eq, String.append_assoc, String.append_assoc]
        exact ne_append_marker name _
      exact iff_of_true hne (Or.inr ⟨name, _, h⟩)
    | verbatim hl hr =>
      refine iff_of_false (fun hne => hne rfl) ?_
      rintro (⟨name, h⟩ | ⟨name, datacenter, h⟩)
      · exact hl name h
      · exact hr name datacenter h

/-- A text denotes a service in a named datacenter by the second form only. -/
theorem denotes_some_iff {text domain name datacenter : String} :
    Denotes text domain ⟨name, some datacenter⟩ ↔
      (∀ name, ¬ IsLocal text domain name) ∧ IsRemote text domain name datacenter := by
  constructor
  · rintro (_ | ⟨hl, h⟩)
    exact ⟨hl, h⟩
  · rintro ⟨hl, h⟩
    exact .ofRemote hl h

private theorem rest_eq_of_length_lt {name rest front back : List Char}
    (hlt : name.length < front.length) (h : name ++ (marker ++ rest) = front ++ '.' :: back) :
    ∃ middle, rest = middle ++ '.' :: back := by
  rcases List.append_eq_append_iff.1 h with ⟨inner, rfl, hinner⟩ | ⟨inner, rfl, -⟩
  · obtain ⟨c, inner, rfl⟩ : ∃ c cs, inner = c :: cs :=
      List.exists_cons_of_ne_nil fun hnil => by simp [hnil] at hlt
    rcases List.append_eq_append_iff.1 hinner with ⟨middle, -, hrest⟩ | ⟨beyond, hmarker, hback⟩
    · exact ⟨middle, hrest⟩
    · cases beyond with
      | nil => exact ⟨[], hback.symm⟩
      | cons d beyond =>
        obtain ⟨rfl, -⟩ := List.cons.inj hback
        have hmem : '.' ∈ ['s', 'e', 'r', 'v', 'i', 'c', 'e'] := by
          rw [(List.cons.inj hmarker).2]
          exact List.mem_append_right inner List.mem_cons_self
        exact absurd hmem (by decide)
  · rw [List.length_append] at hlt
    omega

private theorem infix_iff {datacenter : List Char} :
    marker ++ ['.'] <:+: '.' :: (datacenter ++ ['.']) ↔
      (∃ front, '.' :: datacenter = front ++ marker) ∨
        ∃ front back, '.' :: datacenter = front ++ (marker ++ '.' :: back) := by
  constructor
  · rintro ⟨front, back, h⟩
    rcases List.eq_nil_or_concat back with rfl | ⟨back, c, rfl⟩
    · refine Or.inl ⟨front, ?_⟩
      have hpoint : ('.' :: datacenter) ++ ['.'] = front ++ marker ++ ['.'] := by simpa using h.symm
      exact List.append_cancel_right hpoint
    · refine Or.inr ⟨front, back, ?_⟩
      have hpoint : ('.' :: datacenter) ++ ['.'] = front ++ (marker ++ '.' :: back) ++ [c] := by
        simpa using h.symm
      exact List.append_inj_left' hpoint rfl
  · rintro (⟨front, h⟩ | ⟨front, back, h⟩)
    · exact ⟨front, [], by rw [← List.cons_append, h]; simp⟩
    · exact ⟨front, back ++ ['.'], by rw [← List.cons_append, h]; simp⟩

variable {name datacenter domain : String}

private theorem isLocal_written_iff (hd : domain ≠ "") :
    (∃ other, IsLocal (name ++ ".service." ++ datacenter ++ "." ++ domain) domain other) ↔
      ∃ front, '.' :: datacenter.toList = front ++ marker := by
  constructor
  · rintro ⟨other, h⟩
    have htext := congrArg String.toList h.text_eq
    have hpoint : (name.toList ++ (marker ++ '.' :: datacenter.toList)) ++ '.' :: domain.toList =
        (other.toList ++ '.' :: ['s', 'e', 'r', 'v', 'i', 'c', 'e']) ++ '.' :: domain.toList := by
      simpa [marker] using htext
    have hcut := List.append_cancel_right hpoint
    have hlt : name.toList.length < other.toList.length := by
      have hlength := congrArg List.length hcut
      simp only [List.length_append, List.length_cons, length_marker, List.length_nil] at hlength
      omega
    obtain ⟨middle, hmiddle⟩ := rest_eq_of_length_lt hlt hcut
    exact ⟨middle, hmiddle⟩
  · rintro ⟨front, h⟩
    refine ⟨String.ofList (name.toList ++ marker ++ front), hd, ?_, String.toList_inj.1 ?_⟩
    · intro hempty
      have := congrArg String.toList hempty
      simp [marker] at this
    · have hpoint : name.toList ++ marker ++ ('.' :: datacenter.toList) ++ '.' :: domain.toList =
          name.toList ++ marker ++ (front ++ marker) ++ '.' :: domain.toList := by rw [h]
      simpa [marker] using hpoint

private theorem last_written_iff (name datacenter : String) :
    (∀ front back, name ++ ".service." ++ datacenter = front ++ ".service." ++ back →
        front.length ≤ name.length) ↔
      ¬ ∃ front back, '.' :: datacenter.toList = front ++ (marker ++ '.' :: back) := by
  constructor
  · rintro hlast ⟨front, back, h⟩
    have hcut : name ++ ".service." ++ datacenter =
        String.ofList (name.toList ++ marker ++ front) ++ ".service." ++ String.ofList back := by
      refine String.toList_inj.1 ?_
      have hpoint : name.toList ++ marker ++ ('.' :: datacenter.toList) =
          name.toList ++ marker ++ (front ++ (marker ++ '.' :: back)) := by rw [h]
      simpa [marker] using hpoint
    have hle := hlast _ _ hcut
    rw [← String.length_toList, ← String.length_toList, String.toList_ofList, List.length_append,
      List.length_append, length_marker] at hle
    omega
  · intro hno front back h
    refine Nat.le_of_not_lt fun hlt => hno ?_
    have htext := congrArg String.toList h
    have hcut : name.toList ++ (marker ++ '.' :: datacenter.toList) = front.toList ++
        '.' :: (['s', 'e', 'r', 'v', 'i', 'c', 'e', '.'] ++ back.toList) := by
      simpa [marker] using htext
    rw [← String.length_toList, ← String.length_toList] at hlt
    obtain ⟨middle, hmiddle⟩ := rest_eq_of_length_lt hlt hcut
    exact ⟨middle, back.toList, by simpa [marker] using hmiddle⟩

/-- Names are read by their forms alone, and each form only under a domain that is not empty; a
datacenter is never the empty text. A local name that was written from its parts is always read back
as these parts. A name with a datacenter is if and only if the datacenter, put between two points,
does not show `.service.`. -/
theorem parse_by_form :
    (∀ text domain key, parse text domain = key ↔ Denotes text domain key) ∧
    (∀ text domain, (parse text domain).name ≠ text ↔
      (∃ name, IsLocal text domain name) ∨
        ∃ name datacenter, IsRemote text domain name datacenter) ∧
    (∀ text, parse text "" = ofName text) ∧
    (∀ text domain, (parse text domain).datacenter ≠ some "") ∧
    (∀ name domain, name ≠ "" → domain ≠ "" →
      parse (name ++ ".service." ++ domain) domain = ofName name) ∧
    (∀ name datacenter domain, name ≠ "" → datacenter ≠ "" → domain ≠ "" →
      (parse (name ++ ".service." ++ datacenter ++ "." ++ domain) domain =
          ⟨name, some datacenter⟩ ↔
        ¬ ".service.".toList <:+: ("." ++ datacenter ++ ".").toList)) := by
  refine ⟨fun _ _ _ => parse_eq_iff, fun _ _ => name_parse_ne_iff, fun text => ?_,
    fun text domain h => ?_, fun name domain hn hd => ?_,
    fun name datacenter domain hn hdc hd => ?_⟩
  · exact parse_eq_iff.2 (.verbatim (fun _ h => h.domain_ne rfl) fun _ _ h => h.domain_ne rfl)
  · cases hkey : parse text domain with
    | mk name datacenter =>
      rw [hkey] at h
      cases h
      exact (denotes_some_iff.1 (parse_eq_iff.1 hkey)).2.datacenter_ne rfl
  · exact parse_eq_iff.2 (.ofLocal ⟨hd, hn, rfl⟩)
  · have hshown : ("." ++ datacenter ++ ".").toList = '.' :: (datacenter.toList ++ ['.']) := by simp
    rw [parse_eq_iff, denotes_some_iff, ← not_exists, isLocal_written_iff hd, hshown, toList_marker,
      infix_iff, not_or, ← last_written_iff name datacenter]
    exact and_congr_right' ⟨fun h => h.last, fun h => ⟨hd, hn, hdc, rfl, h⟩⟩

/-- A datacenter that begins with the word is read back as long as no point follows the word; one
that shows the label between points is cut at it. -/
theorem parse_by_form_west :
    parse "web.service.services.west.consul" "consul" = ⟨"web", some "services.west"⟩ ∧
      ¬ ".service.".toList <:+: ("." ++ "services.west" ++ ".").toList ∧
      parse "web.service.eu.service.west.consul" "consul" = ⟨"web.service.eu", some "west"⟩ ∧
      ".service.".toList <:+: ("." ++ "eu.service.west" ++ ".").toList := by
  obtain ⟨-, -, -, -, -, hwritten⟩ := parse_by_form
  have hkept : parse "web.service.services.west.consul" "consul" =
      ⟨"web", some "services.west"⟩ := by decide
  have hcut : parse "web.service.eu.service.west.consul" "consul" =
      ⟨"web.service.eu", some "west"⟩ := by decide
  refine ⟨hkept, (hwritten "web" "services.west" "consul" ?_ ?_ ?_).1 hkept, hcut, ?_⟩
  · decide
  · decide
  · decide
  · refine Decidable.not_not.1 fun hn => ?_
    have hread := (hwritten "web" "eu.service.west" "consul" (by decide) (by decide)
      (by decide)).2 hn
    exact absurd (hread.symm.trans hcut) (by decide)

end ServiceDiscovery.Key
