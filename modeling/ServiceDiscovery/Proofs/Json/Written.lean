import ServiceDiscovery.Json.Printer
import ServiceDiscovery.Json.Reader
import ServiceDiscovery.Proofs.Text.Utf8

/-!
# Reading what was written

The compact text of a value is read as this value, whatever its strings hold. Only numbers need a
condition: one that is kept as a spelling of its own could be spelled wrongly, so every number has
to be a natural one.
-/

namespace ServiceDiscovery.Json

/-- A value whose numbers are all natural. -/
inductive Value.IsExact : Value → Prop
  | null : IsExact .null
  | bool (b : Bool) : IsExact (.bool b)
  | natural (n : Nat) : IsExact (.natural n)
  | string (s : Text) : IsExact (.string s)
  | array {items : List Value} (h : ∀ v ∈ items, v.IsExact) : IsExact (.array items)
  | object {members : List (Text × Value)} (h : ∀ m ∈ members, m.2.IsExact) :
      IsExact (.object members)

/-- What may follow a value: nothing, or what parts or closes the items around it. -/
def Follows (s : List Symbol) : Prop :=
  s = [] ∨ ∃ c rest, s = some c :: rest ∧ (c = ',' ∨ c = ']' ∨ c = '\x7d')

/-- A written text as the reader takes it. -/
def symbols (s : List Char) : List Symbol := s.map some

@[simp]
theorem symbols_nil : symbols [] = [] := rfl

@[simp]
theorem symbols_cons (c : Char) (s : List Char) : symbols (c :: s) = some c :: symbols s := rfl

@[simp]
theorem symbols_append (s t : List Char) : symbols (s ++ t) = symbols s ++ symbols t :=
  List.map_append

@[simp]
theorem length_symbols (s : List Char) : (symbols s).length = s.length := List.length_map _

/-! ### Strings -/

private theorem unit?_control :
    ∀ n < 0x20, unit? '0' '0' (Hex.lower (n / 16)) (Hex.lower (n % 16)) = some n := by
  decide

private theorem readPieces_writeChar (c : Char) (s : List Symbol) :
    readPieces (symbols (writeChar c) ++ s) =
      (readPieces s).map fun p => (.char c :: p.1, p.2) := by
  rw [writeChar]
  split
  · next h => simp [h, readPieces, escaped?]
  split
  · next h => simp [h, readPieces, escaped?]
  split
  · next h => simp [h, readPieces, escaped?]
  split
  · next h => simp [h, readPieces, escaped?]
  split
  · next h => simp [h, readPieces, escaped?]
  split
  · next h => simp [h, readPieces, escaped?]
  split
  · next h => simp [h, readPieces, escaped?]
  split
  · next h =>
    have hpiece : Piece.ofUnit c.toNat = .char c := by
      rw [Piece.ofUnit, if_neg (by omega), Char.ofNat_toNat]
    simp [readPieces, unit?_control _ h, hpiece]
  · next hquote hslash _ _ _ _ _ hcontrol =>
    simp only [symbols_cons, symbols_nil, List.singleton_append]
    rw [readPieces, if_neg hcontrol]
    · exact hquote
    · exact fun _ _ _ _ _ _ => hslash
    · exact fun _ _ _ => hslash
    · exact hslash

private theorem readPieces_flatMap (s : List Char) (rest : List Symbol) :
    readPieces (symbols (s.flatMap writeChar) ++ some '"' :: rest) =
      some (s.map Piece.char, rest) := by
  induction s with
  | nil => simp [readPieces]
  | cons c s ih =>
    rw [List.flatMap_cons, symbols_append, List.append_assoc, readPieces_writeChar, ih]
    rfl

private theorem joinPieces?_char (s : List Char) : joinPieces? (s.map Piece.char) = some s := by
  induction s with
  | nil => rfl
  | cons c s ih => simp [joinPieces?, ih]

/-- A written string is read back after its opening quote. -/
theorem readString_writeText (s : Text) (rest : List Symbol) :
    ∃ body, symbols (writeText s) ++ rest = some '"' :: body ∧
      readString body = some (s, rest) := by
  cases s with
  | none => exact ⟨_, rfl, rfl⟩
  | some s =>
    refine ⟨symbols (s.toList.flatMap writeChar) ++ some '"' :: rest, by simp [writeText], ?_⟩
    simp [readString, readPieces_flatMap, joinPieces?_char]

/-! ### Numbers -/

private theorem Follows.head {s : List Symbol} (h : Follows s) :
    skipBlank s = s ∧ takeDigits s = ([], s) ∧ readFraction s = some ([], s) ∧
      readExponent s = some ([], s) := by
  obtain rfl | ⟨c, rest, rfl, rfl | rfl | rfl⟩ := h
  · exact ⟨rfl, rfl, rfl, rfl⟩
  all_goals exact ⟨rfl, rfl, rfl, rfl⟩

private theorem takeDigits_append {digits : List Char} (h : ∀ c ∈ digits, c.isDigit = true)
    {rest : List Symbol} (hrest : takeDigits rest = ([], rest)) :
    takeDigits (symbols digits ++ rest) = (digits, rest) := by
  induction digits with
  | nil => exact hrest
  | cons c digits ih =>
    have hc : (Decimal.digit? c).isSome := by
      rw [Decimal.digit?_of_isDigit (h c List.mem_cons_self)]
      rfl
    have hdigits := ih fun d hd => h d (List.mem_cons_of_mem c hd)
    simp [takeDigits, hc, hdigits]

private theorem readNumber_text (n : Nat) {rest : List Symbol} (h : Follows rest) :
    readNumber (symbols (Decimal.text n).toList ++ rest) = some (.natural n, rest) := by
  obtain ⟨-, hdigits, hfraction, hexponent⟩ := h.head
  have htake : takeDigits (symbols (Decimal.text n).toList ++ rest) =
      ((Decimal.text n).toList, rest) :=
    takeDigits_append (fun c hc => Decimal.isDigit_of_mem_text hc) hdigits
  obtain ⟨c, digits, hc⟩ := List.exists_cons_of_ne_nil (Decimal.text_ne_nil n)
  have hsign : c ≠ '-' := by
    rintro rfl
    exact absurd (Decimal.isDigit_of_mem_text (hc ▸ List.mem_cons_self)) (by decide)
  have hzero : c = '0' → digits = [] := by
    rintro rfl
    obtain rfl | hpos := Nat.eq_zero_or_pos n
    · cases hc
      rfl
    · exact absurd (hc ▸ rfl) (Decimal.head?_text_ne_zero hpos)
  have hvalue : Decimal.digits? (c :: digits) = some n := hc ▸ Decimal.digits?_text n
  rw [hc] at htake
  simp only [hc, symbols_cons, List.cons_append] at htake ⊢
  simpa [readNumber, hsign, htake, hfraction, hexponent, hvalue] using hzero

/-! ### Values -/

private theorem ne_of_isDigit {c d : Char} (hc : c.isDigit = true) (hd : d.isDigit = false) :
    c ≠ d := by
  rintro rfl
  rw [hc] at hd
  cases hd

private theorem exists_head {v : Value} (h : v.IsExact) (s : List Symbol) :
    skipBlank (symbols (write v) ++ s) = symbols (write v) ++ s ∧
      ∀ t, symbols (write v) ++ s ≠ some ']' :: t := by
  cases h with
  | null | array | object => exact ⟨rfl, nofun⟩
  | bool b => cases b <;> exact ⟨rfl, nofun⟩
  | string t =>
    obtain ⟨body, hbody, -⟩ := readString_writeText t s
    rw [write, hbody]
    exact ⟨rfl, nofun⟩
  | natural n =>
    obtain ⟨c, digits, hc⟩ := List.exists_cons_of_ne_nil (Decimal.text_ne_nil n)
    have hdigit : c.isDigit = true := Decimal.isDigit_of_mem_text (hc ▸ List.mem_cons_self)
    have hne : ∀ d, d.isDigit = false → c ≠ d := fun d hd => ne_of_isDigit hdigit hd
    rw [show write (Value.natural n) = c :: digits from hc]
    exact ⟨by simp [skipBlank, hne], by simp [hne]⟩

-- A value is read back from its text wherever the text stands, in twice as many steps as the text
-- has characters, and one more.
private def ReadsBack (v : Value) : Prop :=
  ∀ fuel rest, 2 * (write v).length + 1 ≤ fuel → Follows rest →
    readValue fuel (symbols (write v) ++ rest) = some (v, rest)

private theorem ReadsBack.of_succ {v : Value}
    (h : ∀ fuel rest, 2 * (write v).length ≤ fuel → Follows rest →
      readValue (fuel + 1) (symbols (write v) ++ rest) = some (v, rest)) : ReadsBack v := by
  intro fuel rest hfuel hrest
  obtain ⟨fuel, rfl⟩ : ∃ f, fuel = f + 1 := ⟨fuel - 1, by omega⟩
  exact h fuel rest (by omega) hrest

private theorem readItems_writeItems {items : List Value} (hne : items ≠ [])
    (h : ∀ v ∈ items, ReadsBack v) {fuel : Nat} (hfuel : 2 * (writeItems items).length + 2 ≤ fuel)
    (rest : List Symbol) :
    readItems fuel (symbols (writeItems items) ++ some ']' :: rest) = some (items, rest) := by
  induction items generalizing fuel with
  | nil => exact absurd rfl hne
  | cons v items ih =>
    obtain ⟨hv, hitems⟩ := List.forall_mem_cons.1 h
    obtain ⟨fuel, rfl⟩ : ∃ f, fuel = f + 1 := ⟨fuel - 1, by omega⟩
    cases items with
    | nil =>
      have hclosed : Follows (some ']' :: rest) := Or.inr ⟨_, _, rfl, by simp⟩
      rw [writeItems] at hfuel ⊢
      rw [readItems, hv fuel _ (by omega) hclosed]
      simp [hclosed.head.1]
    | cons w items =>
      have hparted :
          Follows (some ',' :: (symbols (writeItems (w :: items)) ++ some ']' :: rest)) :=
        Or.inr ⟨_, _, rfl, by simp⟩
      have htext : writeItems (v :: w :: items) = write v ++ ',' :: writeItems (w :: items) := by
        rw [writeItems]
        exact nofun
      rw [htext] at hfuel ⊢
      rw [List.length_append, List.length_cons] at hfuel
      rw [symbols_append, symbols_cons, List.append_assoc, List.cons_append, readItems,
        hv fuel _ (by omega) hparted]
      have hless : 2 * (writeItems (w :: items)).length + 2 ≤ fuel := by omega
      have hrest := ih nofun hitems hless
      simp [hparted.head.1, hrest]

private theorem readMembers_writeMembers {members : List (Text × Value)} (hne : members ≠ [])
    (h : ∀ m ∈ members, ReadsBack m.2) {fuel : Nat}
    (hfuel : 2 * (writeMembers members).length + 2 ≤ fuel) (rest : List Symbol) :
    readMembers fuel (symbols (writeMembers members) ++ some '\x7d' :: rest) =
      some (members, rest) := by
  induction members generalizing fuel with
  | nil => exact absurd rfl hne
  | cons m members ih =>
    obtain ⟨name, v⟩ := m
    obtain ⟨(hv : ReadsBack v), hmembers⟩ := List.forall_mem_cons.1 h
    obtain ⟨fuel, rfl⟩ : ∃ f, fuel = f + 1 := ⟨fuel - 1, by omega⟩
    have hcolon (s : List Symbol) : skipBlank (some ':' :: s) = some ':' :: s := rfl
    have hquote (s : List Symbol) : skipBlank (some '"' :: s) = some '"' :: s := rfl
    cases members with
    | nil =>
      have hclosed : Follows (some '\x7d' :: rest) := Or.inr ⟨_, _, rfl, by simp⟩
      rw [writeMembers, List.length_append, List.length_cons] at hfuel
      rw [writeMembers, symbols_append, symbols_cons, List.append_assoc, List.cons_append]
      obtain ⟨body, hbody, hname⟩ :=
        readString_writeText name (some ':' :: (symbols (write v) ++ some '\x7d' :: rest))
      rw [hbody, readMembers]
      simp [hquote, hname, hcolon, hv fuel _ (by omega) hclosed, hclosed.head.1]
    | cons w members =>
      have hparted :
          Follows (some ',' :: (symbols (writeMembers (w :: members)) ++ some '\x7d' :: rest)) :=
        Or.inr ⟨_, _, rfl, by simp⟩
      have htext : writeMembers ((name, v) :: w :: members) =
          writeText name ++ ':' :: (write v ++ ',' :: writeMembers (w :: members)) := by
        rw [writeMembers]
        · simp
        · exact nofun
      simp only [htext, List.length_append, List.length_cons] at hfuel
      obtain ⟨body, hbody, hname⟩ :=
        readString_writeText name (some ':' :: (symbols (write v) ++
          some ',' :: (symbols (writeMembers (w :: members)) ++ some '\x7d' :: rest)))
      have hless : 2 * (writeMembers (w :: members)).length + 2 ≤ fuel := by omega
      have hrest := ih nofun hmembers hless
      simp only [htext, symbols_append, symbols_cons, List.append_assoc, List.cons_append]
      rw [hbody, readMembers]
      simp [hquote, hname, hcolon, hv fuel _ (by omega) hparted, hparted.head.1, hrest]

private theorem readValue_array (fuel : Nat) {s : List Symbol} (hblank : skipBlank s = s)
    (hne : ∀ t, s ≠ some ']' :: t) :
    readValue (fuel + 1) (some '[' :: s) =
      (readItems fuel s).map fun p => (.array p.1, p.2) := by
  have hopen : skipBlank (some '[' :: s) = some '[' :: s := rfl
  rw [readValue, hopen]
  simp only [hblank, Char.reduceEq, if_false, if_true]

private theorem readValue_object (fuel : Nat) (s : List Symbol) :
    readValue (fuel + 1) (some '\x7b' :: some '"' :: s) =
      (readMembers fuel (some '"' :: s)).map fun p => (.object p.1, p.2) := by
  rfl

private theorem writeItems_cons (v : Value) (items : List Value) :
    ∃ s, writeItems (v :: items) = write v ++ s := by
  cases items with
  | nil => exact ⟨[], by simp [writeItems]⟩
  | cons w items =>
    refine ⟨',' :: writeItems (w :: items), ?_⟩
    rw [writeItems]
    exact nofun

private theorem writeMembers_cons (name : Text) (v : Value) (members : List (Text × Value)) :
    ∃ s, writeMembers ((name, v) :: members) = writeText name ++ s := by
  cases members with
  | nil => exact ⟨':' :: write v, by rw [writeMembers]⟩
  | cons w members =>
    refine ⟨':' :: write v ++ ',' :: writeMembers (w :: members), ?_⟩
    rw [writeMembers]
    · simp
    · exact nofun

private theorem Value.IsExact.readsBack {v : Value} (h : v.IsExact) : ReadsBack v := by
  induction h with
  | null => exact .of_succ fun _ _ _ _ => rfl
  | bool b => exact .of_succ fun _ _ _ _ => by cases b <;> rfl
  | natural n =>
    refine .of_succ fun fuel rest hfuel hrest => ?_
    obtain ⟨c, digits, hc⟩ := List.exists_cons_of_ne_nil (Decimal.text_ne_nil n)
    have hdigit : c.isDigit = true := Decimal.isDigit_of_mem_text (hc ▸ List.mem_cons_self)
    have hne : ∀ d, d.isDigit = false → c ≠ d := fun d hd => ne_of_isDigit hdigit hd
    have hread := readNumber_text n hrest
    have hblank := (exists_head (.natural n) rest).1
    rw [hc] at hread
    rw [show write (Value.natural n) = c :: digits from hc] at hblank ⊢
    simp only [symbols_cons, List.cons_append] at hread hblank ⊢
    simp [readValue, hblank, hne, hread, Value.natural]
  | string s =>
    refine .of_succ fun fuel rest hfuel hrest => ?_
    obtain ⟨body, hbody, hs⟩ := readString_writeText s rest
    rw [write, hbody]
    show (readString body).map _ = _
    rw [hs]
    rfl
  | @array items h ih =>
    refine .of_succ fun fuel rest hfuel hrest => ?_
    cases items with
    | nil => rfl
    | cons v items =>
      have hne : v :: items ≠ [] := nofun
      have hsize : 2 * (writeItems (v :: items)).length + 2 ≤ fuel := by
        simp only [write, List.cons_append, List.length_cons, List.length_append] at hfuel
        omega
      have hitems := readItems_writeItems hne ih hsize rest
      obtain ⟨s, hs⟩ := writeItems_cons v items
      obtain ⟨hblank, hclosed⟩ :=
        exists_head (h v List.mem_cons_self) (symbols s ++ some ']' :: rest)
      rw [← List.append_assoc, ← symbols_append, ← hs] at hblank hclosed
      have htext : symbols (write (.array (v :: items))) ++ rest =
          some '[' :: (symbols (writeItems (v :: items)) ++ some ']' :: rest) := by
        simp [write]
      rw [htext, readValue_array fuel hblank hclosed, hitems]
      rfl
  | @object members h ih =>
    refine .of_succ fun fuel rest hfuel hrest => ?_
    cases members with
    | nil => rfl
    | cons m members =>
      obtain ⟨name, v⟩ := m
      have hne : (name, v) :: members ≠ [] := nofun
      have hsize : 2 * (writeMembers ((name, v) :: members)).length + 2 ≤ fuel := by
        simp only [write, List.cons_append, List.length_cons, List.length_append] at hfuel
        omega
      have hmembers := readMembers_writeMembers hne ih hsize rest
      obtain ⟨s, hs⟩ := writeMembers_cons name v members
      obtain ⟨body, hbody, -⟩ := readString_writeText name (symbols s ++ some '\x7d' :: rest)
      rw [← List.append_assoc, ← symbols_append, ← hs] at hbody
      have htext : symbols (write (.object ((name, v) :: members))) ++ rest =
          some '\x7b' ::
            (symbols (writeMembers ((name, v) :: members)) ++ some '\x7d' :: rest) := by
        simp [write]
      rw [hbody] at hmembers
      rw [htext, hbody, readValue_object, hmembers]
      rfl

/-- The text of a value whose numbers are all natural is read as this value. -/
theorem read?_toText {v : Value} (h : v.IsExact) : read? v.toText = some v := by
  have hread := h.readsBack (2 * (symbols (write v)).length + 2) [] (by simp) (Or.inl rfl)
  rw [List.append_nil] at hread
  rw [read?, Value.toText, String.toList_ofList, readSymbols?, ← symbols, hread]
  rfl

/-- So are the bytes of its text. -/
theorem readBytes?_toText {v : Value} (h : v.IsExact) :
    readBytes? (Utf8.encode v.toText.toList) = some v := by
  rw [readBytes?, Utf8.scan_encode]
  exact read?_toText h

end ServiceDiscovery.Json
