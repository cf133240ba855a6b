import ServiceDiscovery.Proofs.Text.ByteOrder

/-!
# Reading what was encoded

The bytes of a text are read as its characters, and no gap is met. The range in which the second
byte of a character has to lie shuts out longer codes than needed, surrogates and what is beyond the
last character. No character has such a code, so its second byte always lies in its range.
-/

namespace ServiceDiscovery.Utf8

variable {b low high : UInt8} {s : List UInt8} {missing value n : Nat}

/-! ### Single bytes -/

private theorem toNat_ofNat {n : Nat} (h : n < 256) : (UInt8.ofNat n).toNat = n :=
  UInt8.toNat_ofNat_of_lt' h

private theorem lead_two (hb : b.toNat = n + 192) (hl : 2 ≤ n) (hn : n < 32) :
    lead b = ([], some ⟨1, n, 0x80, 0xBF⟩) := by
  rw [lead, hb, if_neg (by omega), if_neg (by omega), if_pos (by omega), Nat.add_sub_cancel]

private theorem lead_three (hb : b.toNat = n + 224) (hn : n < 16) :
    lead b =
      ([], some ⟨2, n, if n = 0 then 0xA0 else 0x80, if n = 13 then 0x9F else 0xBF⟩) := by
  have hvalue : n + 224 - 0xE0 = n := Nat.add_sub_cancel _ _
  rw [lead, hb, if_neg (by omega), if_neg (by omega), if_neg (by omega), hvalue]
  by_cases hzero : n = 0
  · subst hzero
    rfl
  by_cases hmid : n = 13
  · subst hmid
    rfl
  rw [if_neg (by omega), if_neg (by omega), if_pos (by omega), if_neg hzero, if_neg hmid]

private theorem lead_four (hb : b.toNat = n + 240) (hn : n ≤ 4) :
    lead b =
      ([], some ⟨3, n, if n = 0 then 0x90 else 0x80, if n = 4 then 0x8F else 0xBF⟩) := by
  have hvalue : n + 240 - 0xF0 = n := Nat.add_sub_cancel _ _
  rw [lead, hb, if_neg (by omega), if_neg (by omega), if_neg (by omega), if_neg (by omega),
    if_neg (by omega), if_neg (by omega), hvalue]
  by_cases hzero : n = 0
  · subst hzero
    rfl
  by_cases hfour : n = 4
  · subst hfour
    rfl
  rw [if_neg (by omega), if_pos (by omega), if_neg hzero, if_neg hfour]

private theorem scanFrom_open (hb : b.toNat = n + 128)
    (hrange : low.toNat ≤ n + 128 ∧ n + 128 ≤ high.toNat) :
    scanFrom (some ⟨missing + 2, value, low, high⟩) (b :: s) =
      scanFrom (some ⟨missing + 1, 64 * value + n, 0x80, 0xBF⟩) s := by
  rw [scanFrom, step]
  simp [UInt8.le_iff_toNat_le, hb, hrange]

private theorem scanFrom_last (hb : b.toNat = n + 128) (hn : n < 64) :
    scanFrom (some ⟨1, value, 0x80, 0xBF⟩) (b :: s) =
      some (Char.ofNat (64 * value + n)) :: scanFrom none s := by
  have hhigh : n ≤ 63 := by omega
  rw [scanFrom, step]
  simp [UInt8.le_iff_toNat_le, hb, hhigh]

private theorem scanFrom_lead {p : Partial} (h : lead b = ([], some p)) :
    scanFrom none (b :: s) = scanFrom (some p) s := by
  rw [scanFrom, step, h, List.nil_append]

/-! ### Characters and texts -/

/-- The bytes of a character are read as this character. -/
theorem scanFrom_encodeChar (c : Char) (s : List UInt8) :
    scanFrom none (String.utf8EncodeChar c ++ s) = some c :: scanFrom none s := by
  have hc := Char.ofNat_toNat c
  have hvalid : c.toNat < 0xD800 ∨ 0xDFFF < c.toNat := by
    rcases c.valid with h | h
    · exact .inl h
    · exact .inr h.1
  rcases encodeChar_cases c with ⟨hn, hs⟩ | ⟨hl, hn, hs⟩ | ⟨hl, hn, hs⟩ | ⟨hl, hn, hs⟩
  · rw [hs, List.singleton_append, scanFrom, step, lead, toNat_ofNat (by omega), if_pos hn, hc]
    rfl
  · have hlead := lead_two (n := c.toNat / 64) (toNat_ofNat (by omega)) (by omega) (by omega)
    rw [hs, List.cons_append, scanFrom_lead hlead, List.singleton_append,
      scanFrom_last (toNat_ofNat (by omega)) (by omega), Nat.div_add_mod, hc]
  · have hlead := lead_three (n := c.toNat / 4096) (toNat_ofNat (by omega)) (by omega)
    have hjoin : 64 * (64 * (c.toNat / 4096) + c.toNat / 64 % 64) + c.toNat % 64 = c.toNat := by
      omega
    rw [hs, List.cons_append, scanFrom_lead hlead, List.cons_append,
      scanFrom_open (toNat_ofNat (by omega)), List.singleton_append,
      scanFrom_last (toNat_ofNat (by omega)) (by omega), hjoin, hc]
    simp only [apply_ite UInt8.toNat, UInt8.reduceToNat]
    constructor <;> split <;> omega
  · have hlead := lead_four (n := c.toNat / 262144) (toNat_ofNat (by omega)) (by omega)
    have hjoin : 64 * (64 * (64 * (c.toNat / 262144) + c.toNat / 4096 % 64) + c.toNat / 64 % 64) +
        c.toNat % 64 = c.toNat := by
      omega
    have hthird : (0x80 : UInt8).toNat ≤ c.toNat / 64 % 64 + 128 ∧
        c.toNat / 64 % 64 + 128 ≤ (0xBF : UInt8).toNat := by
      simp only [UInt8.reduceToNat]
      omega
    rw [hs, List.cons_append, scanFrom_lead hlead, List.cons_append,
      scanFrom_open (toNat_ofNat (by omega)), List.cons_append,
      scanFrom_open (toNat_ofNat (by omega)) hthird, List.singleton_append,
      scanFrom_last (toNat_ofNat (by omega)) (by omega), hjoin, hc]
    simp only [apply_ite UInt8.toNat, UInt8.reduceToNat]
    constructor <;> split <;> omega

/-- The bytes of a text are read as its characters. -/
theorem scan_encode (s : List Char) : scan (encode s) = s.map some := by
  rw [scan, encode]
  induction s with
  | nil => rfl
  | cons c s ih => rw [List.flatMap_cons, scanFrom_encodeChar, ih, List.map_cons]

/-- Bytes spell a text if its characters are read and no gap is met. -/
theorem decode?_eq_some_iff {bytes : List UInt8} {s : List Char} :
    decode? bytes = some s ↔ scan bytes = s.map some := by
  rw [decode?]
  generalize scan bytes = l
  induction l generalizing s with
  | nil => cases s <;> simp
  | cons c l ih =>
    cases s <;> simp [List.mapM_cons, Option.bind_eq_some_iff, ih]

/-- The bytes of a text spell this text. -/
theorem decode?_encode (s : List Char) : decode? (encode s) = some s :=
  decode?_eq_some_iff.2 (scan_encode s)

/-- An ASCII character is its own byte. -/
theorem encodeChar_ascii {c : Char} (h : c.toNat < 128) :
    String.utf8EncodeChar c = [.ofNat c.toNat] := by
  rcases encodeChar_cases c with ⟨-, hc⟩ | ⟨hl, -⟩ | ⟨hl, -⟩ | ⟨hl, -⟩
  · exact hc
  all_goals omega

/-- The bytes of ASCII characters are these characters. -/
theorem encode_ascii {s : List UInt8} (h : ∀ b ∈ s, b.toNat < 128) :
    encode (s.map fun b => Char.ofNat b.toNat) = s := by
  induction s with
  | nil => rfl
  | cons b s ih =>
    obtain ⟨hb, hs⟩ := List.forall_mem_cons.1 h
    have hvalid : b.toNat.isValidChar := .inl (Nat.lt_trans hb (by decide))
    have hnat : (Char.ofNat b.toNat).toNat = b.toNat := by
      rw [Char.ofNat, dif_pos hvalid]
      rfl
    rw [List.map_cons, encode, List.flatMap_cons, ← encode, ih hs]
    rw [encodeChar_ascii (hnat.trans_lt hb), hnat, UInt8.ofNat_toNat, List.singleton_append]

/-! ### ASCII bytes among others -/

private theorem low_of_lead {p : Partial} (h : (lead b).2 = some p) : 128 ≤ p.low.toNat := by
  simp only [lead] at h
  split_ifs at h <;> cases h <;> simp

private theorem low_of_step {open? : Option Partial} {p : Partial}
    (h : (step open? b).2 = some p) : 128 ≤ p.low.toNat := by
  cases open? with
  | none => exact low_of_lead h
  | some q =>
    rw [step] at h
    split at h
    · simp only at h
      split at h
      · cases h
      · cases h
        simp
    · exact low_of_lead h

private theorem mem_step {open? : Option Partial} (hopen : ∀ p ∈ open?, 128 ≤ p.low.toNat)
    (hb : b.toNat < 128) : some (Char.ofNat b.toNat) ∈ (step open? b).1 := by
  have hlead : lead b = ([some (Char.ofNat b.toNat)], none) := by
    rw [lead, if_pos hb]
  cases open? with
  | none => simp [step, hlead]
  | some p =>
    have hlow := hopen p rfl
    have hout : ¬ (p.low ≤ b ∧ b ≤ p.high) := by
      rw [UInt8.le_iff_toNat_le]
      omega
    simp [step, if_neg hout, hlead]

private theorem mem_scan {s : List UInt8} (h : b ∈ s) (hb : b.toNat < 128) :
    some (Char.ofNat b.toNat) ∈ scan s := by
  rw [scan]
  have hopen : ∀ p ∈ (none : Option Partial), 128 ≤ p.low.toNat := nofun
  generalize (none : Option Partial) = open? at hopen ⊢
  induction s generalizing open? with
  | nil => cases h
  | cons a s ih =>
    rw [scanFrom, List.mem_append]
    rcases List.mem_cons.1 h with rfl | h
    · exact .inl (mem_step hopen hb)
    · exact .inr (ih h _ fun p hp => low_of_step hp)

/-- A text that is spelled by some bytes holds every ASCII character among them. -/
theorem mem_of_decode? {bytes : List UInt8} {s : List Char} (h : decode? bytes = some s) {c : Char}
    (hc : c.toNat < 128) (hb : .ofNat c.toNat ∈ bytes) : c ∈ s := by
  have hnat : (UInt8.ofNat c.toNat).toNat = c.toNat := toNat_ofNat (by omega)
  have hscan := mem_scan hb (hnat.trans_lt hc)
  rw [hnat, Char.ofNat_toNat, decode?_eq_some_iff.1 h, List.mem_map] at hscan
  obtain ⟨d, hd, he⟩ := hscan
  exact Option.some.inj he ▸ hd

end ServiceDiscovery.Utf8
