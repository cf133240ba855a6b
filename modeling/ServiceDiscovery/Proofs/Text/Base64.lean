import ServiceDiscovery.Proofs.Text.Utf8
import ServiceDiscovery.Text.Base64

/-!
# Base64 texts and their bytes

A text is decoded exactly if it is what is written for some bytes, and then to these bytes: whole
groups of four symbols stand for three bytes each, and the last group, which may be padded, for one
to three. So padding that is missing or stands too early, bits that belong to no byte, blanks and
other alphabets are all refused.
-/

namespace ServiceDiscovery.Base64

variable {start offset i n : Nat} {bytes s : List UInt8} {t t' : Tail}

private theorem bind_eq_ok_iff {α β : Type} {x : Except Fault α} {f : α → Except Fault β} {b : β} :
    x >>= f = .ok b ↔ ∃ a, x = .ok a ∧ f a = .ok b := by
  cases x <;> simp [bind, Except.bind]

/-! ### Symbols -/

/-- A byte is the symbol of its value. -/
theorem value?_eq_some_iff {b : UInt8} : value? b = some n ↔ n < 64 ∧ b = symbol n := by
  constructor
  · intro h
    have hall : ∀ m < 256, ∀ n ∈ value? (.ofNat m), n < 64 ∧ UInt8.ofNat m = symbol n := by
      decide +kernel
    have hb := hall b.toNat b.toNat_lt
    rw [UInt8.ofNat_toNat] at hb
    exact hb n h
  · rintro ⟨hn, rfl⟩
    have hall : ∀ m < 64, value? (symbol m) = some m := by decide
    exact hall n hn

private theorem symbol_ne_pad (h : n < 64) : symbol n ≠ pad := by
  have hall : ∀ m < 64, symbol m ≠ pad := by decide
  exact hall n h

/-- A byte has a value exactly if it is a symbol. -/
theorem valueAt_eq_ok_iff {b : UInt8} : valueAt b offset = .ok n ↔ n < 64 ∧ b = symbol n := by
  rw [← value?_eq_some_iff, valueAt]
  cases value? b <;> simp

/-! ### Whole groups -/

/-- The first three bytes are written as a group of their own. -/
theorem encode_cons (x y z : UInt8) (bytes : List UInt8) :
    encode (x :: y :: z :: bytes) = encode [x, y, z] ++ encode bytes := rfl

private theorem encode_eq_nil_iff : encode bytes = [] ↔ bytes = [] := by
  match bytes with
  | [] | [_] | [_, _] | _ :: _ :: _ :: _ => simp [encode]

/-- Every three bytes, and what is left of them, are written as four. -/
theorem length_encode (bytes : List UInt8) :
    (encode bytes).length = 4 * ((bytes.length + 2) / 3) := by
  induction bytes using encode.induct with
  | case1 => rfl
  | case2 => simp [encode]
  | case3 => simp [encode]
  | case4 x y z bytes ih =>
    rw [encode_cons, List.length_append, ih]
    simp only [encode, List.length_cons, List.length_nil]
    omega

private theorem encode_three {w x y z : Nat} (hw : w < 64) (hx : x < 64) (hy : y < 64)
    (hz : z < 64) {n : Nat} (hn : ((w * 64 + x) * 64 + y) * 64 + z = n) :
    encode [.ofNat (n / 65536), .ofNat (n / 256 % 256), .ofNat (n % 256)] =
      [symbol w, symbol x, symbol y, symbol z] := by
  have hbytes : ((UInt8.ofNat (n / 65536)).toNat * 256 + (UInt8.ofNat (n / 256 % 256)).toNat) *
      256 + (UInt8.ofNat (n % 256)).toNat = n := by
    simp only [UInt8.toNat_ofNat']
    omega
  simp only [encode, hbytes]
  congr
  · omega
  · omega
  · omega
  · omega

private theorem split_bytes (x y z : UInt8) {n : Nat}
    (hn : (x.toNat * 256 + y.toNat) * 256 + z.toNat = n) :
    n / 262144 < 64 ∧ ((n / 262144 * 64 + n / 4096 % 64) * 64 + n / 64 % 64) * 64 + n % 64 = n ∧
      n / 65536 = x.toNat ∧ n / 256 % 256 = y.toNat ∧ n % 256 = z.toNat := by
  have hx := x.toNat_lt
  have hy := y.toNat_lt
  have hz := z.toNat_lt
  refine ⟨?_, ?_, ?_, ?_, ?_⟩ <;> omega

/-- A whole group is decoded exactly if it is written for three bytes, and then to these. -/
theorem decodeGroup_eq_ok_iff {a b c d : UInt8} :
    decodeGroup a b c d offset = .ok bytes ↔
      ∃ x y z, bytes = [x, y, z] ∧ [a, b, c, d] = encode [x, y, z] := by
  simp only [decodeGroup, bind_eq_ok_iff, valueAt_eq_ok_iff]
  constructor
  · rintro ⟨w, ⟨hw, rfl⟩, x, ⟨hx, rfl⟩, y, ⟨hy, rfl⟩, z, ⟨hz, rfl⟩, h⟩
    cases h
    exact ⟨_, _, _, rfl, (encode_three hw hx hy hz rfl).symm⟩
  · rintro ⟨x, y, z, rfl, h⟩
    simp only [encode, List.cons.injEq] at h
    obtain ⟨rfl, rfl, rfl, rfl, -⟩ := h
    generalize hn : (x.toNat * 256 + y.toNat) * 256 + z.toNat = n
    obtain ⟨hlt, hjoin, hx, hy, hz⟩ := split_bytes x y z hn
    refine ⟨_, ⟨hlt, rfl⟩, _, ⟨by omega, rfl⟩, _, ⟨by omega, rfl⟩, _, ⟨by omega, rfl⟩, ?_⟩
    simp [hjoin, hx, hy, hz, pure, Except.pure]

/-! ### The last group -/

private theorem readTail_symbol (hn : n < 64) (values : List Nat) (last : UInt8) :
    readTail start i ⟨values, last, 0⟩ (symbol n :: s) =
      readTail start (i + 1) ⟨values ++ [n], symbol n, 0⟩ s := by
  have hvalue : valueAt (symbol n) (start + i) = .ok n := valueAt_eq_ok_iff.2 ⟨hn, rfl⟩
  rw [readTail, if_neg (symbol_ne_pad hn), if_neg (by simp), hvalue]

private theorem readTail_pad (hi : 2 ≤ i) :
    readTail start i t (pad :: s) = readTail start (i + 1) { t with pads := t.pads + 1 } s := by
  rw [readTail, if_pos rfl, if_neg (Nat.not_lt.2 hi)]

private theorem pads_of_readTail (hp : 0 < t.pads) (h : readTail start i t s = .ok t') :
    ∃ k, s = List.replicate k pad ∧ t'.values = t.values ∧ t'.pads = t.pads + k := by
  induction s generalizing i t with
  | nil =>
    cases h
    exact ⟨0, rfl, rfl, rfl⟩
  | cons b s ih =>
    rw [readTail] at h
    by_cases hb : b = pad
    · rw [if_pos hb] at h
      split at h
      · cases h
      · obtain ⟨k, hs, hvalues, hpads⟩ := ih (Nat.succ_pos _) h
        refine ⟨k + 1, ?_, hvalues, ?_⟩
        · rw [hb, hs, List.replicate_succ]
        · rw [hpads]
          exact Nat.add_right_comm _ _ _
    · rw [if_neg hb, if_pos hp] at h
      cases h

private theorem symbols_of_readTail (hp : t.pads = 0) (h : readTail start i t s = .ok t') :
    ∃ values, (∀ n ∈ values, n < 64) ∧ t'.values = t.values ++ values ∧
      s = values.map symbol ++ List.replicate t'.pads pad := by
  induction s generalizing i t with
  | nil =>
    cases h
    refine ⟨[], nofun, (List.append_nil _).symm, ?_⟩
    rw [hp]
    rfl
  | cons b s ih =>
    rw [readTail] at h
    by_cases hb : b = pad
    · rw [if_pos hb] at h
      split at h
      · cases h
      · obtain ⟨k, hs, hvalues, hpads⟩ := pads_of_readTail (Nat.succ_pos _) h
        refine ⟨[], nofun, hvalues.trans (List.append_nil _).symm, ?_⟩
        rw [hb, hs, hpads, hp, Nat.zero_add, Nat.add_comm]
        rfl
    · rw [if_neg hb, if_neg (by omega)] at h
      split at h
      · next n hn =>
        obtain ⟨hlt, rfl⟩ := valueAt_eq_ok_iff.1 hn
        obtain ⟨values, hall, hvalues, hs⟩ := ih (t := ⟨t.values ++ [n], symbol n, t.pads⟩) hp h
        refine ⟨n :: values, List.forall_mem_cons.2 ⟨hlt, hall⟩, ?_, ?_⟩
        · rw [hvalues, List.append_assoc]
          rfl
        · rw [hs]
          rfl
      · cases h

private theorem encode_one {w x : Nat} (hw : w < 64) (hx : x < 64) (hrest : x % 16 = 0) :
    encode [.ofNat (w * 4 + x / 16)] = [symbol w, symbol x, pad, pad] := by
  have hbyte : (UInt8.ofNat (w * 4 + x / 16)).toNat * 16 = w * 64 + x := by
    rw [UInt8.toNat_ofNat']
    omega
  simp only [encode, hbyte]
  congr
  · omega
  · omega

private theorem encode_two {w x y : Nat} (hw : w < 64) (hx : x < 64) (hy : y < 64)
    (hrest : y % 4 = 0) {n : Nat} (hn : (w * 64 + x) * 64 + y = n) :
    encode [.ofNat (n / 1024), .ofNat (n / 4 % 256)] = [symbol w, symbol x, symbol y, pad] := by
  have hbytes : ((UInt8.ofNat (n / 1024)).toNat * 256 + (UInt8.ofNat (n / 4 % 256)).toNat) * 4 =
      n := by
    simp only [UInt8.toNat_ofNat']
    omega
  simp only [encode, hbytes]
  congr
  · omega
  · omega
  · omega

private theorem eq_encode_of_decodeTail (hlen : s.length ≤ 4) (h : decodeTail start s = .ok bytes) :
    s = encode bytes := by
  rw [decodeTail, bind_eq_ok_iff] at h
  obtain ⟨t, ht, h⟩ := h
  obtain ⟨values, hall, hvalues, hs⟩ := symbols_of_readTail rfl ht
  rw [hvalues, List.nil_append] at h
  subst hs
  rcases values with _ | ⟨w, _ | ⟨x, _ | ⟨y, _ | ⟨z, rest⟩⟩⟩⟩
  · cases h
  · cases h
  · have hw : w < 64 := hall w (by simp)
    have hx : x < 64 := hall x (by simp)
    simp only at h
    split at h
    · cases h
    · next hpads =>
      split at h
      · cases h
      · next hrest =>
        cases h
        rw [Decidable.not_not.1 hpads, encode_one hw hx (Decidable.not_not.1 hrest)]
        rfl
  · have hw : w < 64 := hall w (by simp)
    have hx : x < 64 := hall x (by simp)
    have hy : y < 64 := hall y (by simp)
    simp only at h
    split at h
    · cases h
    · next hpads =>
      split at h
      · cases h
      · next hrest =>
        cases h
        rw [Decidable.not_not.1 hpads, encode_two hw hx hy (Decidable.not_not.1 hrest) rfl]
        rfl
  · simp only [List.map_cons, List.length_append, List.length_cons, List.length_map,
      List.length_replicate] at hlen
    have hrest : rest = [] := List.eq_nil_of_length_eq_zero (by omega)
    have hpads : t.pads = 0 := by omega
    subst hrest
    cases h
    rw [hpads, encode_three (hall w (by simp)) (hall x (by simp)) (hall y (by simp))
      (hall z (by simp)) rfl]
    rfl

private theorem decodeTail_encode (hne : bytes ≠ []) (hlen : bytes.length ≤ 3) :
    decodeTail start (encode bytes) = .ok bytes := by
  match bytes with
  | [] => exact absurd rfl hne
  | [x] =>
    have hx := x.toNat_lt
    have hbyte : x.toNat * 16 / 64 * 4 + x.toNat * 16 % 64 / 16 = x.toNat := by omega
    have hrest : x.toNat * 16 % 64 % 16 = 0 := by omega
    rw [decodeTail, encode, readTail_symbol (by omega), readTail_symbol (by omega),
      readTail_pad (by decide), readTail_pad (by decide), readTail]
    simp [bind, Except.bind, hbyte, hrest]
  | [x, y] =>
    have hx := x.toNat_lt
    have hy := y.toNat_lt
    generalize hn : (x.toNat * 256 + y.toNat) * 4 = n
    have hjoin : (n / 4096 * 64 + n / 64 % 64) * 64 + n % 64 = n := by omega
    have hfirst : n / 1024 = x.toNat := by omega
    have hsecond : n / 4 % 256 = y.toNat := by omega
    have hrest : n % 64 % 4 = 0 := by omega
    rw [decodeTail, encode, hn, readTail_symbol (by omega), readTail_symbol (by omega),
      readTail_symbol (by omega), readTail_pad (by decide), readTail]
    simp [bind, Except.bind, hjoin, hfirst, hsecond, hrest]
  | [x, y, z] =>
    generalize hn : (x.toNat * 256 + y.toNat) * 256 + z.toNat = n
    obtain ⟨hlt, hjoin, hx, hy, hz⟩ := split_bytes x y z hn
    rw [decodeTail, encode, hn, readTail_symbol hlt, readTail_symbol (by omega),
      readTail_symbol (by omega), readTail_symbol (by omega), encode, readTail]
    simp [bind, Except.bind, hjoin, hx, hy, hz]

/-- A last group is decoded exactly if it is written for one to three bytes, and then to these. -/
theorem decodeTail_eq_ok_iff (hlen : s.length ≤ 4) :
    decodeTail start s = .ok bytes ↔ s ≠ [] ∧ s = encode bytes := by
  constructor
  · intro h
    refine ⟨?_, eq_encode_of_decodeTail hlen h⟩
    rintro rfl
    cases h
  · rintro ⟨hne, rfl⟩
    rw [length_encode] at hlen
    refine decodeTail_encode ?_ (by omega)
    rintro rfl
    exact hne rfl

/-! ### Texts -/

/-- The groups of a text are decoded exactly if the text is written for some bytes, and then to
these. -/
theorem decodeFrom_eq_ok_iff (hne : s ≠ []) :
    decodeFrom offset s = .ok bytes ↔ s = encode bytes := by
  induction offset, s using decodeFrom.induct generalizing bytes with
  | case1 offset a b c d e s ih =>
    simp only [decodeFrom, bind_eq_ok_iff, decodeGroup_eq_ok_iff]
    constructor
    · rintro ⟨front, ⟨x, y, z, rfl, hfront⟩, rest, hrest, h⟩
      cases h
      have htail := (ih (List.cons_ne_nil e s)).1 hrest
      show [a, b, c, d] ++ e :: s = encode (x :: y :: z :: rest)
      rw [encode_cons, hfront, htail]
    · intro h
      have hlen := congrArg List.length h
      rw [length_encode] at hlen
      simp only [List.length_cons] at hlen
      match bytes with
      | [] | [_] | [_, _] =>
        simp only [List.length_cons, List.length_nil] at hlen
        omega
      | x :: y :: z :: rest =>
        have h : [a, b, c, d] ++ e :: s = encode [x, y, z] ++ encode rest := h
        obtain ⟨hfront, hrest⟩ := List.append_inj h rfl
        exact ⟨[x, y, z], ⟨x, y, z, rfl, hfront⟩, rest, (ih (List.cons_ne_nil e s)).2 hrest, rfl⟩
  | case2 offset s hs =>
    have hlen : s.length ≤ 4 := by
      match s, hs with
      | [], _ | [_], _ | [_, _], _ | [_, _, _], _ | [_, _, _, _], _ => simp
      | a :: b :: c :: d :: e :: s, hs => exact absurd rfl (hs a b c d e s)
    rw [decodeFrom]
    · rw [decodeTail_eq_ok_iff hlen, and_iff_right hne]
    · exact hs

private theorem strayByte?_encode (bytes : List UInt8) : strayByte? (encode bytes) = none := by
  have hmod : (encode bytes).length % 4 = 0 := by
    rw [length_encode]
    omega
  rw [strayByte?]
  split
  · rw [if_neg (by omega)]
  · rfl

/-- A text is decoded exactly if it is what is written for some bytes, and then to these. -/
theorem decode_eq_ok_iff : decode s = .ok bytes ↔ s = encode bytes := by
  cases s with
  | nil => simp [decode, eq_comm (a := []), encode_eq_nil_iff]
  | cons b s =>
    cases hstray : strayByte? (b :: s) with
    | some fault =>
      have hdecode : decode (b :: s) = .error fault := by simp [decode, hstray]
      rw [hdecode]
      refine iff_of_false nofun fun h => ?_
      rw [h, strayByte?_encode] at hstray
      cases hstray
    | none =>
      have hdecode : decode (b :: s) = decodeFrom 0 (b :: s) := by simp [decode, hstray]
      rw [hdecode]
      exact decodeFrom_eq_ok_iff (List.cons_ne_nil b s)

/-- What is written for some bytes is decoded to them. -/
theorem decode_encode (bytes : List UInt8) : decode (encode bytes) = .ok bytes :=
  decode_eq_ok_iff.2 rfl

/-- Different bytes are written differently. -/
theorem encode_injective : Function.Injective encode := by
  intro a b h
  have hb := decode_encode b
  rw [← h, decode_encode] at hb
  exact Except.ok.inj hb

/-! ### Characters -/

/-- What is written for some bytes, as characters. -/
def text (bytes : List UInt8) : String :=
  String.ofList ((encode bytes).map fun b => Char.ofNat b.toNat)

private theorem symbol_lt (n : Nat) : (symbol n).toNat < 128 := by
  rw [symbol]
  split
  · rw [UInt8.toNat_ofNat']
    omega
  split
  · rw [UInt8.toNat_ofNat']
    omega
  split
  · rw [UInt8.toNat_ofNat']
    omega
  split <;> decide

private theorem lt_of_mem_encode (bytes : List UInt8) : ∀ b ∈ encode bytes, b.toNat < 128 := by
  have hpad : pad.toNat < 128 := by decide
  induction bytes using encode.induct <;> simp_all [encode, symbol_lt]

/-- The bytes of what is written as characters are what is written. -/
theorem encode_text (bytes : List UInt8) : Utf8.encode (text bytes).toList = encode bytes := by
  rw [text, String.toList_ofList, Utf8.encode_ascii (lt_of_mem_encode bytes)]

/-- The bytes of characters are decoded exactly if the characters are what is written for some
bytes, and then to these. -/
theorem decode_encode_eq_ok_iff {s : String} :
    decode (Utf8.encode s.toList) = .ok bytes ↔ s = text bytes := by
  rw [decode_eq_ok_iff, ← encode_text]
  constructor
  · intro h
    exact String.toList_injective (Utf8.encode_injective h)
  · rintro rfl
    rfl

/-- `foob` is written `Zm9vYg==`. -/
example : encode [0x66, 0x6F, 0x6F, 0x62] = [0x5A, 0x6D, 0x39, 0x76, 0x59, 0x67, 0x3D, 0x3D] := by
  decide

end ServiceDiscovery.Base64
