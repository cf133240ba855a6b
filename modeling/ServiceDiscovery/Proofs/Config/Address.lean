import Mathlib.Data.List.Basic
import ServiceDiscovery.Config.Address

/-!
# Addresses with the usual port

An address without a port is given the usual one, and so it ends in a port. Whether a port is there
is told by the last colon, which may as well stand in an IPv6 address. Without brackets such an
address hides the port that it has been given: it is taken for more of the address, and is given
once more if the address is normalised again.
-/

namespace ServiceDiscovery

namespace Address

variable {address : String} {host port digits : List Char}

/-- The digits of a port. -/
structure IsPort (digits : List Char) : Prop where
  ne_nil : digits ≠ []
  digit : ∀ c ∈ digits, c.isDigit = true
  lt : Nat.ofDigitChars 10 digits 0 < 65536

/-- An address ends in a colon and a port. -/
def EndsInPort (address : String) : Prop :=
  ∃ host digits, address.toList = host ++ ':' :: digits ∧ IsPort digits

/-- An address ends in a colon and a port with a plus sign. -/
def SignsPort (address : String) : Prop :=
  ∃ host digits, address.toList = host ++ ':' :: '+' :: digits ∧ IsPort digits

/-- An address that is given a port and does not show it: it holds a colon and does not end in a
bracket. -/
structure HidesPort (address : String) : Prop where
  isUrl : isUrl address = false
  hasPort : hasPort address = false
  colon : ':' ∈ address.toList
  last : address.toList.getLast? ≠ some ']'

/-- The address with the usual port behind it. -/
def withPort (address : String) : String := address ++ ":" ++ Decimal.text defaultPort

/-! ### Ports -/

/-- No port holds a colon, a sign or a bracket. -/
theorem IsPort.not_mem (h : IsPort digits) : ':' ∉ digits ∧ '+' ∉ digits ∧ ']' ∉ digits := by
  refine ⟨fun hm => ?_, fun hm => ?_, fun hm => ?_⟩ <;> exact absurd (h.digit _ hm) (by decide)

/-- Ports are the numbers below a bound. -/
theorem isPort_iff :
    IsPort digits ↔ ((Decimal.digits? digits).filter (· < 65536)).isSome = true := by
  simp only [Option.isSome_iff_exists, Option.filter_eq_some_iff, Decimal.digits?_eq_some_iff,
    decide_eq_true_eq]
  constructor
  · intro h
    exact ⟨_, ⟨h.ne_nil, h.digit, rfl⟩, h.lt⟩
  · rintro ⟨_, ⟨hne, hdigit, rfl⟩, hlt⟩
    exact ⟨hne, hdigit, hlt⟩

/-- The usual port is one. -/
theorem isPort_defaultPort : IsPort (Decimal.text defaultPort).toList := by
  rw [isPort_iff, Decimal.digits?_text]
  rfl

/-- A port is read with or without a plus sign. -/
theorem read?_isSome_iff :
    (Decimal.read? 65536 port).isSome = true ↔
      IsPort port ∨ ∃ digits, port = '+' :: digits ∧ IsPort digits := by
  rw [Decimal.read?]
  split
  · next hsign =>
    obtain ⟨digits, rfl⟩ := List.head?_eq_some_iff.1 hsign
    have hnot : ¬ IsPort ('+' :: digits) := fun h => h.not_mem.2.1 List.mem_cons_self
    simp [hnot, isPort_iff]
  · next hsign =>
    have hnot : ¬ ∃ digits, port = '+' :: digits ∧ IsPort digits := by
      rintro ⟨digits, rfl, -⟩
      exact hsign rfl
    rw [← isPort_iff, or_iff_left hnot]

private theorem hasPort_of_append (hport : ':' ∉ port) (h : address.toList = host ++ ':' :: port) :
    hasPort address =
      ((Decimal.read? 65536 port).isSome && (!host.contains ':' || host.getLast? == some ']')) := by
  have hsplit : Text.splitLast? [':'] address.toList = some (host, port) := by
    rw [h]
    exact Text.splitLast?_append hport host
  rw [hasPort, hsplit]

/-- The last colon of an address that has a port parts it in this way. -/
theorem exists_of_hasPort (h : hasPort address = true) :
    ∃ host port, address.toList = host ++ ':' :: port ∧ ':' ∉ port ∧
      (Decimal.read? 65536 port).isSome = true ∧ (':' ∉ host ∨ host.getLast? = some ']') := by
  rw [hasPort] at h
  split at h
  · next host port hsplit =>
    obtain ⟨hread, hhost⟩ := Bool.and_eq_true_iff.1 h
    refine ⟨host, port, ?_, Text.not_mem_of_splitLast? hsplit, hread, by simpa using hhost⟩
    rw [Text.eq_append_of_splitLast? hsplit, List.append_assoc]
    rfl
  · cases h

/-- An address that has a port ends in one, or in one with a plus sign. -/
theorem of_hasPort (h : hasPort address = true) : EndsInPort address ∨ SignsPort address := by
  obtain ⟨host, port, hlist, -, hread, -⟩ := exists_of_hasPort h
  rcases read?_isSome_iff.1 hread with hport | ⟨digits, rfl, hport⟩
  · exact .inl ⟨host, port, hlist, hport⟩
  · exact .inr ⟨host, digits, hlist, hport⟩

private theorem colon_last (h : address.toList = host ++ ':' :: port) (hport : ']' ∉ port) :
    ':' ∈ address.toList ∧ address.toList.getLast? ≠ some ']' := by
  rw [h]
  refine ⟨by simp, fun hlast => ?_⟩
  rw [List.getLast?_append_of_ne_nil host (List.cons_ne_nil _ _)] at hlast
  have hmem := List.mem_of_getLast? hlast
  simp [hport] at hmem

private theorem EndsInPort.colon_last (h : EndsInPort address) :
    ':' ∈ address.toList ∧ address.toList.getLast? ≠ some ']' := by
  obtain ⟨host, digits, hlist, hport⟩ := h
  exact Address.colon_last hlist hport.not_mem.2.2

theorem SignsPort.colon_last (h : SignsPort address) :
    ':' ∈ address.toList ∧ address.toList.getLast? ≠ some ']' := by
  obtain ⟨host, digits, hlist, hport⟩ := h
  exact Address.colon_last hlist (by simp [hport.not_mem.2.2])

/-- Without a colon, and with a bracket at the end, there is no port. -/
theorem hasPort_eq_false (h : ':' ∉ address.toList ∨ address.toList.getLast? = some ']') :
    hasPort address = false := by
  refine Bool.eq_false_iff.2 fun hport => ?_
  obtain ⟨hcolon, hlast⟩ : ':' ∈ address.toList ∧ address.toList.getLast? ≠ some ']' :=
    (of_hasPort hport).elim EndsInPort.colon_last SignsPort.colon_last
  exact h.elim (fun h => h hcolon) hlast

private theorem SignsPort.not_endsInPort (h : SignsPort address) : ¬ EndsInPort address := by
  obtain ⟨host, digits, hlist, hport⟩ := h
  rintro ⟨host', digits', hlist', hport'⟩
  have hcolon : ':' ∉ '+' :: digits := by
    simp [hport.not_mem.1]
  have hsplit := Text.splitLast?_append hcolon host
  rw [← hlist, hlist', Text.splitLast?_append hport'.not_mem.1] at hsplit
  obtain ⟨-, rfl⟩ := Prod.mk.inj (Option.some.inj hsplit)
  exact hport'.not_mem.2.1 List.mem_cons_self

/-! ### The port that is given -/

/-- The usual port stands behind a colon. -/
theorem toList_withPort (address : String) :
    (withPort address).toList = address.toList ++ ':' :: (Decimal.text defaultPort).toList := by
  simp [withPort]

private theorem endsInPort_withPort (address : String) : EndsInPort (withPort address) :=
  ⟨address.toList, _, toList_withPort address, isPort_defaultPort⟩

/-- A URL is an address with a colon and two slashes in it. -/
theorem isUrl_iff : isUrl address = true ↔ [':', '/', '/'] <:+: address.toList := by
  constructor
  · intro h
    obtain ⟨⟨front, back⟩, hsplit⟩ := Option.isSome_iff_exists.1 h
    exact ⟨front, back, (Text.eq_append_of_splitFirst? hsplit).symm⟩
  · exact Text.splitFirst?_isSome

/-- An address with the usual port shows it exactly if no colon is in front, or a bracket. -/
theorem hasPort_withPort :
    hasPort (withPort address) = true ↔
      ':' ∉ address.toList ∨ address.toList.getLast? = some ']' := by
  have hport : (Decimal.read? 65536 (Decimal.text defaultPort).toList).isSome = true :=
    read?_isSome_iff.2 (.inl isPort_defaultPort)
  rw [hasPort_of_append isPort_defaultPort.not_mem.1 (toList_withPort address), hport]
  simp

private theorem isUrl_withPort (address : String) : isUrl (withPort address) = isUrl address := by
  have hslash : '/' ∉ ':' :: (Decimal.text defaultPort).toList := by decide
  rw [Bool.eq_iff_iff, isUrl_iff, isUrl_iff, toList_withPort]
  constructor
  · rintro ⟨front, back, h⟩
    rcases List.append_eq_append_iff.1 h with ⟨mid, hmid, -⟩ | ⟨mid, hmid, hport⟩
    · exact ⟨front, mid, hmid.symm⟩
    · -- No slash stands in the port, so the slashes end where it begins or before.
      rcases List.eq_nil_or_concat mid with rfl | ⟨mid, c, rfl⟩
      · exact ⟨front, [], by simpa using hmid⟩
      · have hlast : some '/' = some c := by
          simpa using congrArg List.getLast? hmid
        cases hlast
        exact absurd (by simp [hport]) hslash
  · rintro ⟨front, back, h⟩
    exact ⟨front, back ++ ':' :: (Decimal.text defaultPort).toList, by rw [← h]; simp⟩

/-- An address is left as it is, or it is given the usual port. -/
theorem normalize_cases (address : String) :
    (normalize address = address ∧
        (address = testMode ∨ isUrl address = true ∨ hasPort address = true)) ∨
      (normalize address = withPort address ∧ address ≠ testMode ∧ isUrl address = false ∧
        hasPort address = false) := by
  rw [normalize]
  split
  · next h => exact .inl ⟨rfl, h⟩
  · next h => simp_all [withPort]

private theorem withPort_ne (address : String) :
    withPort address ≠ address ∧ withPort address ≠ testMode := by
  constructor
  · intro h
    have hlength := congrArg (List.length ∘ String.toList) h
    simp [toList_withPort] at hlength
  · intro h
    have hcolon : ':' ∈ (withPort address).toList := by simp [toList_withPort]
    rw [h] at hcolon
    exact absurd hcolon (by decide)

/-- Where a port is given, it is hidden if it is not shown. -/
theorem hidesPort_iff (hurl : isUrl address = false) (hport : hasPort address = false) :
    HidesPort address ↔ hasPort (withPort address) = false := by
  rw [← Bool.not_eq_true, hasPort_withPort, not_or, Decidable.not_not]
  exact ⟨fun h => ⟨h.colon, h.last⟩, fun h => ⟨hurl, hport, h.1, h.2⟩⟩

private theorem not_hidesPort
    (h : address = testMode ∨ isUrl address = true ∨ hasPort address = true) :
    ¬ HidesPort address := by
  rintro ⟨hurl, hport, hcolon, -⟩
  rcases h with rfl | h | h
  · exact absurd hcolon (by decide)
  · rw [hurl] at h
    cases h
  · rw [hport] at h
    cases h

/-- An address is given a port once, unless it hides it. -/
theorem normalize_normalize_iff :
    normalize (normalize address) = normalize address ↔ ¬ HidesPort address := by
  rcases normalize_cases address with ⟨heq, hkept⟩ | ⟨heq, -, hurl, hport⟩
  · rw [heq, iff_true_right (not_hidesPort hkept), heq]
  · rw [heq, hidesPort_iff hurl hport]
    rcases normalize_cases (withPort address) with ⟨heq', hkept⟩ | ⟨heq', -, -, hport'⟩
    · rw [isUrl_withPort, hurl, or_iff_right (withPort_ne address).2] at hkept
      simpa [heq'] using hkept
    · rw [heq', hport', iff_false_right (Decidable.not_not.2 rfl)]
      exact (withPort_ne _).1

/-- An address other than a URL and the hyphen ends in a port that it shows, unless it hides the one
that it has been given or its own has a plus sign. -/
theorem endsInPort_normalize_iff (htest : normalize address ≠ testMode)
    (hurl : isUrl (normalize address) = false) :
    (EndsInPort (normalize address) ∧ hasPort (normalize address) = true) ↔
      ¬ HidesPort address ∧ ¬ SignsPort address := by
  rcases normalize_cases address with ⟨heq, hkept⟩ | ⟨heq, -, hurl', hport⟩
  · rw [heq] at htest hurl ⊢
    have hport : hasPort address = true := by
      simpa [htest, hurl] using hkept
    rw [and_iff_left hport, and_iff_right (not_hidesPort hkept)]
    exact ⟨fun h hs => hs.not_endsInPort h, (of_hasPort hport).resolve_right⟩
  · rw [heq, and_iff_right (endsInPort_withPort address), hidesPort_iff hurl' hport,
      Bool.not_eq_false, iff_self_and, hasPort_withPort]
    intro h hs
    exact h.elim (fun h => h hs.colon_last.1) hs.colon_last.2

end Address

end ServiceDiscovery
