/-!
# UTF-8

Bytes of text and back. `scan` reads any bytes: every well-formed sequence gives its character and
every longest piece that could not be completed gives one gap. Strict decoding refuses gaps, lenient
decoding shows each as the replacement character U+FFFD.
-/

namespace ServiceDiscovery.Utf8

/-- The bytes of a text. -/
def encode (s : List Char) : List UInt8 := s.flatMap String.utf8EncodeChar

/-- A character whose lead byte has been read: the bytes still missing, the bits gathered so far and
the range in which the next byte has to lie. -/
structure Partial where
  missing : Nat
  value : Nat
  low : UInt8
  high : UInt8

/-- What a byte means where no character is open: a character, a gap or an opened character. -/
def lead (b : UInt8) : List (Option Char) × Option Partial :=
  let n := b.toNat
  if n < 0x80 then ([some (Char.ofNat n)], none)
  else if n < 0xC2 then ([none], none)
  else if n < 0xE0 then ([], some ⟨1, n - 0xC0, 0x80, 0xBF⟩)
  else if n = 0xE0 then ([], some ⟨2, 0, 0xA0, 0xBF⟩)
  else if n = 0xED then ([], some ⟨2, 0xD, 0x80, 0x9F⟩)
  else if n < 0xF0 then ([], some ⟨2, n - 0xE0, 0x80, 0xBF⟩)
  else if n = 0xF0 then ([], some ⟨3, 0, 0x90, 0xBF⟩)
  else if n < 0xF4 then ([], some ⟨3, n - 0xF0, 0x80, 0xBF⟩)
  else if n = 0xF4 then ([], some ⟨3, 4, 0x80, 0x8F⟩)
  else ([none], none)

/-- Reads one byte: what it completes, and the character it leaves open. A byte out of range ends
the open character as a gap and is then read anew. -/
def step (open? : Option Partial) (b : UInt8) : List (Option Char) × Option Partial :=
  match open? with
  | none => lead b
  | some p =>
    if p.low ≤ b ∧ b ≤ p.high then
      let value := 64 * p.value + (b.toNat - 0x80)
      if p.missing ≤ 1 then ([some (Char.ofNat value)], none)
      else ([], some ⟨p.missing - 1, value, 0x80, 0xBF⟩)
    else
      let next := lead b
      (none :: next.1, next.2)

/-- The characters and gaps of the bytes that follow an open character. -/
def scanFrom : Option Partial → List UInt8 → List (Option Char)
  | none, [] => []
  | some _, [] => [none]
  | open?, b :: s =>
    let next := step open? b
    next.1 ++ scanFrom next.2 s

/-- The characters and gaps of some bytes. -/
def scan (bytes : List UInt8) : List (Option Char) := scanFrom none bytes

/-- The text that some bytes spell, when every byte belongs to a character. -/
def decode? (bytes : List UInt8) : Option (List Char) := (scan bytes).mapM id

/-- The text that some bytes spell, with U+FFFD for every gap. -/
def decodeLenient (bytes : List UInt8) : List Char :=
  (scan bytes).map fun c => c.getD (Char.ofNat 0xFFFD)

/-- Different texts have different bytes. -/
theorem encode_injective {s t : List Char} (h : encode s = encode t) : s = t := by
  have hbytes : (String.ofList s).toByteArray = (String.ofList t).toByteArray :=
    congrArg List.toByteArray h
  exact String.ofList_injective (String.toByteArray_inj.1 hbytes)

end ServiceDiscovery.Utf8
