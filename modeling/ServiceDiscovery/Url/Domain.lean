import ServiceDiscovery.Text.Percent
import ServiceDiscovery.Text.Split

/-!
# Domain names

The host of a special URL is a domain name in a normal form. The name is percent-decoded first; then
Unicode's compatibility processing for domain names, as the URL standard calls for it, maps it to
ASCII, and the result must not hold any of the characters that are forbidden in domain names. The
mapping and its tables are not part of the library. `Idna` says what the library relies on.
-/

namespace ServiceDiscovery.Url

/-- The characters that neither kind of host may hold. -/
def forbiddenHost : List Char :=
  ['\x00', '\t', '\n', '\r', ' ', '#', '/', ':', '<', '>', '?', '@', '[', '\\', ']', '^', '|']

/-- Whether a character may not stand in a domain name. -/
def isForbiddenInDomain (c : Char) : Bool :=
  c.toNat < 0x20 || c.toNat == 0x7F || c == '%' || forbiddenHost.contains c

/-- Whether a label is marked as the encoding of another one. -/
def isEncoded (label : List Char) : Bool :=
  (Text.dropFront? ['x', 'n', '-', '-'] (label.map Char.toLower)).isSome

/-- The mapping of domain names to ASCII. -/
class Idna where
  /-- The normal form of a name; none if the name is not valid. -/
  toAscii : List Char → Option (List Char)
  /-- For an ASCII name without encoded labels the mapping is the one to lower case. -/
  toAscii_plain (s : List Char) (ha : ∀ c ∈ s, c.toNat < 128)
    (hp : ∀ label ∈ Text.fields '.' s, isEncoded label = false) :
    toAscii s = some (s.map Char.toLower)
  /-- The mapping leaves forbidden characters where they are. Only the signs for less and greater
  can be composed with a stroke to another character. -/
  mem_toAscii (s t : List Char) (h : toAscii s = some t) (c : Char) (hc : c ∈ s)
    (hf : isForbiddenInDomain c = true) (hs : c ≠ '<' ∧ c ≠ '>') : c ∈ t

/-- The normal form of a domain name. -/
def domain? [Idna] (s : List Char) : Option (List Char) :=
  ((Utf8.decode? (Percent.decode s)).bind Idna.toAscii).filter fun d =>
    !d.any isForbiddenInDomain

end ServiceDiscovery.Url
