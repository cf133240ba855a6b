import ServiceDiscovery.Text.Split

/-!
# Blank characters

The characters with the Unicode property `White_Space`, and text trimmed of them at both ends.
-/

namespace ServiceDiscovery.Text

/-- The characters with the property `White_Space`. -/
def isBlank (c : Char) : Bool :=
  let n := c.toNat
  (0x09 ≤ n && n ≤ 0x0D) || n == 0x20 || n == 0x85 || n == 0xA0 || n == 0x1680 ||
    (0x2000 ≤ n && n ≤ 0x200A) || n == 0x2028 || n == 0x2029 || n == 0x202F || n == 0x205F ||
    n == 0x3000

/-- The text without blanks at either end. -/
def trimBlank (s : String) : String := String.ofList (trim isBlank s.toList)

end ServiceDiscovery.Text
