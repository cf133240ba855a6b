import ServiceDiscovery.Text.Decimal

/-!
# Endpoints

A host with a port, written `host:port`. Endpoints are ordered by host, character by character, and
then by port as a number.
-/

namespace ServiceDiscovery

/-- A network endpoint of one service instance. -/
structure Endpoint where
  host : String
  port : UInt16
  deriving DecidableEq, Repr

namespace Endpoint

/-- The endpoint as `host:port`. -/
def toText (e : Endpoint) : String := e.host ++ ":" ++ Decimal.text e.port.toNat

/-- Endpoints compare by host and then by port. -/
instance : Ord Endpoint :=
  ⟨fun a b => (compare a.host b.host).then (compare a.port b.port)⟩

/-- How endpoints compare. -/
theorem compare_def (a b : Endpoint) :
    compare a b = (compare a.host b.host).then (compare a.port b.port) := rfl

/-- Endpoints that compare equal are equal, and each compares equal to itself. -/
instance : Std.LawfulEqOrd Endpoint where
  compare_self := by
    intro a
    simp [compare_def]
  eq_of_compare := by
    intro a b h
    rw [compare_def, Ordering.then_eq_eq] at h
    cases a
    cases b
    simp_all

/-- The order of endpoints is a total order. -/
instance : Std.TransOrd Endpoint where
  eq_swap := by
    intro a b
    rw [compare_def, compare_def, Ordering.swap_then, ← Std.OrientedCmp.eq_swap,
      ← Std.OrientedCmp.eq_swap]
  isLE_trans := by
    intro a b c hab hbc
    rw [compare_def, Ordering.isLE_then_iff_or] at *
    rcases hab with hab | ⟨hab, hab'⟩ <;> rcases hbc with hbc | ⟨hbc, hbc'⟩
    · exact Or.inl (Std.TransCmp.lt_trans hab hbc)
    · exact Or.inl (Std.TransCmp.lt_of_lt_of_eq hab hbc)
    · exact Or.inl (Std.TransCmp.lt_of_eq_of_lt hab hbc)
    · exact Or.inr ⟨Std.TransCmp.eq_trans hab hbc, Std.TransCmp.isLE_trans hab' hbc'⟩

end Endpoint

end ServiceDiscovery
