/-!
# Watch cursors

Where a watcher stands: the index that its next blocking query waits after, and how many queries in
a row have failed. The index is never zero, as a query after index zero would not be held.
-/

namespace ServiceDiscovery

/-- The position and the run of failures of a watcher. -/
structure Cursor where
  waitIndex : Nat
  failures : Nat
  deriving DecidableEq, Repr

namespace Cursor

/-- The cursor after an index, one at least. -/
def ofIndex (index : Nat) : Cursor := ⟨max index 1, 0⟩

/-- The cursor after an answer. An index that has moved backwards means that the registry was reset,
so the next query starts over and is answered at once. -/
def recordSuccess (index : Nat) (c : Cursor) : Cursor :=
  ⟨if index < c.waitIndex ∨ index = 0 then 1 else index, 0⟩

/-- The cursor after a failure; the index stays. -/
def recordFailure (c : Cursor) : Cursor := { c with failures := c.failures + 1 }

/-- Whether the failures in a row have reached a ceiling. -/
def hasReached (ceiling : UInt32) (c : Cursor) : Bool := ceiling.toNat ≤ c.failures

/-- A failure leaves the index as it is. -/
@[simp]
theorem waitIndex_recordFailure (c : Cursor) : c.recordFailure.waitIndex = c.waitIndex := rfl

end Cursor

end ServiceDiscovery
