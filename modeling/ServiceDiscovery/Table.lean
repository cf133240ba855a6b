/-!
# Tables

A finite map that lists its keys in the order of their first insertion. Each key stands once, which
is part of the type, so the number of rows is the number of keys.
-/

namespace ServiceDiscovery

/-- A finite map with its rows in order of first insertion. -/
structure Table (κ α : Type) where
  rows : List (κ × α)
  nodup : (rows.map Prod.fst).Nodup

namespace Table

variable {κ α : Type} [DecidableEq κ]

/-- The value of a key in a list of rows. -/
def find? (k : κ) : List (κ × α) → Option α
  | [] => none
  | row :: rows => if row.1 = k then some row.2 else find? k rows

/-- The rows with a key's value set, in place if the key is there and at the end if not. -/
def put (k : κ) (a : α) : List (κ × α) → List (κ × α)
  | [] => [(k, a)]
  | row :: rows => if row.1 = k then (k, a) :: rows else row :: put k a rows

/-- Setting a value adds its key at most. -/
theorem mem_keys_put {k x : κ} {a : α} {rows : List (κ × α)} :
    x ∈ (put k a rows).map Prod.fst ↔ x = k ∨ x ∈ rows.map Prod.fst := by
  induction rows with
  | nil => simp [put]
  | cons row rows ih =>
    rw [put]
    split
    · next h => simp [h]
    · rw [List.map_cons, List.mem_cons, ih, List.map_cons, List.mem_cons]
      exact or_left_comm

/-- Setting a value keeps the keys apart. -/
theorem nodup_put {k : κ} {a : α} {rows : List (κ × α)} (h : (rows.map Prod.fst).Nodup) :
    ((put k a rows).map Prod.fst).Nodup := by
  induction rows with
  | nil => simp [put]
  | cons row rows ih =>
    rw [List.map_cons, List.nodup_cons] at h
    rw [put]
    split
    · next hk =>
      subst hk
      simpa using h
    · next hk =>
      rw [List.map_cons, List.nodup_cons, mem_keys_put]
      exact ⟨fun hm => hm.elim hk h.1, ih h.2⟩

/-- The map without keys. -/
def empty : Table κ α := ⟨[], .nil⟩

/-- The value of a key. -/
def get? (t : Table κ α) (k : κ) : Option α := find? k t.rows

/-- The map with a key's value set. -/
def insert (k : κ) (a : α) (t : Table κ α) : Table κ α := ⟨put k a t.rows, nodup_put t.nodup⟩

/-- The map without a key. -/
def erase (k : κ) (t : Table κ α) : Table κ α :=
  ⟨t.rows.filter fun row => row.1 ≠ k,
    List.Nodup.sublist (List.Sublist.map _ List.filter_sublist) t.nodup⟩

/-- The number of keys. -/
def size (t : Table κ α) : Nat := t.rows.length

/-- Whether there are no keys. -/
def isEmpty (t : Table κ α) : Bool := t.rows.isEmpty

/-- The values, by the first insertion of their keys. -/
def values (t : Table κ α) : List α := t.rows.map Prod.snd

instance : EmptyCollection (Table κ α) := ⟨empty⟩

instance : Inhabited (Table κ α) := ⟨empty⟩

/-- No key has a value in the map without keys. -/
@[simp]
theorem get?_empty (k : κ) : (empty : Table κ α).get? k = none := rfl

/-- After setting a value, its key has that value and every other key the value it had. -/
theorem get?_insert (t : Table κ α) (k x : κ) (a : α) :
    (t.insert k a).get? x = if k = x then some a else t.get? x := by
  show find? x (put k a t.rows) = if k = x then some a else find? x t.rows
  induction t.rows with
  | nil => simp [put, find?]
  | cons row rows ih =>
    rw [put]
    split
    · next h =>
      subst h
      by_cases hx : row.1 = x <;> simp [find?, hx]
    · next h =>
      by_cases hx : row.1 = x
      · subst hx
        simp [find?, Ne.symm h]
      · simp [find?, hx, ih]

/-- Setting a value leaves every other key. -/
theorem get?_insert_of_ne (t : Table κ α) (a : α) {k x : κ} (h : k ≠ x) :
    (t.insert k a).get? x = t.get? x := by
  rw [get?_insert, if_neg h]

/-- A key that was just set has its value. -/
@[simp]
theorem get?_insert_self (t : Table κ α) (k : κ) (a : α) : (t.insert k a).get? k = some a := by
  simp [get?_insert]

/-- Without a key, that key has no value and every other key the value it had. -/
theorem get?_erase (t : Table κ α) (k x : κ) :
    (t.erase k).get? x = if k = x then none else t.get? x := by
  show find? x (t.rows.filter fun row => row.1 ≠ k) = if k = x then none else find? x t.rows
  induction t.rows with
  | nil => simp [find?]
  | cons row rows ih =>
    by_cases hr : row.1 = k
    · rw [List.filter_cons_of_neg (by simpa using hr), ih]
      by_cases hx : k = x
      · simp [hx]
      · simp [hx, find?, hr]
    · rw [List.filter_cons_of_pos (by simpa using hr), find?, find?, ih]
      by_cases hx : row.1 = x
      · subst hx
        simp [Ne.symm hr]
      · simp [hx]

/-- A map has no rows exactly if no key has a value. -/
theorem size_eq_zero_iff {t : Table κ α} : t.size = 0 ↔ ∀ k, t.get? k = none := by
  show t.rows.length = 0 ↔ ∀ k, find? k t.rows = none
  cases t.rows with
  | nil => simp [find?]
  | cons row rows =>
    constructor
    · intro h
      cases h
    · intro h
      simpa [find?] using h row.1

/-- Dropping a key leaves every other key. -/
theorem get?_erase_of_ne (t : Table κ α) {k x : κ} (h : k ≠ x) :
    (t.erase k).get? x = t.get? x := by
  rw [get?_erase, if_neg h]

/-- A key that was just erased has no value. -/
@[simp]
theorem get?_erase_self (t : Table κ α) (k : κ) : (t.erase k).get? k = none := by
  simp [get?_erase]

end Table

end ServiceDiscovery
