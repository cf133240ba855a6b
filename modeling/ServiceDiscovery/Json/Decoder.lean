import ServiceDiscovery.Json.Value

/-!
# Decoding JSON values

Reading a value as text, as a bounded number, as a list or as a record. A record is an object, or an
array of the fields in their declared order. Of an object, members with other names are ignored and
a field must not be repeated; of an array, fields at the end may be absent and there must be no more
items than fields.
-/

namespace ServiceDiscovery.Json

/-- A value read as text. -/
def Value.asText? : Value → Option String
  | .string s => s
  | _ => none

/-- A value read as an unsigned integer literal below a bound. -/
def Value.asNatural? (bound : Nat) : Value → Option Nat
  | .number (.natural n) => if n < bound then some n else none
  | _ => none

/-- A value read as a list. -/
def Value.asList? {α : Type} (item? : Value → Option α) : Value → Option (List α)
  | .array items => items.mapM item?
  | _ => none

/-- An array is read as a list exactly if each of its items is read. -/
theorem Value.asList?_array {α : Type} {item? : Value → Option α} {items : List Value}
    {values : List α} :
    (Value.array items).asList? item? = some values ↔ items.map item? = values.map some := by
  rw [asList?]
  induction items generalizing values with
  | nil => cases values <;> simp
  | cons v items ih =>
    cases values with
    | nil => simp [List.mapM_cons, Option.bind_eq_some_iff]
    | cons a values =>
      rw [List.mapM_cons, List.map_cons, List.map_cons, List.cons.injEq, ← ih]
      simp only [Option.bind_eq_bind, Option.bind_eq_some_iff, Option.pure_def, Option.some.injEq,
        List.cons.injEq]
      constructor
      · rintro ⟨_, ha, _, hvalues, rfl, rfl⟩
        exact ⟨ha, hvalues⟩
      · rintro ⟨ha, hvalues⟩
        exact ⟨a, ha, values, hvalues, rfl, rfl⟩

/-- A value read as null or by `some?`. -/
def Value.orNull? {α : Type} (some? : Value → Option α) : Value → Option (Option α)
  | .null => some none
  | v => (some? v).map some

/-- The first member of an object with a name; null if there is none. -/
def Value.member (name : String) : Value → Value
  | .object members => ((members.find? fun m => m.1 == some name).map Prod.snd).getD .null
  | _ => .null

/-- The fields of a record in their declared order, each with its value where it is present. -/
structure Record where
  /-- Whether the record was written as an array. -/
  positional : Bool
  fields : List (Option Value)

/-- How many members carry a name. -/
def occurrences (name : String) (members : List (Text × Value)) : Nat :=
  members.countP fun m => m.1 == some name

/-- A value read as a record with the named fields. -/
def Value.asRecord? (names : List String) : Value → Option Record
  | .array items =>
    if items.length ≤ names.length then
      some ⟨true, items.map some ++ List.replicate (names.length - items.length) none⟩
    else none
  | .object members =>
    if members.all (fun m => m.1.isSome) && names.all (fun n => occurrences n members ≤ 1) then
      some ⟨false, names.map fun n => (members.find? fun m => m.1 == some n).map Prod.snd⟩
    else none
  | _ => none

/-- A field that must be present. -/
def required? {α : Type} (decode? : Value → Option α) : Option Value → Option α
  | some v => decode? v
  | none => none

/-- A field that stands for `absent` when it is not present. -/
def withDefault? {α : Type} (absent : α) (decode? : Value → Option α) : Option Value → Option α
  | some v => decode? v
  | none => some absent

end ServiceDiscovery.Json
