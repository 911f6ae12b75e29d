import DjangoMojo.Foundation.Json
import Mathlib.Data.List.Sort
import Mathlib.Data.String.Basic

/-! # Canonical JSON

A dictionary is written with its keys in order, so two values have one text if and
only if they are equal up to the order of the fields of their objects.
-/

namespace DjangoMojo.Foundation

/-! ### Sorting the fields of an object -/

def fieldLe {Value : Type} (first second : String × Value) : Prop := first.1 ≤ second.1

instance {Value : Type} : DecidableRel (@fieldLe Value) := fun first second =>
  inferInstanceAs (Decidable (first.1 ≤ second.1))

theorem lookup_orderedInsert {Value : Type} (key : String) (field : String × Value)
    (fields : List (String × Value)) :
    (fields.orderedInsert fieldLe field).lookup key = (field :: fields).lookup key := by
  induction fields with
  | nil => rfl
  | cons head rest ih =>
    rw [List.orderedInsert_cons]
    split
    next => rfl
    next hafter =>
      have hne : field.1 ≠ head.1 := fun heq => hafter (le_of_eq heq)
      rw [List.lookup_cons, ih, List.lookup_cons, List.lookup_cons, List.lookup_cons]
      cases hfield : key == field.1 with
      | true =>
        have hhead : (key == head.1) = false :=
          beq_false_of_ne fun heq => hne ((eq_of_beq hfield).symm.trans heq)
        rw [hhead]
      | false => rfl

theorem lookup_insertionSort {Value : Type} (key : String) (fields : List (String × Value)) :
    (fields.insertionSort fieldLe).lookup key = fields.lookup key := by
  induction fields with
  | nil => rfl
  | cons field rest ih =>
    rw [List.insertionSort_cons, lookup_orderedInsert, List.lookup_cons, List.lookup_cons, ih]

theorem lookup_map_snd {First Second : Type} (key : String) (change : First → Second)
    (fields : List (String × First)) :
    (fields.map fun field => (field.1, change field.2)).lookup key =
      (fields.lookup key).map change := by
  induction fields with
  | nil => rfl
  | cons field rest ih =>
    rw [List.map_cons, List.lookup_cons, List.lookup_cons, ih]
    split <;> rfl

namespace Json

mutual

/-- The value with the fields of every object in the order of `sort_keys`. -/
def canonical : Json → Json
  | .null => .null
  | .bool value => .bool value
  | .int value => .int value
  | .float text => .float text
  | .str value => .str value
  | .arr items => .arr (canonicalItems items)
  | .obj fields => .obj ((canonicalFields fields).insertionSort fieldLe)

def canonicalItems : List Json → List Json
  | [] => []
  | item :: rest => item.canonical :: canonicalItems rest

def canonicalFields : List (String × Json) → List (String × Json)
  | [] => []
  | (key, value) :: rest => (key, value.canonical) :: canonicalFields rest

end

theorem canonicalItems_eq (items : List Json) : canonicalItems items = items.map canonical := by
  induction items with
  | nil => rfl
  | cons item rest ih => rw [canonicalItems, ih, List.map_cons]

theorem canonicalFields_eq (fields : List (String × Json)) :
    canonicalFields fields = fields.map fun field => (field.1, field.2.canonical) := by
  induction fields with
  | nil => rfl
  | cons field rest ih => rw [canonicalFields, ih, List.map_cons]

def sortedFields (fields : List (String × Json)) : List (String × Json) :=
  (canonicalFields fields).insertionSort fieldLe

theorem field_sortedFields (fields : List (String × Json)) (key : String) :
    JsonFields.field (sortedFields fields) key =
      (JsonFields.field fields key).map canonical := by
  rw [JsonFields.field, sortedFields, lookup_insertionSort, canonicalFields_eq, lookup_map_snd,
    JsonFields.field]

theorem sortedFields_all (fields : List (String × Json)) (keeps : String → Bool) :
    (sortedFields fields).all (fun field => keeps field.1) =
      fields.all fun field => keeps field.1 := by
  rw [sortedFields, canonicalFields_eq, (List.perm_insertionSort _ _).all_eq, List.all_map]
  rfl

theorem sortedFields_eq_nil {fields : List (String × Json)} :
    sortedFields fields = [] ↔ fields = [] := by
  rw [← List.length_eq_zero_iff, sortedFields, List.length_insertionSort, canonicalFields_eq,
    List.length_map, List.length_eq_zero_iff]

theorem isText_canonical (text : String) (value : Json) :
    value.canonical.isText text = value.isText text := by
  cases value <;> rfl

end Json

end DjangoMojo.Foundation
