import Mathlib.Algebra.BigOperators.Group.List.Basic
import Mathlib.Algebra.GroupWithZero.Nat
import Mathlib.Data.List.Nodup
import Mathlib.Data.List.Sort

/-! # Tables with a primary key

A table lists its keys in insertion order and maps each of them to one row.
Statements change one row at a time; a selection is a filter over the keys.
-/

namespace DjangoMojo.Foundation

universe uKey uRow

structure Table (Key : Type uKey) (Row : Type uRow) where
  keys : List Key
  get : Key → Option Row
  nodup : keys.Nodup
  mem_keys : ∀ key, key ∈ keys ↔ (get key).isSome

namespace Table

variable {Key : Type uKey} {Row : Type uRow}

def empty : Table Key Row := ⟨[], fun _ => none, List.nodup_nil, by simp⟩

@[simp] theorem get_empty (key : Key) : (empty : Table Key Row).get key = none := rfl

def count (table : Table Key Row) : Nat := table.keys.length

/-- The keys whose rows satisfy the condition, in insertion order. -/
def select (table : Table Key Row) (condition : Key → Row → Bool) : List Key :=
  table.keys.filter fun key => (table.get key).any (condition key)

theorem mem_select {table : Table Key Row} {condition : Key → Row → Bool} {key : Key} :
    key ∈ table.select condition ↔ ∃ row, table.get key = some row ∧ condition key row := by
  simp only [select, List.mem_filter, table.mem_keys, Option.isSome_iff_exists,
    Option.any_eq_true]
  constructor
  · rintro ⟨_, row, hrow, hcondition⟩
    exact ⟨row, hrow, hcondition⟩
  · rintro ⟨row, hrow, hcondition⟩
    exact ⟨⟨row, hrow⟩, row, hrow, hcondition⟩

/-- Keys in ascending order of a measure of their rows, ties in the order given. -/
def orderedBy (table : Table Key Row) (order : Row → Int) (keys : List Key) : List Key :=
  keys.mergeSort fun first second =>
    decide ((table.get first).elim 0 order ≤ (table.get second).elim 0 order)

theorem mem_orderedBy {table : Table Key Row} {order : Row → Int} {keys : List Key} {key : Key} :
    key ∈ table.orderedBy order keys ↔ key ∈ keys :=
  (List.mergeSort_perm keys _).mem_iff

def rows (table : Table Key Row) : List (Key × Row) :=
  table.keys.filterMap fun key => (table.get key).map fun row => (key, row)

theorem mem_rows {table : Table Key Row} {key : Key} {row : Row} :
    (key, row) ∈ table.rows ↔ table.get key = some row := by
  rw [rows, List.mem_filterMap]
  constructor
  · rintro ⟨other, _, hother⟩
    obtain ⟨found, hget, heq⟩ := Option.map_eq_some_iff.mp hother
    cases heq
    exact hget
  · intro hget
    exact ⟨key, (table.mem_keys key).mpr (by rw [hget]; rfl), by rw [hget]; rfl⟩

theorem rows_nodup (table : Table Key Row) : table.rows.Nodup := by
  refine table.nodup.filterMap fun first second entry hfirst hsecond => ?_
  obtain ⟨_, _, rfl⟩ := Option.map_eq_some_iff.mp hfirst
  obtain ⟨_, _, heq⟩ := Option.map_eq_some_iff.mp hsecond
  exact (congrArg Prod.fst heq).symm

theorem map_fst_rows (table : Table Key Row) : table.rows.map Prod.fst = table.keys := by
  rw [rows, List.map_filterMap]
  refine (List.filterMap_congr fun key hkey => ?_).trans List.filterMap_some
  obtain ⟨row, hrow⟩ := Option.isSome_iff_exists.mp ((table.mem_keys key).mp hkey)
  rw [hrow]
  rfl

theorem length_rows (table : Table Key Row) : table.rows.length = table.count := by
  rw [← List.length_map, map_fst_rows, count]

def measured (measure : Row → Nat) (row : Option Row) : Nat := row.elim 0 measure

def total (table : Table Key Row) (measure : Row → Nat) : Nat :=
  (table.keys.map fun key => measured measure (table.get key)).sum

theorem count_eq_total (table : Table Key Row) : table.count = table.total fun _ => 1 := by
  have hone : ∀ key ∈ table.keys, measured (fun _ => 1) (table.get key) = 1 := by
    intro key hkey
    obtain ⟨row, hrow⟩ := Option.isSome_iff_exists.mp ((table.mem_keys key).mp hkey)
    rw [hrow]
    rfl
  rw [count, total, List.map_congr_left hone]
  simp

def mapRows (table : Table Key Row) (change : Row → Row) : Table Key Row where
  keys := table.keys
  get := fun key => (table.get key).map change
  nodup := table.nodup
  mem_keys := by simp [table.mem_keys]

@[simp] theorem get_mapRows (table : Table Key Row) (change : Row → Row) (key : Key) :
    (table.mapRows change).get key = (table.get key).map change := rfl

theorem rows_mapRows (table : Table Key Row) (change : Row → Row) :
    (table.mapRows change).rows = table.rows.map fun entry => (entry.1, change entry.2) := by
  rw [rows, rows, List.map_filterMap]
  refine List.filterMap_congr fun key _ => ?_
  rw [get_mapRows]
  cases table.get key <;> rfl

variable [DecidableEq Key]

/-- Insert a row under a new key; an existing key keeps its row. -/
def insert (table : Table Key Row) (key : Key) (row : Row) : Table Key Row :=
  if hkey : key ∈ table.keys then table else
  { keys := table.keys ++ [key]
    get := fun other => if other = key then some row else table.get other
    nodup := table.nodup.append (List.nodup_singleton key) (by simpa using hkey)
    mem_keys := by
      intro other
      by_cases heq : other = key <;> simp [heq, table.mem_keys] }

theorem get_insert (table : Table Key Row) (key : Key) (row : Row) (other : Key) :
    (table.insert key row).get other =
      if other = key then some ((table.get key).getD row) else table.get other := by
  by_cases hkey : key ∈ table.keys
  · obtain ⟨old, hold⟩ := Option.isSome_iff_exists.mp ((table.mem_keys key).mp hkey)
    by_cases heq : other = key
    · simp [insert, hkey, heq, hold]
    · simp [insert, hkey, heq]
  · have habsent : table.get key = none := by simpa [table.mem_keys] using hkey
    by_cases heq : other = key <;> simp [insert, hkey, heq, habsent]

def modify (table : Table Key Row) (key : Key) (change : Row → Row) : Table Key Row where
  keys := table.keys
  get := fun other => if other = key then (table.get other).map change else table.get other
  nodup := table.nodup
  mem_keys := by
    intro other
    by_cases heq : other = key <;> simp [heq, table.mem_keys]

@[simp] theorem get_modify (table : Table Key Row) (key other : Key) (change : Row → Row) :
    (table.modify key change).get other =
      if other = key then (table.get other).map change else table.get other := rfl

def delete (table : Table Key Row) (key : Key) : Table Key Row where
  keys := table.keys.erase key
  get := fun other => if other = key then none else table.get other
  nodup := table.nodup.erase key
  mem_keys := by
    intro other
    by_cases heq : other = key
    · simp [heq, table.nodup.mem_erase_iff]
    · simp [heq, table.nodup.mem_erase_iff, table.mem_keys]

@[simp] theorem get_delete (table : Table Key Row) (key other : Key) :
    (table.delete key).get other = if other = key then none else table.get other := rfl

def deleteKeys (table : Table Key Row) (keys : List Key) : Table Key Row := keys.foldl delete table

theorem get_of_get_deleteKeys {keys : List Key} {table : Table Key Row} {key : Key} {row : Row}
    (hrow : (table.deleteKeys keys).get key = some row) : table.get key = some row := by
  induction keys generalizing table with
  | nil => exact hrow
  | cons first rest ih =>
    have hdeleted : (table.delete first).get key = some row := ih hrow
    rw [get_delete] at hdeleted
    split at hdeleted
    · cases hdeleted
    · exact hdeleted

theorem get_deleteKeys_of_not_mem {keys : List Key} {table : Table Key Row} {key : Key}
    (hkey : key ∉ keys) : (table.deleteKeys keys).get key = table.get key := by
  induction keys generalizing table with
  | nil => rfl
  | cons first rest ih =>
    obtain ⟨hfirst, hrest⟩ := List.ne_and_not_mem_of_not_mem_cons hkey
    rw [deleteKeys, List.foldl_cons, ← deleteKeys, ih hrest, get_delete, if_neg hfirst]

def put (table : Table Key Row) (key : Key) (row : Row) : Table Key Row :=
  (table.insert key row).modify key fun _ => row

@[simp] theorem get_put (table : Table Key Row) (key : Key) (row : Row) (other : Key) :
    (table.put key row).get other = if other = key then some row else table.get other := by
  rw [put, get_modify, get_insert]
  split
  · rfl
  · rfl

theorem select_put_of_not {table : Table Key Row} {condition : Key → Row → Bool} {key : Key}
    {row : Row} (hnew : condition key row = false)
    (hold : ∀ old, table.get key = some old → condition key old = false) :
    (table.put key row).select condition = table.select condition := by
  have hsame : ∀ other, ((table.put key row).get other).any (condition other) =
      (table.get other).any (condition other) := by
    intro other
    rw [get_put]
    split
    next heq =>
      subst heq
      cases hget : table.get other with
      | none => simp [hnew]
      | some old => simp [hnew, hold old hget]
    next => rfl
  rw [select, select, List.filter_congr fun other _ => hsame other]
  by_cases hkey : (table.get key).isSome
  · have hmem := (table.mem_keys key).mpr hkey
    simp only [put, modify, insert, hmem, dite_true]
  · have habsent : key ∉ table.keys := fun hmem => hkey ((table.mem_keys key).mp hmem)
    have hnone : table.get key = none := by simpa using hkey
    simp [put, modify, insert, habsent, hnone]

theorem select_delete_of_not {table : Table Key Row} {condition : Key → Row → Bool} {key : Key}
    (hold : ∀ old, table.get key = some old → condition key old = false) :
    (table.delete key).select condition = table.select condition := by
  have hkeys : (table.delete key).keys = table.keys.filter (· ≠ key) := by
    change table.keys.erase key = _
    rw [table.nodup.erase_eq_filter]
    refine List.filter_congr fun other _ => ?_
    simp [bne, Bool.beq_eq_decide_eq]
  rw [select, select, hkeys, List.filter_filter]
  refine List.filter_congr fun other _ => ?_
  rw [get_delete]
  by_cases heq : other = key
  · subst heq
    cases hget : table.get other with
    | none => simp
    | some old => simp [hold old hget]
  · simp [heq]

theorem rows_put_perm {table : Table Key Row} {key : Key} {old : Row}
    (hold : table.get key = some old) (row : Row) :
    table.rows.Perm ((key, old) :: (table.delete key).rows) ∧
      (table.put key row).rows.Perm ((key, row) :: (table.delete key).rows) := by
  have hcons : ∀ kept : Row, ((key, kept) :: (table.delete key).rows).Nodup := by
    intro kept
    refine List.nodup_cons.mpr ⟨fun hmem => ?_, rows_nodup _⟩
    rw [mem_rows, get_delete, if_pos rfl] at hmem
    cases hmem
  refine ⟨(List.perm_ext_iff_of_nodup table.rows_nodup (hcons old)).mpr ?_,
    (List.perm_ext_iff_of_nodup (table.put key row).rows_nodup (hcons row)).mpr ?_⟩
  · rintro ⟨other, found⟩
    rw [List.mem_cons, mem_rows, mem_rows, get_delete, Prod.mk.injEq]
    by_cases hother : other = key
    · subst hother
      rw [hold, Option.some.injEq, if_pos rfl]
      simp [eq_comm]
    · simp [hother]
  · rintro ⟨other, found⟩
    rw [List.mem_cons, mem_rows, mem_rows, get_delete, get_put, Prod.mk.injEq]
    by_cases hother : other = key
    · simp [hother, eq_comm]
    · simp [hother]

theorem keys_put {table : Table Key Row} {key : Key} (hkey : (table.get key).isSome) (row : Row) :
    (table.put key row).keys = table.keys := by
  have hmem := (table.mem_keys key).mpr hkey
  simp only [put, modify, insert, hmem, dite_true]

/-! ### Properties of all rows -/

def All (table : Table Key Row) (property : Row → Prop) : Prop :=
  ∀ key row, table.get key = some row → property row

namespace All

variable {table : Table Key Row} {property : Row → Prop}

omit [DecidableEq Key] in
theorem empty : (Table.empty : Table Key Row).All property := fun _ _ hrow => nomatch hrow

theorem put (hall : table.All property) (key : Key) {row : Row} (hrow : property row) :
    (table.put key row).All property := by
  intro other found hfound
  rw [get_put] at hfound
  split at hfound
  · cases hfound
    exact hrow
  · exact hall other found hfound

theorem insert (hall : table.All property) (key : Key) {row : Row} (hrow : property row) :
    (table.insert key row).All property := by
  intro other found hfound
  rw [get_insert] at hfound
  split at hfound
  · cases hold : table.get key with
    | none =>
      rw [hold] at hfound
      cases hfound
      exact hrow
    | some old =>
      rw [hold] at hfound
      cases hfound
      exact hall key old hold
  · exact hall other found hfound

theorem modify (hall : table.All property) {key : Key} {change : Row → Row}
    (hchange : ∀ row, table.get key = some row → property row → property (change row)) :
    (table.modify key change).All property := by
  intro other found hfound
  rw [get_modify] at hfound
  split at hfound
  next heq =>
    obtain ⟨row, hrow, rfl⟩ := Option.map_eq_some_iff.mp hfound
    rw [heq] at hrow
    exact hchange row hrow (hall key row hrow)
  · exact hall other found hfound

theorem delete (hall : table.All property) (key : Key) : (table.delete key).All property := by
  intro other row hrow
  rw [get_delete] at hrow
  split at hrow
  · cases hrow
  · exact hall other row hrow

theorem deleteKeys (hall : table.All property) (keys : List Key) :
    (table.deleteKeys keys).All property :=
  fun key row hrow => hall key row (get_of_get_deleteKeys hrow)

end All

/-! ### Sums over the rows -/

variable {table : Table Key Row} (measure : Row → Nat)

theorem total_delete (table : Table Key Row) (key : Key) :
    (table.delete key).total measure + measured measure (table.get key) = table.total measure := by
  have hrest : ((table.keys.erase key).map fun other =>
      measured measure ((table.delete key).get other)) =
      (table.keys.erase key).map fun other => measured measure (table.get other) := by
    apply List.map_congr_left
    intro other hother
    rw [get_delete, if_neg]
    rintro rfl
    exact table.nodup.not_mem_erase hother
  change ((table.keys.erase key).map _).sum + _ = _
  rw [hrest, total]
  by_cases hkey : key ∈ table.keys
  · rw [add_comm]
    exact (List.sum_map_erase (fun other => measured measure (table.get other)) hkey)
  · have habsent : table.get key = none := by simpa [table.mem_keys] using hkey
    rw [habsent, List.erase_of_not_mem hkey]
    rfl

theorem total_insert {key : Key} (habsent : table.get key = none) (row : Row) :
    (table.insert key row).total measure = table.total measure + measure row := by
  have hkey : key ∉ table.keys := by
    rw [table.mem_keys, habsent]
    simp
  have hkeys : (table.insert key row).keys = table.keys ++ [key] := by rw [insert, dif_neg hkey]
  rw [total, hkeys, List.map_append, List.sum_append]
  have hold : (table.keys.map fun other => measured measure ((table.insert key row).get other)) =
      table.keys.map fun other => measured measure (table.get other) := by
    apply List.map_congr_left
    intro other hother
    rw [get_insert, if_neg]
    rintro rfl
    exact hkey hother
  rw [hold]
  simp [total, get_insert, habsent, measured]

theorem total_put (table : Table Key Row) (key : Key) (row : Row) :
    (table.put key row).total measure + measured measure (table.get key) =
      table.total measure + measure row := by
  have hdeleted : (table.put key row).total measure =
      ((table.delete key).insert key row).total measure := by
    have hget (other : Key) :
        (table.put key row).get other = ((table.delete key).insert key row).get other := by
      rw [get_put, get_insert, get_delete]
      split
      · rw [if_pos rfl]
        rfl
      next hne => rw [get_delete, if_neg hne]
    have hperm : (table.put key row).keys.Perm ((table.delete key).insert key row).keys := by
      refine (List.perm_ext_iff_of_nodup (table.put key row).nodup
        ((table.delete key).insert key row).nodup).mpr fun other => ?_
      rw [mem_keys, mem_keys, hget]
    simp only [total, hget]
    exact (hperm.map _).sum_eq
  rw [hdeleted, total_insert measure (by rw [get_delete, if_pos rfl]), add_right_comm,
    total_delete]

/-! ### The number of rows -/

theorem count_insert {key : Key} (habsent : table.get key = none) (row : Row) :
    (table.insert key row).count = table.count + 1 := by
  rw [count_eq_total, count_eq_total, total_insert _ habsent]

theorem total_delete_put (table : Table Key Row) (key : Key) (row : Row) :
    ((table.put key row).delete key).total measure = (table.delete key).total measure := by
  have hafter := (table.put key row).total_delete measure key
  have hput := table.total_put measure key row
  have hbefore := table.total_delete measure key
  rw [get_put, if_pos rfl] at hafter
  change _ + measure row = _ at hafter
  omega

theorem count_delete (table : Table Key Row) (key : Key) :
    (table.delete key).count + measured (fun _ => 1) (table.get key) = table.count := by
  rw [count_eq_total, count_eq_total, total_delete]

theorem count_delete_le (table : Table Key Row) (key : Key) :
    (table.delete key).count ≤ table.count := by
  have hcount := table.count_delete key
  omega

theorem count_put (table : Table Key Row) (key : Key) (row : Row) :
    (table.put key row).count + measured (fun _ => 1) (table.get key) = table.count + 1 := by
  rw [count_eq_total, count_eq_total, total_put]

end Table

end DjangoMojo.Foundation

/-! ## Conditional statements

`UPDATE … WHERE` and `DELETE … WHERE` on a table: the rows that meet the condition when the
statement runs are changed or removed, and the others are left alone.
-/

namespace DjangoMojo.Foundation.Table

universe uKey uRow

variable {Key : Type uKey} {Row : Type uRow} (table : Table Key Row)

def updateWhere (condition : Key → Row → Bool) (change : Row → Row) : Table Key Row where
  keys := table.keys
  get := fun key => (table.get key).map fun row => if condition key row then change row else row
  nodup := table.nodup
  mem_keys := by simp [table.mem_keys]

def deleteWhere (condition : Key → Row → Bool) : Table Key Row where
  keys := table.keys.filter fun key => ((table.get key).filter fun row => !condition key row).isSome
  get := fun key => (table.get key).filter fun row => !condition key row
  nodup := table.nodup.filter _
  mem_keys := by
    intro key
    rw [List.mem_filter, table.mem_keys]
    constructor
    · exact fun hboth => hboth.2
    · intro hkept
      refine ⟨?_, hkept⟩
      obtain ⟨row, hrow⟩ := Option.isSome_iff_exists.mp hkept
      rw [(Option.filter_eq_some_iff.mp hrow).1]
      rfl

def countWhere (condition : Key → Row → Bool) : Nat := (table.select condition).length

variable {table} {condition : Key → Row → Bool} {change : Row → Row} {key : Key}

@[simp] theorem get_updateWhere :
    (table.updateWhere condition change).get key =
      (table.get key).map fun row => if condition key row then change row else row := rfl

@[simp] theorem get_deleteWhere :
    (table.deleteWhere condition).get key =
      (table.get key).filter fun row => !condition key row := rfl

theorem updateWhere_cases {row : Row}
    (hrow : (table.updateWhere condition change).get key = some row) :
    ∃ old, table.get key = some old ∧
      ((condition key old = true ∧ row = change old) ∨ (condition key old = false ∧ row = old)) := by
  rw [get_updateWhere] at hrow
  obtain ⟨old, hold, rfl⟩ := Option.map_eq_some_iff.mp hrow
  refine ⟨old, hold, ?_⟩
  cases hcondition : condition key old with
  | true => exact .inl ⟨rfl, rfl⟩
  | false => exact .inr ⟨rfl, rfl⟩

theorem get_updateWhere_of_not {old : Row} (hold : table.get key = some old)
    (hcondition : condition key old = false) :
    (table.updateWhere condition change).get key = some old := by
  rw [get_updateWhere, hold, Option.map_some, hcondition]
  rfl

theorem get_updateWhere_of_meets {old : Row} (hold : table.get key = some old)
    (hcondition : condition key old = true) :
    (table.updateWhere condition change).get key = some (change old) := by
  rw [get_updateWhere, hold, Option.map_some, hcondition]
  rfl

end DjangoMojo.Foundation.Table
