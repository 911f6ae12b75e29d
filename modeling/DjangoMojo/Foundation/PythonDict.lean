import DjangoMojo.Foundation.Json

/-! # Python equality and dictionaries

Numbers are equal by value, whatever their type, and a boolean is a number. A dictionary
compares by its keys.
-/

namespace DjangoMojo.Foundation

namespace Json

def intEqFloat (number : Int) (text : String) : Bool :=
  if number = 0 then !(Json.float text).truthy
  else (Json.float text).truthy && text = toString number ++ ".0"

def boolInt (value : Bool) : Int := if value then 1 else 0

mutual

/-- `first == second`. -/
def pyEq : Json → Json → Bool
  | .null, .null => true
  | .bool first, .bool second => first = second
  | .bool first, .int second => boolInt first = second
  | .int first, .bool second => first = boolInt second
  | .int first, .int second => first = second
  | .bool first, .float second => intEqFloat (boolInt first) second
  | .float first, .bool second => intEqFloat (boolInt second) first
  | .int first, .float second => intEqFloat first second
  | .float first, .int second => intEqFloat second first
  | .float first, .float second =>
    first = second || !(Json.float first).truthy && !(Json.float second).truthy
  | .str first, .str second => first = second
  | .arr first, .arr second => pyEqItems first second
  | .obj first, .obj second => first.length = second.length && pyEqFields first second
  | _, _ => false

def pyEqItems : List Json → List Json → Bool
  | [], [] => true
  | item :: rest, other :: others => item.pyEq other && pyEqItems rest others
  | _, _ => false

def pyEqFields : List (String × Json) → List (String × Json) → Bool
  | [], _ => true
  | (key, value) :: rest, others =>
    (others.lookup key).any (fun other => value.pyEq other) && pyEqFields rest others

end

theorem truthy_of_intEqFloat {number : Int} {text : String} (heq : intEqFloat number text) :
    (Json.float text).truthy = decide (number ≠ 0) := by
  unfold intEqFloat at heq
  split at heq
  next hzero => simpa [hzero] using heq
  next hnonzero =>
    rw [Bool.and_eq_true] at heq
    rw [heq.1]
    simpa using hnonzero

theorem truthy_of_pyEq {first second : Json} (heq : first.pyEq second) :
    first.truthy = second.truthy := by
  cases first <;> cases second <;> simp only [pyEq, decide_eq_true_eq, Bool.false_eq_true] at heq
  case null.null => rfl
  case bool.bool => rw [heq]
  case bool.int first second => subst heq; cases first <;> rfl
  case int.bool first second => subst heq; cases second <;> rfl
  case int.int => rw [heq]
  case bool.float first second =>
    rw [truthy_of_intEqFloat heq]
    cases first <;> rfl
  case float.bool first second =>
    rw [truthy_of_intEqFloat heq]
    cases second <;> rfl
  case int.float => rw [truthy_of_intEqFloat heq]; rfl
  case float.int => rw [truthy_of_intEqFloat heq]; rfl
  case float.float first second =>
    rw [Bool.or_eq_true, decide_eq_true_eq, Bool.and_eq_true] at heq
    rcases heq with heq | ⟨hfirst, hsecond⟩
    · rw [heq]
    · rw [Bool.not_eq_true'] at hfirst hsecond
      rw [hfirst, hsecond]
  case str.str => rw [heq]
  case arr.arr first second => cases first <;> cases second <;> simp_all [pyEqItems, truthy]
  case obj.obj first second =>
    rw [Bool.and_eq_true, decide_eq_true_eq] at heq
    cases first <;> cases second <;> simp_all [truthy]

end Json

namespace JsonFields

variable {fields : JsonFields} {key other : String} {value : Json}

theorem field_set_self : (fields.set key value).field key = some value := by
  unfold set
  split
  next hsome =>
    induction fields with
    | nil => cases hsome
    | cons entry rest ih =>
      rw [field, List.map_cons, List.lookup_cons]
      by_cases heq : entry.1 = key
      · simp [heq]
      · have hne : (key == entry.1) = false := by simpa using Ne.symm heq
        rw [field, List.lookup_cons, hne] at hsome
        simp only [heq, if_false, hne]
        exact ih hsome
  next hnone =>
    rw [Bool.not_eq_true, Option.isSome_eq_false_iff, Option.isNone_iff_eq_none, field] at hnone
    rw [field, List.lookup_append, hnone]
    simp

theorem field_set_ne (hother : other ≠ key) : (fields.set key value).field other = fields.field other := by
  have hne : (other == key) = false := by simpa using hother
  unfold set
  split
  next =>
    clear * - hother hne
    induction fields with
    | nil => rfl
    | cons entry rest ih =>
      rw [field, field, List.map_cons, List.lookup_cons, List.lookup_cons]
      by_cases heq : entry.1 = key
      · have hentry : (other == entry.1) = false := by rw [heq]; exact hne
        simp only [heq, if_true, hne]
        exact ih
      · simp only [heq, if_false]
        cases other == entry.1 with
        | true => rfl
        | false => exact ih
  next =>
    rw [field, field, List.lookup_append, List.lookup_cons, hne]
    simp

theorem field_pop_self : (fields.pop key).field key = none := by
  rw [field_eq_none_iff]
  intro entry hentry
  rw [pop, List.mem_filter] at hentry
  simpa using hentry.2

theorem field_pop_ne (hother : other ≠ key) : (fields.pop key).field other = fields.field other := by
  rw [field, field, pop]
  induction fields with
  | nil => rfl
  | cons entry rest ih =>
    rw [List.filter_cons]
    by_cases heq : entry.1 = key
    · have hne : (other == entry.1) = false := by rw [heq]; simpa using hother
      rw [if_neg (by simpa using heq), List.lookup_cons, hne]
      exact ih
    · rw [if_pos (by simpa using heq), List.lookup_cons, List.lookup_cons]
      cases other == entry.1 with
      | true => rfl
      | false => exact ih

end JsonFields

/-! ## The encoded size of a dictionary

An object takes a fixed number of bytes for each field, whatever the others are, and one
byte more. Dropping fields, or writing a shorter value, never makes it larger.
-/

namespace JsonFields

def fieldWeight (key : String) (value : Json) : Nat := Json.textSize key + value.size + 2

def weight (fields : JsonFields) : Nat :=
  (fields.map fun field => fieldWeight field.1 field.2).sum

def weightAt (fields : JsonFields) (key : String) : Nat :=
  (fields.field key).elim 0 (fieldWeight key)

def Distinct (fields : JsonFields) : Prop := (fields.map Prod.fst).Nodup

@[simp] theorem weight_nil : weight [] = 0 := rfl

@[simp] theorem weight_cons (field : String × Json) (rest : JsonFields) :
    weight (field :: rest) = fieldWeight field.1 field.2 + weight rest := List.sum_cons

@[simp] theorem weight_append (first last : JsonFields) :
    weight (first ++ last) = weight first + weight last := by
  rw [weight, List.map_append, List.sum_append, weight, weight]

theorem fieldsSize_add_length (fields : JsonFields) :
    Json.fieldsSize fields + fields.length = weight fields := by
  induction fields with
  | nil => rfl
  | cons field rest ih =>
    rw [Json.fieldsSize, weight_cons, ← ih, List.length_cons, fieldWeight]
    omega

theorem size_obj (fields : JsonFields) :
    (Json.obj fields).size = max 2 (1 + weight fields) := by
  rw [Json.size, ← fieldsSize_add_length]
  cases fields with
  | nil => rfl
  | cons field rest =>
    have htext : 2 ≤ Json.textSize field.1 := Nat.le_add_right 2 _
    rw [Json.fieldsSize, Json.commas, List.length_cons]
    omega

theorem size_obj_le_iff {fields : JsonFields} {budget : Nat} (hbudget : 2 ≤ budget) :
    (Json.obj fields).size ≤ budget ↔ weight fields < budget := by
  rw [size_obj]
  omega

theorem weightAt_cons (field : String × Json) (rest : JsonFields) (key : String) :
    weightAt (field :: rest) key =
      if field.1 = key then fieldWeight key field.2 else weightAt rest key := by
  unfold weightAt JsonFields.field
  rw [List.lookup_cons]
  by_cases heq : field.1 = key
  · rw [if_pos heq, heq, beq_self_eq_true]
    rfl
  · rw [if_neg heq, beq_false_of_ne (Ne.symm heq)]

theorem map_replace_of_none {fields : JsonFields} {key : String}
    (hnone : ∀ field ∈ fields, field.1 ≠ key) (value : Json) :
    (fields.map fun field => if field.1 = key then (key, value) else field) = fields := by
  refine (List.map_congr_left fun field hmem => ?_).trans (List.map_id fields)
  rw [if_neg (hnone field hmem), id]

/-- A field that is written takes the place of the one under its key. -/
theorem weight_set {fields : JsonFields} (hdistinct : fields.Distinct) (key : String)
    (value : Json) :
    weight (fields.set key value) + weightAt fields key =
      weight fields + fieldWeight key value := by
  cases hfield : fields.field key with
  | none =>
    rw [set_of_field_none value hfield, weight_append, weight_cons, weight_nil, weightAt, hfield]
    rfl
  | some old =>
    rw [set, hfield, Option.isSome_some, if_pos rfl]
    induction fields with
    | nil => cases hfield
    | cons field rest ih =>
      obtain ⟨hnew, hrest⟩ := List.nodup_cons.mp hdistinct
      rw [List.map_cons, weight_cons, weight_cons, weightAt_cons]
      by_cases heq : field.1 = key
      · have hnone : ∀ other ∈ rest, other.1 ≠ key := by
          intro other hmem hother
          exact hnew (List.mem_map.mpr ⟨other, hmem, hother.trans heq.symm⟩)
        rw [map_replace_of_none hnone, if_pos heq, if_pos heq, heq]
        change fieldWeight key value + weight rest + fieldWeight key field.2 = _
        omega
      · have hold : JsonFields.field rest key = some old := by
          rw [JsonFields.field, List.lookup_cons, beq_false_of_ne (Ne.symm heq)] at hfield
          exact hfield
        rw [if_neg heq, if_neg heq]
        have hrest := ih hrest hold
        omega

theorem map_fst_set (fields : JsonFields) (key : String) (value : Json) :
    (fields.set key value).map Prod.fst =
      if (fields.field key).isSome then fields.map Prod.fst else fields.map Prod.fst ++ [key] := by
  unfold set
  split
  · rw [List.map_map]
    refine List.map_congr_left fun field _ => ?_
    by_cases heq : field.1 = key
    · simp [heq]
    · simp [heq]
  · rw [List.map_append]
    rfl

theorem isSome_field_iff {fields : JsonFields} {key : String} :
    (fields.field key).isSome ↔ key ∈ fields.map Prod.fst := by
  rw [← not_iff_not, Option.not_isSome_iff_eq_none, field_eq_none_iff, List.mem_map]
  constructor
  · rintro hnone ⟨field, hmem, heq⟩
    exact hnone field hmem heq
  · intro hnot field hmem heq
    exact hnot ⟨field, hmem, heq⟩

theorem Distinct.set {fields : JsonFields} (hdistinct : fields.Distinct) (key : String)
    (value : Json) : (fields.set key value).Distinct := by
  rw [Distinct, map_fst_set]
  split
  · exact hdistinct
  next hnone =>
    rw [isSome_field_iff] at hnone
    refine List.nodup_append.mpr ⟨hdistinct, List.pairwise_singleton _ key, ?_⟩
    intro first hfirst second hsecond heq
    rw [List.mem_singleton] at hsecond
    exact hnone (hsecond ▸ heq ▸ hfirst)

theorem mem_keys_set {fields : JsonFields} {key other : String} {value : Json} :
    other ∈ (fields.set key value).map Prod.fst ↔ other ∈ fields.map Prod.fst ∨ other = key := by
  rw [map_fst_set]
  split
  next hsome =>
    rw [isSome_field_iff] at hsome
    refine ⟨.inl, fun hother => hother.elim id fun heq => heq ▸ hsome⟩
  · rw [List.mem_append, List.mem_singleton]

theorem weight_pop_le (fields : JsonFields) (key : String) :
    weight (fields.pop key) + weightAt fields key ≤ weight fields := by
  induction fields with
  | nil => exact Nat.le_refl _
  | cons field rest ih =>
    rw [pop, List.filter_cons, weightAt_cons, weight_cons]
    by_cases heq : field.1 = key
    · rw [if_neg (by simpa using heq), if_pos heq, heq]
      have hrest : weight (pop rest key) ≤ weight rest := by omega
      rw [pop] at hrest
      omega
    · rw [if_pos (by simpa using heq), if_neg heq, weight_cons]
      rw [pop] at ih
      omega

/-- The fields under some keys weigh no more than the dictionary. -/
theorem sum_weightAt_le {keys : List String} (hnodup : keys.Nodup) (fields : JsonFields) :
    (keys.map (weightAt fields)).sum ≤ weight fields := by
  induction keys generalizing fields with
  | nil => exact Nat.zero_le _
  | cons key rest ih =>
    obtain ⟨hkey, hrest⟩ := List.nodup_cons.mp hnodup
    have hsame : rest.map (weightAt fields) = rest.map (weightAt (fields.pop key)) := by
      refine List.map_congr_left fun other hother => ?_
      have hne : other ≠ key := fun heq => hkey (heq ▸ hother)
      rw [weightAt, weightAt, field_pop_ne hne]
    have hpop := weight_pop_le fields key
    have hothers := ih hrest (fields.pop key)
    rw [List.map_cons, List.sum_cons, hsame]
    omega

theorem distinct_nil : Distinct [] := List.nodup_nil

theorem weightAt_set_ne {fields : JsonFields} {key other : String} {value : Json}
    (hother : other ≠ key) : weightAt (fields.set key value) other = weightAt fields other := by
  rw [weightAt, field_set_ne hother, weightAt]

theorem field_set {fields : JsonFields} {key other : String} {value : Json} :
    (fields.set key value).field other = if other = key then some value else fields.field other := by
  split
  next heq => rw [heq, field_set_self]
  next hne => exact field_set_ne hne

end JsonFields

namespace Json

theorem textSize_ofList (text : List Char) :
    textSize (String.ofList text) = 2 + (text.map charSize).sum := by
  rw [textSize, String.toList_ofList]

theorem textSize_le_of_starts {first text : List Char} (hstarts : first <+: text) :
    textSize (String.ofList first) ≤ textSize (String.ofList text) := by
  obtain ⟨last, rfl⟩ := hstarts
  rw [textSize_ofList, textSize_ofList, List.map_append, List.sum_append]
  omega

end Json

end DjangoMojo.Foundation
