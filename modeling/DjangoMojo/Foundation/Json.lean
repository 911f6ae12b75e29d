import Mathlib.Algebra.BigOperators.Group.List.Basic
import Mathlib.Algebra.GroupWithZero.Nat
import Mathlib.Data.List.Basic

/-! # JSON values

Values as a parser returns them: a number keeps the distinction between an
integer and a float, and an object lists its fields. The size of a value is the
number of bytes of its compact ASCII encoding, in which a character outside the
printable ASCII range is written as one or two `\uXXXX` escapes.
-/

namespace DjangoMojo.Foundation

inductive Json where
  | null
  | bool (value : Bool)
  | int (value : Int)
  | float (text : String)
  | str (value : String)
  | arr (items : List Json)
  | obj (fields : List (String × Json))

abbrev JsonFields := List (String × Json)

namespace Json

/-- `bool(value)`. -/
def truthy : Json → Bool
  | .null => false
  | .bool value => value
  | .int value => value ≠ 0
  | .float text => text ≠ "0.0" && text ≠ "-0.0"
  | .str value => value ≠ ""
  | .arr items => !items.isEmpty
  | .obj fields => !fields.isEmpty

/-- `isinstance(value, int)`, which holds of booleans. -/
def isInt : Json → Bool
  | .int _ | .bool _ => true
  | _ => false

def isText (text : String) : Json → Bool
  | .str value => value = text
  | _ => false

/-! ### Encoded size -/

def charSize (char : Char) : Nat :=
  if char = '"' ∨ char = '\\' then 2
  else if char = '\n' ∨ char = '\r' ∨ char = '\t' ∨ char.toNat = 8 ∨ char.toNat = 12 then 2
  else if 32 ≤ char.toNat ∧ char.toNat < 127 then 1
  else if char.toNat < 65536 then 6
  else 12

def textSize (text : String) : Nat := 2 + (text.toList.map charSize).sum

theorem textSize_le (text : String) : textSize text ≤ 2 + 12 * text.length := by
  have hchar (char : Char) : charSize char ≤ 12 := by
    unfold charSize
    repeat' split
    all_goals omega
  rw [textSize, ← String.length_toList]
  generalize text.toList = chars
  induction chars with
  | nil => simp
  | cons char rest ih =>
    have hfirst := hchar char
    simp only [List.map_cons, List.sum_cons, List.length_cons] at ih ⊢
    omega

/-- The commas between `count` entries. -/
def commas (count : Nat) : Nat := count - 1

mutual

/-- `len(canonical_json(value).encode("utf-8"))`. -/
def size : Json → Nat
  | .null => 4
  | .bool value => if value then 4 else 5
  | .int value => (toString value).length
  | .float text => text.length
  | .str value => textSize value
  | .arr items => 2 + itemsSize items + commas items.length
  | .obj fields => 2 + fieldsSize fields + commas fields.length

def itemsSize : List Json → Nat
  | [] => 0
  | item :: rest => item.size + itemsSize rest

def fieldsSize : List (String × Json) → Nat
  | [] => 0
  | (key, value) :: rest => textSize key + 1 + value.size + fieldsSize rest

end

theorem size_obj_filter_le (fields : List (String × Json)) (keeps : String × Json → Bool) :
    (obj (fields.filter keeps)).size ≤ (obj fields).size := by
  have hlength := List.length_filter_le keeps fields
  have hfields : fieldsSize (fields.filter keeps) ≤ fieldsSize fields := by
    clear hlength
    induction fields with
    | nil => exact Nat.le_refl _
    | cons field rest ih =>
      rw [List.filter_cons]
      split
      · rw [fieldsSize, fieldsSize]
        omega
      · rw [fieldsSize]
        omega
  simp only [size, commas]
  omega

theorem size_obj_cons_cons (key : String) (value : Json) (next : String × Json)
    (rest : List (String × Json)) :
    (obj ((key, value) :: next :: rest)).size =
      (obj (next :: rest)).size + textSize key + value.size + 2 := by
  simp only [size, fieldsSize, commas, List.length_cons]
  omega

end Json

namespace JsonFields

def field (fields : JsonFields) (key : String) : Option Json := fields.lookup key

/-- `bool(fields.get(key))`. -/
def isSet (fields : JsonFields) (key : String) : Bool := (fields.field key).any Json.truthy

def pop (fields : JsonFields) (key : String) : JsonFields := fields.filter fun entry => entry.1 ≠ key

def set (fields : JsonFields) (key : String) (value : Json) : JsonFields :=
  if (fields.field key).isSome then
    fields.map fun entry => if entry.1 = key then (key, value) else entry
  else fields ++ [(key, value)]

theorem field_eq_none_iff {fields : JsonFields} {key : String} :
    fields.field key = none ↔ ∀ entry ∈ fields, entry.1 ≠ key := by
  rw [field, List.lookup_eq_none_iff]
  constructor
  · intro hnone entry hentry heq
    simpa [heq] using hnone entry hentry
  · intro hnone entry hentry
    simpa using (hnone entry hentry).symm

theorem set_of_field_none {fields : JsonFields} {key : String} (value : Json)
    (hnone : fields.field key = none) : fields.set key value = fields ++ [(key, value)] := by
  rw [set, hnone]
  rfl

theorem foldl_pop (keys : List String) (fields : JsonFields) :
    keys.foldl pop fields = fields.filter fun entry => !keys.contains entry.1 := by
  induction keys generalizing fields with
  | nil => simp
  | cons key rest ih =>
    rw [List.foldl_cons, ih, pop, List.filter_filter]
    congr 1
    funext entry
    by_cases heq : entry.1 = key <;> simp [heq]

end JsonFields

/-! ## JSON text

The text of a value with a blank after each comma and each colon. A character outside
the printable ASCII range is written as `\uXXXX`, and as two of these from U+10000 on.
-/

namespace Json

/-- `'\\u{0:04x}'.format(code)` -/
def hexEscape (code : Nat) : List Char :=
  ['\\', 'u', (code / 4096 % 16).digitChar, (code / 256 % 16).digitChar,
    (code / 16 % 16).digitChar, (code % 16).digitChar]

def escape (char : Char) : List Char :=
  if char = '"' then ['\\', '"']
  else if char = '\\' then ['\\', '\\']
  else if char = '\n' then ['\\', 'n']
  else if char = '\r' then ['\\', 'r']
  else if char = '\t' then ['\\', 't']
  else if char.toNat = 12 then ['\\', 'f']
  else if char.toNat = 8 then ['\\', 'b']
  else if 32 ≤ char.toNat ∧ char.toNat < 127 then [char]
  else if char.toNat < 65536 then hexEscape char.toNat
  else
    hexEscape (0xd800 + (char.toNat - 65536) / 1024 % 1024) ++
      hexEscape (0xdc00 + (char.toNat - 65536) % 1024)

def escaped (text : String) : List Char := text.toList.flatMap escape

def quoted (text : String) : List Char := '"' :: (escaped text ++ ['"'])

mutual

/-- `json.dumps(value)` -/
def dumps : Json → List Char
  | .null => ['n', 'u', 'l', 'l']
  | .bool true => ['t', 'r', 'u', 'e']
  | .bool false => ['f', 'a', 'l', 's', 'e']
  | .int value => (toString value).toList
  | .float text => text.toList
  | .str value => quoted value
  | .arr [] => ['[', ']']
  | .arr (item :: rest) => '[' :: (dumps item ++ dumpsItems rest ++ [']'])
  | .obj [] => ['{', '}']
  | .obj ((key, value) :: rest) =>
    '{' :: (quoted key ++ [':', ' '] ++ dumps value ++ dumpsFields rest ++ ['}'])

def dumpsItems : List Json → List Char
  | [] => []
  | item :: rest => [',', ' '] ++ dumps item ++ dumpsItems rest

def dumpsFields : List (String × Json) → List Char
  | [] => []
  | (key, value) :: rest =>
    [',', ' '] ++ quoted key ++ [':', ' '] ++ dumps value ++ dumpsFields rest

end

example : (obj [("a", .arr [.int (-1), .null]), ("b", .str "\"é")]).dumps =
    "\x7b\"a\": [-1, null], \"b\": \"\\\"\\u00e9\"\x7d".toList := by decide +kernel

end Json

end DjangoMojo.Foundation
