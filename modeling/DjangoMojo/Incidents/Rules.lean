import DjangoMojo.Foundation.Checks
import Mathlib.Data.List.Infix
import Mathlib.Data.String.Basic

/-! # Rules and rule sets

A rule compares a field of an event with a value that is stored as text, after both are
converted to the type of the rule. A conversion that fails with another error than a
`ValueError`, texts compared with other values and invalid patterns raise. The rule sets of
a category are asked by priority until one matches.
-/

namespace DjangoMojo.Incidents.RuleChecks

open Foundation

/-! ### First answers -/

section

variable {Item : Type} {asks : Item → Except String Bool} {answers : Item → Bool}
  {Sound : Item → Prop}

def reached (stops : Item → Bool) : List Item → List Item
  | [] => []
  | item :: rest => item :: if stops item then [] else reached stops rest

variable (hasks : ∀ item answer, asks item = .ok answer ↔ Sound item ∧ answers item = answer)
include hasks

theorem anyM_ok {items : List Item} {answer : Bool} : items.anyM asks = .ok answer ↔
    (∀ item ∈ reached answers items, Sound item) ∧ items.any answers = answer := by
  induction items with
  | nil => simp [reached]
  | cons item rest ih =>
    rw [List.anyM, bind_ok, List.any_cons, reached, List.forall_mem_cons]
    cases hanswer : answers item with
    | true => simp [hasks, hanswer]
    | false => simp [hasks, hanswer, ih, and_assoc]

theorem allM_ok {items : List Item} {answer : Bool} : items.allM asks = .ok answer ↔
    (∀ item ∈ reached (fun item => !answers item) items, Sound item) ∧
      items.all answers = answer := by
  induction items with
  | nil => simp [reached]
  | cons item rest ih =>
    rw [List.allM, bind_ok, List.all_cons, reached, List.forall_mem_cons]
    cases hanswer : answers item with
    | true => simp [hasks, hanswer, ih, and_assoc]
    | false => simp [hasks, hanswer]

theorem findM_ok {items : List Item} {found : Option Item} : items.findM? asks = .ok found ↔
    (∀ item ∈ reached answers items, Sound item) ∧ items.find? answers = found := by
  induction items with
  | nil => simp [reached]
  | cons item rest ih =>
    rw [List.findM?, bind_ok, List.find?_cons, reached, List.forall_mem_cons]
    cases hanswer : answers item with
    | true => simp [hasks, hanswer]
    | false => simp [hasks, hanswer, ih, and_assoc]

end

/-! ### Values -/

/-- A value of an event other than `None`. A list, a dictionary, a datetime or an object is
no number and has no order with a text; only its text and its truth are used. -/
inductive Value (Float : Type) where
  | bool (value : Bool)
  | int (value : Int)
  | float (value : Float)
  | str (value : String)
  | other (text : String) (truthy : Bool)

/-- What `int` makes of a float. -/
inductive Whole where
  | value (value : Int)
  | nan
  | infinite

structure Language (Float : Type) where
  /-- `int(text)`, without a `ValueError`. -/
  intOf : String → Option Int
  /-- `float(text)`, without a `ValueError`. -/
  floatOf : String → Option Float
  /-- `float(value)` of an integer, without an `OverflowError`. -/
  floatOfInt : Int → Option Float
  /-- `int(value)` of a float. -/
  whole : Float → Whole
  isZero : Float → Bool
  eq : Float → Float → Bool
  lt : Float → Float → Bool
  le : Float → Float → Bool
  /-- `str(value)` of a float. -/
  floatText : Float → String
  compiles : String → Bool
  /-- `re.search` finds the pattern in the text, in any case. -/
  search : String → String → Bool

structure Rule where
  index : Int
  fieldName : Option String
  comparator : String
  value : String
  valueType : String

structure Event (Float : Type) where
  metadata : Option (List (String × Option (Value Float)))
  /-- `getattr(event, name, None)`, which a property may raise from. -/
  getattr : String → Except String (Option (Value Float))

section

variable {Float : Type} (language : Language Float)

namespace Value

/-- `str(value)`. -/
def text : Value Float → String
  | bool value => if value then "True" else "False"
  | int value => toString value
  | float value => language.floatText value
  | str value => value
  | other text _ => text

/-- `bool(value)`. -/
def truth : Value Float → Bool
  | bool value => value
  | int value => value ≠ 0
  | float value => !language.isZero value
  | str value => value ≠ ""
  | other _ truthy => truthy

/-- `int(value)`; a `ValueError` is `none`. -/
def toInt : Value Float → Except String (Option Int)
  | bool value => pure (some (if value then 1 else 0))
  | int value => pure (some value)
  | float value =>
    match language.whole value with
    | .value whole => pure (some whole)
    | .nan => pure none
    | .infinite => throw "OverflowError"
  | str value => pure (language.intOf value)
  | other _ _ => throw "TypeError"

/-- `float(value)`; a `ValueError` is `none`. -/
def toFloat : Value Float → Except String (Option Float)
  | bool value => ofInt (if value then 1 else 0)
  | int value => ofInt value
  | float value => pure (some value)
  | str value => pure (language.floatOf value)
  | other _ _ => throw "TypeError"
where
  ofInt (value : Int) : Except String (Option Float) :=
    match language.floatOfInt value with
    | some converted => pure (some converted)
    | none => throw "OverflowError"

/-- `left == right`. -/
def equal : Value Float → Value Float → Bool
  | bool left, bool right => left = right
  | int left, int right => left = right
  | float left, float right => language.eq left right
  | str left, str right => left = right
  | _, _ => false

def Ordered : Value Float → Value Float → Prop
  | bool _, bool _ => True
  | int _, int _ => True
  | float _, float _ => True
  | str _, str _ => True
  | _, _ => False

instance (left right : Value Float) : Decidable (left.Ordered right) := by
  unfold Ordered
  split <;> infer_instance

/-- `left < right`, of values of one type. -/
def less : Value Float → Value Float → Bool
  | bool left, bool right => !left && right
  | int left, int right => left < right
  | float left, float right => language.lt left right
  | str left, str right => left < right
  | _, _ => false

/-- `left <= right`, of values of one type. -/
def atMost : Value Float → Value Float → Bool
  | bool left, bool right => !left || right
  | int left, int right => left ≤ right
  | float left, float right => language.le left right
  | str left, str right => left ≤ right
  | _, _ => false

end Value

/-! ### Rules -/

def Rule.field (rule : Rule) : Option String :=
  match rule.fieldName with
  | none => none
  | some name =>
    if name = "" then none
    else
      let name := if "metadata.".toList <+: name.toList then String.ofList (name.toList.drop 9)
        else name
      if "_".toList <+: name.toList then none else some name

/-- `event.metadata.get(name)`, and else the attribute. -/
def Event.get (event : Event Float) (name : String) :
    Except String (Option (Value Float)) :=
  match event.metadata with
  | none => throw "AttributeError"
  | some metadata =>
    match (metadata.lookup name).join with
    | some value => pure (some value)
    | none => event.getattr name

/-- `_convert_values`; a `ValueError` is `none`. -/
def Rule.convertValues (rule : Rule) (field : Value Float) :
    Except String (Option (Value Float × Value Float)) :=
  if rule.comparator = "contains" then pure (some (field, .str rule.value))
  else
    match rule.valueType with
    | "int" => do
        match ← field.toInt language with
        | none => pure none
        | some left => pure ((language.intOf rule.value).map fun right => (.int left, .int right))
    | "float" => do
        match ← field.toFloat language with
        | none => pure none
        | some left =>
          pure ((language.floatOf rule.value).map fun right => (.float left, .float right))
    | "bool" => pure (some (.bool (field.truth language), .bool (rule.value ≠ "")))
    | "str" => pure (some (.str (field.text language), .str rule.value))
    | _ => pure (some (field, .str rule.value))

/-- What the comparator says of two values; `contains` and `regex` are about their texts. -/
def relation (comparator : String) (left right : Value Float) : Bool :=
  match comparator with
  | "==" => left.equal language right
  | "eq" => left.equal language right
  | ">" => right.less language left
  | ">=" => right.atMost language left
  | "<" => left.less language right
  | "<=" => left.atMost language right
  | "contains" => (right.text language).toList <:+: (left.text language).toList
  | "regex" => language.compiles (right.text language) &&
      language.search (right.text language) (left.text language)
  | _ => false

/-- `_compare`, which evaluates every comparison for each comparator. -/
def compare (comparator : String) (left right : Value Float) : Except String Bool := do
  check (left.Ordered right) "TypeError"
  check (language.compiles (right.text language)) "re.error"
  pure (relation language comparator left right)

def compareConverted (comparator : String) :
    Option (Value Float × Value Float) → Except String Bool
  | none => pure false
  | some (left, right) => compare language comparator left right

def checkField (rule : Rule) : Option (Value Float) → Except String Bool
  | none => pure false
  | some field => do
      let converted ← rule.convertValues language field
      compareConverted language rule.comparator converted

/-- `check_rule`. -/
def checkRule (event : Event Float) (rule : Rule) : Except String Bool :=
  match rule.field with
  | none => pure false
  | some name => do
      let field ← event.get name
      checkField language rule field

/-! ### Rule sets -/

structure RuleSet where
  category : String
  isActive : Bool
  priority : Int
  matchBy : Int
  rules : List Rule

/-- `rules.order_by("index")`. -/
def RuleSet.ordered (ruleSet : RuleSet) : List Rule :=
  ruleSet.rules.insertionSort fun one other => one.index ≤ other.index

def checkAllMatch (event : Event Float) (ruleSet : RuleSet) : Except String Bool :=
  if ruleSet.ordered = [] then pure true
  else ruleSet.ordered.allM (checkRule language event)

def checkAnyMatch (event : Event Float) (ruleSet : RuleSet) : Except String Bool :=
  if ruleSet.ordered = [] then pure true
  else ruleSet.ordered.anyM (checkRule language event)

def checkRules (event : Event Float) (ruleSet : RuleSet) : Except String Bool :=
  if ruleSet.matchBy = 0 then checkAllMatch language event ruleSet
  else checkAnyMatch language event ruleSet

def ofCategory (category : String) (ruleSets : List RuleSet) : List RuleSet :=
  (ruleSets.filter fun ruleSet => ruleSet.category = category && ruleSet.isActive).insertionSort
    fun one other => one.priority ≤ other.priority

/-- `check_by_category`. -/
def checkByCategory (ruleSets : List RuleSet) (category : String) (event : Event Float) :
    Except String (Option RuleSet) :=
  (ofCategory category ruleSets).findM? (checkRules language event)

/-! ### What a rule means -/

def Event.present (event : Event Float) (name : String) : Option (Value Float) :=
  event.metadata.bind fun metadata =>
    match (metadata.lookup name).join with
    | some value => some value
    | none => (event.getattr name).toOption.join

/-- Both sides in the type of the rule, where they convert. -/
def Rule.converted (rule : Rule) (field : Value Float) : Option (Value Float × Value Float) :=
  (rule.convertValues language field).toOption.join

/-- The field is present, both sides convert and the relation of the comparator holds. -/
def means (event : Event Float) (rule : Rule) : Bool :=
  ((rule.field.bind event.present).bind (rule.converted language)).any fun pair =>
    relation language rule.comparator pair.1 pair.2

/-- The rule converts no infinite float, no list and no object to a number, and no integer
that is too large to a float. -/
def Rule.Converts (rule : Rule) (field : Value Float) : Prop :=
  rule.comparator ≠ "contains" →
    match rule.valueType, field with
    | "int", .float value => language.whole value ≠ .infinite
    | "int", .other _ _ => False
    | "float", .int value => (language.floatOfInt value).isSome
    | "float", .bool value => (language.floatOfInt (if value then 1 else 0)).isSome
    | "float", .other _ _ => False
    | _, _ => True

/-- What the rule reads and converts raises nothing; a text is compared with a text, and
the text of the rule's value is a valid pattern. -/
structure Sound (event : Event Float) (rule : Rule) : Prop where
  dictionary : rule.field.isSome → event.metadata.isSome
  readable : ∀ name, rule.field = some name → ∀ metadata, event.metadata = some metadata →
    (metadata.lookup name).join = none → ∃ found, event.getattr name = .ok found
  converts : ∀ field, rule.field.bind event.present = some field → rule.Converts language field
  compares : ∀ left right,
    (rule.field.bind event.present).bind (rule.converted language) = some (left, right) →
      left.Ordered right ∧ language.compiles (right.text language) = true

variable {language} {event : Event Float}

theorem Event.get_ok {name : String} {found : Option (Value Float)} :
    event.get name = .ok found ↔
      event.metadata.isSome ∧ (∀ metadata, event.metadata = some metadata →
        (metadata.lookup name).join = none → ∃ found, event.getattr name = .ok found) ∧
      event.present name = found := by
  unfold Event.get Event.present
  cases event.metadata with
  | none => simp
  | some metadata =>
    simp only [Option.bind_some, Option.isSome_some, true_and, Option.some.injEq, forall_eq']
    cases (metadata.lookup name).join with
    | some value => simp
    | none =>
      cases event.getattr name with
      | error raised => simp
      | ok value => simp [Except.toOption]

theorem toInt_ok {value : Value Float} : (∃ found, value.toInt language = .ok found) ↔
    match value with
    | .float value => language.whole value ≠ .infinite
    | .other _ _ => False
    | _ => True := by
  cases value with
  | float value =>
    simp only [Value.toInt]
    cases language.whole value with
    | value whole => simp
    | nan => simp
    | infinite => simp
  | bool => simp [Value.toInt]
  | int => simp [Value.toInt]
  | str => simp [Value.toInt]
  | other => simp [Value.toInt]

theorem toFloat_ok {value : Value Float} : (∃ found, value.toFloat language = .ok found) ↔
    match value with
    | .int value => (language.floatOfInt value).isSome
    | .bool value => (language.floatOfInt (if value then 1 else 0)).isSome
    | .other _ _ => False
    | _ => True := by
  have hint (value : Int) : (∃ found, Value.toFloat.ofInt language value = .ok found) ↔
      (language.floatOfInt value).isSome := by
    unfold Value.toFloat.ofInt
    cases language.floatOfInt value with
    | none => simp
    | some converted => simp
  cases value with
  | int value => exact hint value
  | bool value => exact hint _
  | float => simp [Value.toFloat]
  | str => simp [Value.toFloat]
  | other => simp [Value.toFloat]

theorem Rule.converts_iff {rule : Rule} {field : Value Float} :
    rule.Converts language field ↔ ∃ found, rule.convertValues language field = .ok found := by
  unfold Rule.Converts Rule.convertValues
  by_cases hcontains : rule.comparator = "contains"
  · simp [hcontains]
  · rw [if_neg hcontains]
    simp only [ne_eq, hcontains, not_false_eq_true, forall_const]
    have hbind {Number : Type} {converts : Except String (Option Number)}
        {next : Option Number → Except String (Option (Value Float × Value Float))}
        (hnext : ∀ number, ∃ found, next number = .ok found) :
        (∃ found, (converts >>= next) = .ok found) ↔ ∃ number, converts = .ok number := by
      simp only [bind_ok]
      constructor
      · rintro ⟨_, number, hnumber, _⟩
        exact ⟨number, hnumber⟩
      · rintro ⟨number, hnumber⟩
        obtain ⟨found, hfound⟩ := hnext number
        exact ⟨found, number, hnumber, hfound⟩
    by_cases hint : rule.valueType = "int"
    · simp only [hint]
      rw [hbind, toInt_ok]
      · cases field <;> simp
      · intro number
        cases number with
        | none => exact ⟨_, rfl⟩
        | some => exact ⟨_, rfl⟩
    · by_cases hfloat : rule.valueType = "float"
      · simp only [hfloat]
        rw [hbind, toFloat_ok]
        · cases field <;> simp
        · intro number
          cases number with
          | none => exact ⟨_, rfl⟩
          | some => exact ⟨_, rfl⟩
      · refine iff_of_true ?_ ?_
        · split
          next heq => exact absurd heq hint
          next heq => exact absurd heq hint
          next heq => exact absurd heq hfloat
          next heq => exact absurd heq hfloat
          next heq => exact absurd heq hfloat
          next => trivial
        · split
          next heq => exact absurd heq hint
          next heq => exact absurd heq hfloat
          next => exact ⟨_, rfl⟩
          next => exact ⟨_, rfl⟩
          next => exact ⟨_, rfl⟩

theorem Rule.convertValues_ok {rule : Rule} {field : Value Float}
    {found : Option (Value Float × Value Float)} :
    rule.convertValues language field = .ok found ↔
      rule.Converts language field ∧ rule.converted language field = found := by
  rw [converts_iff, converted]
  cases rule.convertValues language field with
  | error raised => simp
  | ok other => simp [Except.toOption]

theorem compare_ok {comparator : String} {left right : Value Float} {answer : Bool} :
    compare language comparator left right = .ok answer ↔
      (left.Ordered right ∧ language.compiles (right.text language) = true) ∧
        relation language comparator left right = answer := by
  simp only [compare, bind_ok, check_ok, decide_eq_true_eq, pure_ok, exists_const, and_assoc]

theorem checkField_ok {rule : Rule} {found : Option (Value Float)} {answer : Bool} :
    checkField language rule found = .ok answer ↔
      (∀ field, found = some field → rule.Converts language field ∧
        ∀ left right, rule.converted language field = some (left, right) →
          left.Ordered right ∧ language.compiles (right.text language) = true) ∧
      (found.bind (rule.converted language)).any (fun pair =>
        relation language rule.comparator pair.1 pair.2) = answer := by
  cases found with
  | none => simp [checkField]
  | some field =>
    simp only [checkField, bind_ok, Rule.convertValues_ok, Option.some.injEq, forall_eq',
      Option.bind_some]
    cases rule.converted language field with
    | none => simp [compareConverted]
    | some pair => simp [compareConverted, compare_ok, Prod.ext_iff, and_assoc]

theorem sound_iff {rule : Rule} {name : String} (hname : rule.field = some name) :
    Sound language event rule ↔
      (event.metadata.isSome ∧ ∀ metadata, event.metadata = some metadata →
        (metadata.lookup name).join = none → ∃ found, event.getattr name = .ok found) ∧
      ∀ field, event.present name = some field → rule.Converts language field ∧
        ∀ left right, rule.converted language field = some (left, right) →
          left.Ordered right ∧ language.compiles (right.text language) = true := by
  constructor
  · intro hsound
    refine ⟨⟨hsound.dictionary (by rw [hname]; rfl), hsound.readable name hname⟩, ?_⟩
    intro field hfield
    have hbound : rule.field.bind event.present = some field := by rw [hname]; exact hfield
    refine ⟨hsound.converts field hbound, fun left right hpair => ?_⟩
    exact hsound.compares left right (by rw [hbound]; exact hpair)
  · rintro ⟨⟨hdictionary, hreadable⟩, hfields⟩
    refine ⟨fun _ => hdictionary, fun other hother => ?_, fun field hfield => ?_,
      fun left right hpair => ?_⟩
    · cases hname.symm.trans hother
      exact hreadable
    · rw [hname] at hfield
      exact (hfields field hfield).1
    · obtain ⟨field, hfield, hconverted⟩ := Option.bind_eq_some_iff.mp hpair
      rw [hname] at hfield
      exact (hfields field hfield).2 left right hconverted

theorem checkRule_ok {rule : Rule} {answer : Bool} :
    checkRule language event rule = .ok answer ↔
      Sound language event rule ∧ means language event rule = answer := by
  unfold checkRule means
  cases hname : rule.field with
  | none =>
    have hsound : Sound language event rule :=
      ⟨fun hsome => by simp [hname] at hsome, fun name hsome => by simp [hname] at hsome,
        fun field hfield => by simp [hname] at hfield,
        fun left right hpair => by simp [hname] at hpair⟩
    simp [hsound]
  | some name =>
    rw [sound_iff hname]
    simp only [bind_ok, Event.get_ok, Option.bind_some]
    constructor
    · rintro ⟨_, ⟨hdictionary, hreadable, rfl⟩, hanswer⟩
      obtain ⟨hsound, hmeans⟩ := checkField_ok.mp hanswer
      exact ⟨⟨⟨hdictionary, hreadable⟩, hsound⟩, hmeans⟩
    · rintro ⟨⟨⟨hdictionary, hreadable⟩, hsound⟩, hmeans⟩
      exact ⟨_, ⟨hdictionary, hreadable, rfl⟩, checkField_ok.mpr ⟨hsound, hmeans⟩⟩

variable (language) (event)

/-- A rule set without rules fits every event of its category; else all rules mean the
event or any of them. -/
def RuleSet.fits (ruleSet : RuleSet) : Bool :=
  if ruleSet.ordered = [] then true
  else if ruleSet.matchBy = 0 then ruleSet.ordered.all (means language event)
  else ruleSet.ordered.any (means language event)

def RuleSet.asked (ruleSet : RuleSet) : List Rule :=
  if ruleSet.matchBy = 0 then reached (fun rule => !means language event rule) ruleSet.ordered
  else reached (means language event) ruleSet.ordered

variable {language} {event}

theorem checkRules_ok {ruleSet : RuleSet} {answer : Bool} :
    checkRules language event ruleSet = .ok answer ↔
      (∀ rule ∈ ruleSet.asked language event, Sound language event rule) ∧
        ruleSet.fits language event = answer := by
  have hasks (rule : Rule) (answer : Bool) := @checkRule_ok _ language event rule answer
  unfold checkRules checkAllMatch checkAnyMatch RuleSet.asked RuleSet.fits
  by_cases hempty : ruleSet.ordered = []
  · simp [hempty, reached]
  · by_cases hall : ruleSet.matchBy = 0
    · simp only [if_pos hall, if_neg hempty, allM_ok hasks]
    · simp only [if_neg hall, if_neg hempty, anyM_ok hasks]

variable (language) (event)

/-- A rule answers what it means if and only if it is sound for the event, and a category
is answered by its first rule set that fits if and only if each rule that is asked on the
way is sound. -/
theorem checks_iff (ruleSets : List RuleSet) (category : String) :
    (∀ rule, checkRule language event rule = .ok (means language event rule) ↔
      Sound language event rule) ∧
    (checkByCategory language ruleSets category event =
        .ok ((ofCategory category ruleSets).find? fun ruleSet => ruleSet.fits language event) ↔
      ∀ ruleSet ∈ reached (fun ruleSet => ruleSet.fits language event)
          (ofCategory category ruleSets),
        ∀ rule ∈ ruleSet.asked language event, Sound language event rule) := by
  constructor
  · intro rule
    rw [checkRule_ok]
    exact and_iff_left rfl
  · have hasks (ruleSet : RuleSet) (answer : Bool) :=
      @checkRules_ok _ language event ruleSet answer
    rw [checkByCategory, findM_ok hasks]
    exact and_iff_left rfl

end

/-! ### A list of tags -/

def plainLanguage : Language Empty where
  intOf text := text.toInt?
  floatOf _ := none
  floatOfInt _ := none
  whole value := nomatch value
  isZero value := nomatch value
  eq value := nomatch value
  lt value := nomatch value
  le value := nomatch value
  floatText value := nomatch value
  compiles _ := true
  search pattern text := pattern.toList <:+: text.toList

def taggedEvent : Event Empty where
  metadata := some [("tags", some (.other "['vpn']" true))]
  getattr _ := .ok none

def tagRule : Rule where
  index := 0
  fieldName := some "tags"
  comparator := "contains"
  value := "vpn"
  valueType := "str"

/-- The rule means the event, and raises. -/
theorem tagRule_raises : ¬(checkRule plainLanguage taggedEvent tagRule =
    .ok (means plainLanguage taggedEvent tagRule)) := by
  have hraises : checkRule plainLanguage taggedEvent tagRule = .error "TypeError" := by
    rfl
  rw [hraises]
  nofun

end DjangoMojo.Incidents.RuleChecks
