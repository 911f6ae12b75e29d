import Mathlib.Data.List.Pairwise
import DjangoMojo.Foundation.Effects
import DjangoMojo.Foundation.PythonDict
import DjangoMojo.Foundation.PythonText

/-! # Models and their fields

What a model declares for the REST layer: its fields, the `RestMeta` lists and the
methods that its class has.
-/

namespace DjangoMojo.Rest

inductive RelationSide where
  /-- A foreign key or a one-to-one field, with a column of its own. -/
  | stored
  /-- The far side of a one-to-one field: the column belongs to the other row. -/
  | reverseOne
  | many
  deriving DecidableEq

/-- What `is_relation` and `get_internal_type()` tell apart. -/
inductive FieldKind where
  | relation (related : String) (side : RelationSide)
  | json
  | boolean
  /-- `DateTimeField` and `DateField`. -/
  | date
  /-- `IntegerField`, `FloatField` and `BigIntegerField`. -/
  | number
  | other
  deriving DecidableEq

structure FieldDecl where
  name : String
  kind : FieldKind
  null : Bool := false
  primaryKey : Bool := false
  autoNow : Bool := false
  deriving DecidableEq

namespace FieldDecl

/-- The attribute, and column, that holds the value: a foreign key keeps it under
another name. -/
def attname (field : FieldDecl) : String :=
  match field.kind with
  | .relation _ .stored => field.name ++ "_id"
  | _ => field.name

def hasColumn (field : FieldDecl) : Bool :=
  match field.kind with
  | .relation _ side => side = .stored
  | _ => true

def Apart (first second : FieldDecl) : Prop :=
  first.name ≠ second.name ∧ first.name ≠ second.attname ∧
    first.attname ≠ second.name ∧ first.attname ≠ second.attname

instance (first second : FieldDecl) : Decidable (Apart first second) :=
  inferInstanceAs (Decidable (_ ∧ _ ∧ _ ∧ _))

instance : Std.Symm Apart :=
  ⟨fun _ _ ⟨hname, hcross, hother, hattname⟩ => ⟨hname.symm, hother.symm, hcross.symm, hattname.symm⟩⟩

end FieldDecl

/-- A model with its `RestMeta`; a list that is not declared has the default that the
reader of it names. -/
structure Model where
  fields : List FieldDecl
  noSaveFields : List String := ["id", "pk", "created", "uuid"]
  postSaveActions : List String := ["action"]
  createdByOwnerField : Option String := some "user"
  updatedByOwnerField : Option String := some "modified_by"
  groupField : Option String := none
  jsonReplaceFields : List String := []
  noFkViewCheckFields : List String := []
  protectedJsonPerms : List String := []
  /-- The keys with a method `set_<key>`. -/
  setters : List String := []
  /-- The keys with a method `on_action_<key>`. -/
  actions : List String := []
  /-- `hasattr(model, "resolve_rest_related_candidate")`. -/
  resolvesCandidates : Bool := false
  /-- `hasattr(model, "on_rest_related_save")`. -/
  savesRelated : Bool := false
  /-- `hasattr(model, "rest_check_permission")`. -/
  checksPermission : Bool := true
  /-- `hasattr(model, "create_from_file")`. -/
  createsFromFile : Bool := false
  distinct : fields.Pairwise FieldDecl.Apart := by decide

namespace Model

/-- `get_model_field`: Django finds a field by its name and by its attribute name. -/
def getModelField (model : Model) (key : String) : Option FieldDecl :=
  model.fields.find? fun field => key = field.name || key = field.attname

def hasField (model : Model) (key : String) : Bool := (model.getModelField key).isSome

/-- The two tests of the field loop that keep a key from `on_rest_save_field`. -/
def skips (model : Model) (key : String) : Bool :=
  model.noSaveFields.contains key || model.postSaveActions.contains key

theorem getModelField_mem {model : Model} {key : String} {field : FieldDecl}
    (hfield : model.getModelField key = some field) : field ∈ model.fields :=
  List.mem_of_find?_eq_some hfield

theorem eq_of_attname {model : Model} {first second : FieldDecl} (hfirst : first ∈ model.fields)
    (hsecond : second ∈ model.fields) (heq : first.attname = second.attname) : first = second := by
  by_contra hne
  obtain ⟨_, _, _, hattname⟩ := model.distinct.forall hfirst hsecond hne
  exact hattname heq

end Model

abbrev Schema := String → Model

/-! ## Rows in memory and in the database

A request works on instances: copies of rows, of which one row can have several. An
instance reaches its row when it is saved.
-/

open Foundation

structure Ref where
  label : String
  number : Nat
  deriving DecidableEq

structure Instance where
  pk : Json
  columns : String → Json
  /-- `__changed_fields__`: the old values of the fields that were set. -/
  changed : JsonFields := []

/-- What a request works on: the instances, the stored columns by label and key, and
`request.group`. -/
structure Session where
  instances : Ref → Option Instance
  rows : String → Int → Option (String → Json)
  group : Option Ref := none

structure RestError where
  text : String
  deriving DecidableEq

abbrev Save (Value : Type) := Effect Session RestError Value

/-- What `on_rest_save` calls besides itself: Django, the methods that the models define
and the readers of values. -/
structure Methods where
  /-- `getattr(self, name)` of a relation. -/
  related : Ref → FieldDecl → Save (Option Ref)
  /-- `setattr(self, name, instance)` of a relation whose column, if any, is in other rows. -/
  assignFar : Ref → FieldDecl → Option Ref → Save Unit
  /-- `objects.get(pk=value)`. -/
  get : String → Json → Save Ref
  /-- `set_<key>`. -/
  setField : Ref → String → Json → Save Unit
  /-- `on_action_<key>`. -/
  onAction : Ref → String → Json → Save (Option Json)
  resolveRestRelatedCandidate : Ref → FieldDecl → Json → Option Ref → Save (Option Ref)
  onRestRelatedSave : Ref → FieldDecl → Json → Option Ref → Save Unit
  restCheckPermission : List String → Ref → Save Bool
  createFromFile : String → Json → String → Save Ref
  onRestPreSave : Ref → Bool → Save Unit
  onRestSaved : Ref → Bool → Save Unit
  /-- `_resolve_stamp_actor(request)`. -/
  resolveStampActor : Session → Option Ref
  /-- `_can_edit_protected_json`, by the permissions that the model names. -/
  canEditProtectedJson : List String → Bool
  tables : TextTables
  parseDatetime : Json → Except RestError Json
  loads : String → Option Json
  mergeDicts : JsonFields → JsonFields → JsonFields
  now : Json
  keyNumber : Json → Except RestError Int
  keyNumber_int : ∀ number, keyNumber (.int number) = .ok number
  freshKey : Session → String → Except RestError Int
  freshKey_free : ∀ {session : Session} {label : String} {key : Int},
    freshKey session label = .ok key → session.rows label key = none
  refuses : Session → Ref → Option RestError

namespace Session

def setInstance (session : Session) (ref : Ref) (self : Instance) : Session :=
  { session with instances := Function.update session.instances ref (some self) }

def setRow (session : Session) (label : String) (key : Int) (columns : String → Json) : Session :=
  { session with
    rows := Function.update session.rows label
      (Function.update (session.rows label) key (some columns)) }

theorem setInstance_self (session : Session) (ref : Ref) (self : Instance) :
    (session.setInstance ref self).instances ref = some self := Function.update_self ..

theorem setInstance_ne (session : Session) {ref other : Ref} (self : Instance) (hne : other ≠ ref) :
    (session.setInstance ref self).instances other = session.instances other :=
  Function.update_of_ne hne ..

theorem setRow_self (session : Session) (label : String) (key : Int) (columns : String → Json) :
    (session.setRow label key columns).rows label key = some columns := by
  simp [setRow]

theorem setRow_ne (session : Session) {label other : String} {key number : Int}
    (columns : String → Json) (hne : ¬ (other = label ∧ number = key)) :
    (session.setRow label key columns).rows other number = session.rows other number := by
  by_cases hlabel : other = label
  · subst hlabel
    have hnumber : number ≠ key := fun heq => hne ⟨rfl, heq⟩
    simp [setRow, Function.update_of_ne hnumber]
  · simp [setRow, Function.update_of_ne hlabel]

end Session

def fetch (ref : Ref) : Save Instance := fun session =>
  match session.instances ref with
  | some self => (.ok self, session)
  | none => (.error ⟨"no such instance"⟩, session)

theorem fetch_of_some {session : Session} {ref : Ref} {self : Instance}
    (hself : session.instances ref = some self) : fetch ref session = (.ok self, session) := by
  rw [fetch, hself]

theorem fetch_of_none {session : Session} {ref : Ref} (hnone : session.instances ref = none) :
    fetch ref session = (.error ⟨"no such instance"⟩, session) := by
  rw [fetch, hnone]

def store (ref : Ref) (changed : Instance) : Save Unit :=
  Effect.change fun session => session.setInstance ref changed

/-- The key of an instance, as a column that refers to it holds it. -/
def keyOf : Option Ref → Save Json
  | none => pure .null
  | some target => do
      let other ← fetch target
      pure other.pk

namespace Instance

/-- `getattr(self, key)` of a field with a column. -/
def value (self : Instance) (field : FieldDecl) : Json :=
  if field.primaryKey then self.pk else self.columns field.attname

def set (self : Instance) (field : FieldDecl) (value : Json) : Instance :=
  if field.primaryKey then { self with pk := value }
  else { self with columns := Function.update self.columns field.attname value }

/-- `_set_field_change`. -/
def setFieldChange (self : Instance) (key : String) (old new : Json) : Instance :=
  if old.pyEq new then self else { self with changed := self.changed.set key old }

end Instance

/-- `setattr(self, field.name, instance)`: the column takes the key of the instance. -/
def assign (methods : Methods) (ref : Ref) (field : FieldDecl) (target : Option Ref) : Save Unit :=
  if field.hasColumn then do
    let value ← keyOf target
    let changed ← fetch ref
    store ref (changed.set field value)
  else methods.assignFar ref field target

/-- `_set_field_change(field.name, old, new)` for two instances, by their keys. -/
def recordRelated (ref : Ref) (field : FieldDecl) (target : Option Ref) : Save Unit := do
  let new ← keyOf target
  let changed ← fetch ref
  store ref (changed.setFieldChange field.name (changed.value field) new)

/-- The `auto_now` fields take the current time. -/
def Instance.stamp (self : Instance) (model : Model) (now : Json) : Instance :=
  { self with
    columns := fun column =>
      if model.fields.any fun field => field.autoNow && field.attname = column then now
      else self.columns column }

def takeFreshKey (methods : Methods) (label : String) : Save Int := fun session =>
  (methods.freshKey session label, session)

/-- `save`: the columns of the instance go to the row with its key; an instance without a
key becomes a new row. -/
def save (schema : Schema) (methods : Methods) (ref : Ref) : Save Unit := do
  let self ← fetch ref
  let stamped := self.stamp (schema ref.label) methods.now
  match ← Effect.read fun session => methods.refuses session ref with
  | some error => .fail error
  | none =>
    match self.pk with
    | .null => do
        let key ← takeFreshKey methods ref.label
        store ref { stamped with pk := .int key }
        Effect.change fun session => session.setRow ref.label key stamped.columns
    | pk => do
        let key ← .lift (methods.keyNumber pk)
        store ref stamped
        Effect.change fun session => session.setRow ref.label key stamped.columns

end DjangoMojo.Rest
