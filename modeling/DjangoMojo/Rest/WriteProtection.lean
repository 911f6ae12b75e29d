import DjangoMojo.Rest.Protection

/-! # Protected fields and the bodies of requests

A save leaves the protected fields of a model alone, for every body and every nesting of
bodies, exactly when nothing that a body reaches is a protected field or the key. The
attribute name of a foreign key passes the gate that its name does not.
-/

namespace DjangoMojo.Rest

open Foundation Foundation.Effect

/-- What the models' own methods and Django leave alone: the rows and instances keep the
column, whatever else they do, and an instance that a relation hands out has a key. A
related model may assign the field that it is asked to save. -/
structure Respects (methods : Methods) (label column : String) : Prop where
  related : ∀ ref field working before, Triple (Kept methods label column working before)
    (methods.related ref field)
    (fun target => Kept methods label column (target.toList ++ working) before)
    (Kept methods label column working before)
  assignFar : ∀ ref field target, Keeps methods label column (methods.assignFar ref field target)
  get : ∀ model key, Keeps methods label column (methods.get model key)
  setField : ∀ ref key value, Keeps methods label column (methods.setField ref key value)
  onAction : ∀ ref key value, Keeps methods label column (methods.onAction ref key value)
  resolveRestRelatedCandidate : ∀ ref field value current,
    Keeps methods label column (methods.resolveRestRelatedCandidate ref field value current)
  onRestRelatedSave : ∀ ref field value current, Spares label column ref field →
    Keeps methods label column (methods.onRestRelatedSave ref field value current)
  restCheckPermission : ∀ perms ref,
    Keeps methods label column (methods.restCheckPermission perms ref)
  createFromFile : ∀ model file name,
    Keeps methods label column (methods.createFromFile model file name)
  onRestPreSave : ∀ ref created, Keeps methods label column (methods.onRestPreSave ref created)
  onRestSaved : ∀ ref created, Keeps methods label column (methods.onRestSaved ref created)

/-- What `NO_SAVE_FIELDS` promises to a row: whatever the body holds, every protected field
keeps its column. -/
def WriteProtects (schema : Schema) (label : String) : Prop :=
  ∀ field, (schema label).Protects field → ∀ methods, Respects methods label field.attname →
    ∀ session ref, ref.label = label → Kept methods label field.attname [ref] session session →
      ∀ body, Kept methods label field.attname [ref] session
        (onRestSave schema methods ref (.obj body) session).2

section

variable {schema : Schema} {methods : Methods} {label column : String} {ref : Ref}
variable (hrespects : Respects methods label column)

include hrespects

/-! ### One field -/

theorem related_keeps {field : FieldDecl} : Keeps methods label column (methods.related ref field) :=
  fun working before => (hrespects.related ref field working before).post fun _ _ hkept =>
    ⟨hkept.rows, hkept.instances, fun other hmem => hkept.saved other (List.mem_append_right _ hmem)⟩

theorem attachByKey_keeps {model : Model} {field : FieldDecl} {related : String} {value : Json}
    (hspares : Spares label column ref field) :
    Keeps methods label column (attachByKey schema methods model ref field related value) := by
  have hdetach : Keeps methods label column (do
      recordRelated ref field none
      assign methods ref field none) :=
    recordRelated_keeps.bind fun _ => assign_keeps (hrespects.assignFar ref field _) hspares
  unfold attachByKey
  split
  next => exact hdetach
  next =>
    refine Keeps.lift.bind fun key => ?_
    split
    next => exact hdetach
    next =>
      refine Keeps.fetch.bind fun self => ?_
      split
      next => exact .pure
      next =>
        refine (hrespects.get related _).bind fun target => Keeps.bind ?_ fun allowed => ?_
        · unfold mayAttach
          split
          next => exact hrespects.restCheckPermission _ _
          next => exact .pure
        · split
          next => exact recordRelated_keeps.bind fun _ => assign_keeps (hrespects.assignFar ref field _) hspares
          next => exact .pure

/-- The related row is at work while the body that it is given is saved. -/
theorem saveNested_keeps {field : FieldDecl} {related : String} {nested : Ref → Save Unit}
    (hnested : ∀ target working before, target ∈ working →
      Triple (Kept methods label column working before) (nested target)
        (fun _ => Kept methods label column working before)
        (Kept methods label column working before)) :
    Keeps methods label column (saveNested schema methods ref field related nested) := by
  intro working before
  refine (hrespects.related ref field working before).bind fun target => ?_
  have hdrop (other : Ref) {session : Session}
      (hkept : Kept methods label column ([other] ++ working) before session) :
      Kept methods label column working before session :=
    ⟨hkept.rows, hkept.instances, fun other hmem => hkept.saved other (List.mem_append_right _ hmem)⟩
  cases target with
  | none => exact Triple.pure fun _ hkept => hkept
  | some target =>
    dsimp only
    split
    next =>
      refine Triple.bind ((hrespects.restCheckPermission _ target _ before).weaken
        (fun _ hkept => hkept) (fun _ _ hkept => hkept) fun _ => hdrop target)
        fun allowed => ?_
      split
      next =>
        exact (hnested target _ before List.mem_cons_self).weaken (fun _ hkept => hkept)
          (fun _ _ => hdrop target) fun _ => hdrop target
      next => exact Triple.pure fun _ => hdrop target
    next => exact Triple.pure fun _ => hdrop target

theorem saveRelatedField_keeps {model : Model} {field : FieldDecl} {related : String}
    {nested : Ref → Save Unit} {value : Json} (hspares : Spares label column ref field)
    (hnested : ∀ target working before, target ∈ working →
      Triple (Kept methods label column working before) (nested target)
        (fun _ => Kept methods label column working before)
        (Kept methods label column working before)) :
    Keeps methods label column
      (saveRelatedField schema methods model ref field related nested value) := by
  unfold saveRelatedField
  split
  next => exact recordRelated_keeps.bind fun _ => assign_keeps (hrespects.assignFar ref field _) hspares
  next =>
    split
    next =>
      refine (related_keeps hrespects).bind fun current => ?_
      refine (hrespects.resolveRestRelatedCandidate ref field value current).bind fun candidate => ?_
      exact recordRelated_keeps.bind fun _ => assign_keeps (hrespects.assignFar ref field _) hspares
    next =>
      split
      next => exact saveNested_keeps hrespects hnested
      next =>
        split
        next =>
          refine (related_keeps hrespects).bind fun current => Keeps.bind ?_ fun allowed => ?_
          · unfold mayHandOver
            split
            next => exact (hrespects.get related value).bind fun target =>
              hrespects.restCheckPermission _ target
            next => exact .pure
          · split
            next => exact hrespects.onRestRelatedSave ref field value current hspares
            next => exact .pure
        next =>
          split
          next => exact attachByKey_keeps hrespects hspares
          next => exact attachByKey_keeps hrespects hspares
          next => exact attachByKey_keeps hrespects hspares
          next => exact .pure

omit hrespects in
theorem updateJsonField_keeps {model : Model} {field : FieldDecl} {value : Json}
    (hspares : Spares label column ref field) (hcolumn : field.hasColumn = true) :
    Keeps methods label column (updateJsonField methods model ref field value) := by
  refine Keeps.fetch_bind fun working before self => ?_
  have hstore (new : Json) : Triple (fun session => Kept methods label column working before session ∧
      session.instances ref = some self) (store ref (self.set field new))
      (fun _ => Kept methods label column working before)
      (Kept methods label column working before) :=
    store_keeps (Harmless.set hspares hcolumn)
  dsimp only
  split
  next =>
    split
    next => exact Triple.fail fun _ hstate => hstate.1
    next => exact hstore _
  next =>
    split
    next => exact Triple.fail fun _ hstate => hstate.1
    next => exact hstore _

omit hrespects in
/-- Only a field with a column holds a plain value. -/
theorem hasColumn_of_kind {field : FieldDecl}
    (hkind : ∀ related side, field.kind ≠ .relation related side) : field.hasColumn = true := by
  unfold FieldDecl.hasColumn
  split
  next related side heq => exact absurd heq (hkind related side)
  next => rfl

theorem saveField_keeps {model : Model} {nested : Ref → Save Unit} {key : String} {value : Json}
    (hspares : ∀ field, key ∉ model.setters → model.getModelField key = some field →
      Spares label column ref field)
    (hnested : ∀ target working before, target ∈ working →
      Triple (Kept methods label column working before) (nested target)
        (fun _ => Kept methods label column working before)
        (Kept methods label column working before)) :
    Keeps methods label column (saveField schema methods model ref nested key value) := by
  unfold saveField
  split
  next =>
    split
    next => exact hrespects.setField ref key value
    next =>
      refine Keeps.fetch.bind fun before => (hrespects.setField ref key value).bind fun _ => ?_
      exact Keeps.rewrite fun _ => Harmless.setFieldChange
  next hsetter =>
    have hnot : key ∉ model.setters := by simpa using hsetter
    split
    next => exact .pure
    next field hfield =>
      have hfree := hspares field hnot hfield
      split
      next => exact saveRelatedField_keeps hrespects hfree hnested
      next hkind =>
        exact updateJsonField_keeps hfree (hasColumn_of_kind fun _ _ heq => by rw [hkind] at heq; cases heq)
      next hrelation _ =>
        refine Keeps.lift.bind fun new => Keeps.rewrite fun self => ?_
        exact Harmless.setFieldChange.trans (Harmless.set hfree (hasColumn_of_kind hrelation))

/-! ### What follows the fields -/

theorem stampEmpty_keeps {model : Model} {name : String} {target : Option Ref}
    (hother : ref.label ≠ label) : Keeps methods label column (stampEmpty methods model ref name target) := by
  unfold stampEmpty
  split
  next =>
    refine Keeps.fetch.bind fun self => ?_
    split
    next => exact assign_keeps (hrespects.assignFar ref _ _) fun hlabel => absurd hlabel hother
    next => exact .pure
  next => exact .pure

theorem stampCreated_keeps {model : Model} (hother : ref.label ≠ label) :
    Keeps methods label column (stampCreated methods model ref) := by
  refine Keeps.bind ?_ fun _ => Keeps.read.bind fun group => stampEmpty_keeps hrespects hother
  unfold stampOwner
  split
  next => exact .pure
  next => exact Keeps.read.bind fun actor => stampEmpty_keeps hrespects hother

theorem stampUpdated_keeps {model : Model}
    (hspares : ∀ field, model.ownerStamp = some field → Spares label column ref field) :
    Keeps methods label column (stampUpdated methods model ref) := by
  unfold stampUpdated
  split
  next => exact .pure
  next field hfield =>
    refine Keeps.read.bind fun actor => ?_
    split
    next => exact .pure
    next => exact assign_keeps (hrespects.assignFar ref field _) (hspares field hfield)

theorem saveFiles_keeps {model : Model} {files : Json}
    (hspares : ∀ name related field side, model.getModelField name = some field →
      field.kind = .relation related side → (schema related).createsFromFile = true →
      Spares label column ref field) :
    Keeps methods label column (saveFiles schema methods model ref files) := by
  cases files with
  | obj entries =>
    refine Keeps.forM fun entry => ?_
    unfold saveFile
    split
    next field hfield =>
      split
      next related side hkind =>
        split
        next hcreates =>
          refine (hrespects.createFromFile related entry.2 entry.1).bind fun created => ?_
          exact assign_keeps (hrespects.assignFar ref field _)
            (hspares entry.1 related field side hfield hkind hcreates)
        next => exact .pure
      next => exact .pure
    next => exact .pure
  | _ => exact .fail

theorem runActions_keeps {model : Model} {actions : JsonFields} {response : Option Json} :
    Keeps methods label column (runActions methods model ref actions response) := by
  induction actions generalizing response with
  | nil => exact .pure
  | cons entry rest ih =>
    unfold runActions
    split
    next => exact (hrespects.onAction ref _ _).bind fun _ => ih
    next => exact ih

omit hrespects in
theorem pyEq_null {value : Json} (hvalue : value ≠ .null) : value.pyEq .null = false := by
  cases value with
  | null => exact absurd rfl hvalue
  | _ => rfl

end

/-! ### The whole body -/

section

variable {schema : Schema} {methods : Methods} {label : String} {field : FieldDecl}
variable (hclosed : (schema label).Closed schema) (hprotects : (schema label).Protects field)

include hclosed hprotects

/-- Whatever a body reaches in the model is not the protected field. -/
theorem spares_of_writes {ref : Ref} {written : FieldDecl} (hmem : written ∈ (schema ref.label).fields)
    (hwrites : (schema ref.label).Writes schema written) :
    Spares label field.attname ref written := by
  intro hlabel hcolumn
  rw [hlabel] at hmem hwrites
  obtain ⟨hkey, hne⟩ := (hclosed field hprotects).2 written hwrites hcolumn
  exact ⟨hkey, fun heq => hne (Model.eq_of_attname hmem hprotects.mem heq)⟩

variable (hrespects : Respects methods label field.attname)

include hrespects

theorem saveRow_keeps {ref : Ref} {body : JsonFields} {created : Bool}
    (hcreated : ref.label = label → created = false) : Keeps methods label field.attname
      (saveRow schema methods (schema ref.label) ref body created) := by
  refine Keeps.bind ?_ fun _ => (hrespects.onRestPreSave ref created).bind fun _ =>
    Keeps.bind ?_ fun _ => Keeps.bind (save_keeps ?_) fun _ => hrespects.onRestSaved ref created
  · unfold stampRow
    split
    next htrue => exact stampCreated_keeps hrespects fun hlabel => by simp [hcreated hlabel] at htrue
    next =>
      refine stampUpdated_keeps hrespects fun stamped hstamped => spares_of_writes hclosed hprotects ?_
        (.owner stamped hstamped)
      obtain ⟨name, _, hfield⟩ := Option.bind_eq_some_iff.mp hstamped
      exact Model.getModelField_mem hfield
  · unfold saveBodyFiles
    split
    next files _ =>
      refine saveFiles_keeps hrespects fun name related written side hfield hkind hcreates => ?_
      exact spares_of_writes hclosed hprotects (Model.getModelField_mem hfield)
        (.file name related written side hfield hkind hcreates)
    next => exact .pure
  · intro hlabel stamped hmem heq
    rw [Model.eq_of_attname hmem hprotects.mem heq]
    exact (hclosed field hprotects).1

/-- An instance at work has a key, so that its save is no creation. -/
theorem finishSave_keeps {ref : Ref} {body : JsonFields} {working : List Ref} {before : Session}
    (hmem : ref ∈ working) :
    Triple (Kept methods label field.attname working before)
      (finishSave schema methods (schema ref.label) ref body)
      (fun _ => Kept methods label field.attname working before)
      (Kept methods label field.attname working before) := by
  have hactions : Keeps methods label field.attname (runActions methods (schema ref.label) ref
    (postSaveData (schema ref.label) body) none) := runActions_keeps hrespects
  have hfetch : Triple (Kept methods label field.attname working before) (fetch ref)
      (fun self session => Kept methods label field.attname working before session ∧
        (ref.label = label → self.pk.pyEq .null = false))
      (Kept methods label field.attname working before) := by
    intro session hkept
    cases hself : session.instances ref with
    | none =>
      rw [fetch_of_none hself]
      exact hkept
    | some self =>
      rw [fetch_of_some hself]
      refine ⟨hkept, fun hlabel => ?_⟩
      obtain ⟨found, hfound, hpk⟩ := hkept.saved ref hmem hlabel
      rw [hself, Option.some.injEq] at hfound
      exact pyEq_null (hfound ▸ hpk)
  refine hfetch.bind fun self => Triple.given fun hcreated => ?_
  dsimp only
  split
  next =>
    refine Triple.bind (saveRow_keeps hclosed hprotects hrespects hcreated working before) ?_
    exact fun _ => hactions working before
  next => exact hactions working before

mutual

/-- A body saves its own fields and, through the relations among them, other rows. -/
theorem onRestSave_keeps (ref : Ref) (value : Json) {working : List Ref} {before : Session}
    (hmem : ref ∈ working) :
    Triple (Kept methods label field.attname working before) (onRestSave schema methods ref value)
      (fun _ => Kept methods label field.attname working before)
      (Kept methods label field.attname working before) := by
  cases value with
  | obj body =>
    unfold onRestSave
    exact (saveEach_keeps ref body working before).bind fun _ =>
      finishSave_keeps hclosed hprotects hrespects hmem
  | _ =>
    unfold onRestSave
    exact Triple.fail fun _ hkept => hkept

theorem saveEach_keeps (ref : Ref) (body : List (String × Json)) :
    Keeps methods label field.attname (saveEach schema methods (schema ref.label) ref body) := by
  cases body with
  | nil =>
    unfold saveEach
    exact .pure
  | cons entry rest =>
    obtain ⟨key, value⟩ := entry
    unfold saveEach
    dsimp only
    split
    next => exact saveEach_keeps ref rest
    next hskips =>
      refine Keeps.bind (Keeps.keepGroup (saveField_keeps hrespects ?_ ?_))
        fun _ => saveEach_keeps ref rest
      · intro written hsetter hfield
        exact spares_of_writes hclosed hprotects (Model.getModelField_mem hfield)
          (.key key written hfield (by simpa using hskips) hsetter)
      · intro target inner start htarget
        exact (onRestSave_keeps target value htarget).bind fun _ => Triple.pure fun _ h => h

end

end

theorem writeProtects_of_closed {schema : Schema} {label : String}
    (hclosed : (schema label).Closed schema) : WriteProtects schema label := by
  intro field hprotects methods hrespects session ref _ hkept body
  have hmem : ref ∈ [ref] := List.mem_cons_self
  have hrun := onRestSave_keeps hclosed hprotects hrespects ref (.obj body) hmem session hkept
  split at hrun
  next hok => rw [hok]; exact hrun
  next herror => rw [herror]; exact hrun

end DjangoMojo.Rest
