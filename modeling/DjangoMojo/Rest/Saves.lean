import DjangoMojo.Rest.Session

/-! # Saving a request body onto a row

`on_rest_save` and the functions that it hands the fields of the body to. A field whose
value is an object saves the related row with that object, by the gate of its own model.
-/

namespace DjangoMojo.Rest

open Foundation

variable (schema : Schema) (methods : Methods)

/-! ### One field -/

/-- Whether an object replaces the stored one, by the model or by its own signal. -/
def replaces (model : Model) (field : FieldDecl) (incoming : JsonFields) : Bool :=
  model.jsonReplaceFields.contains field.name || incoming.isSet "__replace"

/-- The object without the signal, which a field that is always replaced keeps. -/
def sentFields (model : Model) (field : FieldDecl) (incoming : JsonFields) : JsonFields :=
  if model.jsonReplaceFields.contains field.name then incoming else incoming.pop "__replace"

/-- `"protected" in value`, of an object. -/
def holdsProtected : Json → Bool
  | .obj fields => (JsonFields.field fields "protected").isSome
  | _ => false

def parsedJson : Json → Json
  | .str text => (methods.loads text).getD (.str text)
  | value => value

/-- `value or {}`. -/
def orEmpty (value : Json) : Json := if value.truthy then value else .obj []

/-- `on_rest_update_jsonfield`. -/
def updateJsonField (model : Model) (ref : Ref) (field : FieldDecl) (value : Json) : Save Unit := do
  let changed ← fetch ref
  let denied : RestError := ⟨"Permission denied: cannot modify protected metadata"⟩
  let permitted := methods.canEditProtectedJson model.protectedJsonPerms
  match parsedJson methods value, orEmpty (changed.value field) with
  | .obj incoming, .obj present =>
    let sent := sentFields model field incoming
    let touchesProtected := holdsProtected (.obj sent) ||
      replaces model field incoming && holdsProtected (.obj present)
    if touchesProtected && !permitted then .fail denied
    else store ref (changed.set field
      (.obj (if replaces model field incoming then sent else methods.mergeDicts present sent)))
  | parsed, existing =>
    if (holdsProtected existing || holdsProtected parsed) && !permitted then .fail denied
    else store ref (changed.set field parsed)

/-- The value that `on_rest_save_field` assigns to a field that is neither a relation nor
JSON. -/
def fieldValue (field : FieldDecl) (value : Json) : Except RestError Json :=
  match field.kind with
  | .boolean =>
    match value with
    | .str text => .ok (.bool (text.toLower = "true" || text.toLower = "1"))
    | value => .ok (.bool value.truthy)
  | kind =>
    if value.isText "" && field.null then .ok .null
    else match value with
      | .null => .ok .null
      | value =>
        if kind = .date then methods.parseDatetime value
        else if value.isText "" && kind = .number then .ok (.int 0)
        else .ok value

/-- The key of a row that a body gives: `int(field_value)`. -/
def bodyKey : Json → Except RestError Int
  | .int number => .ok number
  | .bool value => .ok (Json.boolInt value)
  | .str text =>
    match methods.tables.int text.toList with
    | some number => .ok number
    | none => .error ⟨"invalid literal for int()"⟩
  | _ => .error ⟨"int() argument must be a string or a number"⟩

def isBlank : Json → Bool
  | .str text => methods.tables.strip text.toList = []
  | _ => false

/-- Whether a row may be attached by its key: its model shows it to the caller, or the
field is exempt. -/
def mayAttach (model : Model) (field : FieldDecl) (related : String) (target : Ref) : Save Bool :=
  if !model.noFkViewCheckFields.contains field.name && (schema related).checksPermission then
    methods.restCheckPermission ["VIEW_PERMS"] target
  else pure true

/-- Whether a related model that saves itself may have the value: a key of a row is checked
like one that is attached here. -/
def mayHandOver (model : Model) (field : FieldDecl) (related : String) (value : Json) : Save Bool :=
  if value.isInt && !model.noFkViewCheckFields.contains field.name &&
      (schema related).checksPermission then do
    let target ← methods.get related value
    methods.restCheckPermission ["VIEW_PERMS"] target
  else pure true

/-- The last branch of `on_rest_save_related_field`: a key, or nothing. -/
def attachByKey (model : Model) (ref : Ref) (field : FieldDecl) (related : String)
    (value : Json) : Save Unit := do
  if isBlank methods value then
    recordRelated ref field none
    assign methods ref field none
  else
    let key ← .lift (bodyKey methods value)
    if key = 0 then
      recordRelated ref field none
      assign methods ref field none
    else
      let changed ← fetch ref
      if related = ref.label && changed.pk.pyEq (.int key) then pure ()
      else
        let target ← methods.get related (.int key)
        if ← mayAttach schema methods model field related target then
          recordRelated ref field (some target)
          assign methods ref field (some target)
        else pure ()

/-- A field of the body that holds an object: the related row is saved with it, when the
caller may save that row. -/
def saveNested (ref : Ref) (field : FieldDecl) (related : String) (nested : Ref → Save Unit) :
    Save Unit := do
  match ← methods.related ref field with
  | none => pure ()
  | some target =>
    if (schema related).checksPermission then
      if ← methods.restCheckPermission ["SAVE_PERMS", "VIEW_PERMS"] target then nested target
      else pure ()
    else pure ()

/-- `on_rest_save_related_field`; `nested` saves the related row with the object that the
body holds. -/
def saveRelatedField (model : Model) (ref : Ref) (field : FieldDecl) (related : String)
    (nested : Ref → Save Unit) (value : Json) : Save Unit := do
  match value with
  | .null =>
    recordRelated ref field none
    assign methods ref field none
  | value =>
    if (schema related).resolvesCandidates then
      let current ← methods.related ref field
      let candidate ← methods.resolveRestRelatedCandidate ref field value current
      recordRelated ref field candidate
      assign methods ref field candidate
    else match value with
      | .obj _ => saveNested schema methods ref field related nested
      | value =>
        if (schema related).savesRelated then
          let current ← methods.related ref field
          if ← mayHandOver schema methods model field related value then
            methods.onRestRelatedSave ref field value current
          else pure ()
        else match value with
          | .int _ | .bool _ | .str _ =>
            attachByKey schema methods model ref field related value
          | _ => pure ()

/-- `on_rest_save_field`: a setter of the model comes first. -/
def saveField (model : Model) (ref : Ref) (nested : Ref → Save Unit) (key : String)
    (value : Json) : Save Unit := do
  if model.setters.contains key then
    match model.getModelField key with
    | none => methods.setField ref key value
    | some field =>
      let before ← fetch ref
      methods.setField ref key value
      let after ← fetch ref
      store ref (after.setFieldChange key (before.value field) (after.value field))
  else match model.getModelField key with
    | none => pure ()
    | some field =>
      match field.kind with
      | .relation related _ => saveRelatedField schema methods model ref field related nested value
      | .json => updateJsonField methods model ref field value
      | _ => do
          let new ← .lift (fieldValue methods field value)
          let changed ← fetch ref
          store ref ((changed.setFieldChange key (changed.value field) new).set field new)

/-- `request.group` is as it was when the function is done, however it ends. -/
def keepGroup {Value : Type} (action : Save Value) : Save Value := fun session =>
  match action session with
  | (result, after) => (result, { after with group := session.group })

/-! ### What follows the fields -/

/-- The stamp of a new row: a field that the body left empty takes the instance. -/
def stampEmpty (model : Model) (ref : Ref) (name : String) (target : Option Ref) : Save Unit := do
  match model.getModelField name, target with
  | some field, some target =>
    let changed ← fetch ref
    if field.hasColumn && (changed.value field).pyEq .null then assign methods ref field (some target)
    else pure ()
  | _, _ => pure ()

/-- `"__" in name`: the name is a path over relations. -/
def isPath (name : String) : Bool := name.toList.tails.any fun tail => "__".toList.isPrefixOf tail

def stampOwner (model : Model) (ref : Ref) : Save Unit :=
  match model.createdByOwnerField with
  | none => pure ()
  | some owner => do
      let actor ← Effect.read methods.resolveStampActor
      stampEmpty methods model ref owner actor

/-- The field that takes the group of the request: `GROUP_FIELD` when it names a field of
the model. -/
def groupStamp (model : Model) : String :=
  match model.groupField with
  | some name => if !isPath name && model.hasField name then name else "group"
  | none => "group"

def stampCreated (model : Model) (ref : Ref) : Save Unit := do
  stampOwner methods model ref
  let group ← Effect.read Session.group
  stampEmpty methods model ref (groupStamp model) group

def stampUpdated (model : Model) (ref : Ref) : Save Unit := do
  match model.updatedByOwnerField.bind model.getModelField with
  | none => pure ()
  | some field =>
    match ← Effect.read methods.resolveStampActor with
    | none => pure ()
    | some actor => assign methods ref field (some actor)

/-- `on_rest_save_file`. -/
def saveFile (model : Model) (ref : Ref) (name : String) (file : Json) : Save Unit := do
  match model.getModelField name with
  | some field =>
    match field.kind with
    | .relation related _ =>
      if (schema related).createsFromFile then
        let created ← methods.createFromFile related file name
        assign methods ref field (some created)
      else pure ()
    | _ => pure ()
  | none => pure ()

/-- `on_rest_save_files`. -/
def saveFiles (model : Model) (ref : Ref) : Json → Save Unit
  | .obj files => files.forM fun entry => saveFile schema methods model ref entry.1 entry.2
  | _ => .fail ⟨"the files have no items"⟩

def actionsOnly (model : Model) (body : JsonFields) : Bool :=
  body.all fun entry => model.skips entry.1

/-- `post_save_data`. -/
def postSaveData (model : Model) (body : JsonFields) : JsonFields :=
  body.filter fun entry => !model.noSaveFields.contains entry.1 &&
    model.postSaveActions.contains entry.1

/-- The actions of the body, one after the other; the last one responds. -/
def runActions (model : Model) (ref : Ref) : JsonFields → Option Json → Save (Option Json)
  | [], response => pure response
  | (key, value) :: rest, response =>
    if model.actions.contains key then do
      let answered ← methods.onAction ref key value
      runActions model ref rest answered
    else runActions model ref rest response

def stampRow (model : Model) (ref : Ref) (created : Bool) : Save Unit :=
  if created then stampCreated methods model ref else stampUpdated methods model ref

/-- The files of the body, whatever the gate says of the key `files`. -/
def saveBodyFiles (model : Model) (ref : Ref) (body : JsonFields) : Save Unit :=
  match body.field "files" with
  | some files => saveFiles schema methods model ref files
  | none => pure ()

/-- The stamps, the hooks around the save, and the save itself. -/
def saveRow (model : Model) (ref : Ref) (body : JsonFields) (created : Bool) : Save Unit := do
  stampRow methods model ref created
  methods.onRestPreSave ref created
  saveBodyFiles schema methods model ref body
  save schema methods ref
  methods.onRestSaved ref created

/-- `on_rest_save` behind the field loop: a body of actions alone saves no row. -/
def finishSave (model : Model) (ref : Ref) (body : JsonFields) : Save (Option Json) := do
  let self ← fetch ref
  let created := self.pk.pyEq .null
  if !actionsOnly model body || created then saveRow schema methods model ref body created
  runActions methods model ref (postSaveData model body) none

/-! ### The whole body -/

mutual

/-- `on_rest_save`. -/
def onRestSave (ref : Ref) : Json → Save (Option Json)
  | .obj body => do
      saveEach (schema ref.label) ref body
      finishSave schema methods (schema ref.label) ref body
  | _ => .fail ⟨"the body has no items"⟩

def saveEach (model : Model) (ref : Ref) : List (String × Json) → Save Unit
  | [] => pure ()
  | (key, value) :: rest => do
      if model.skips key then pure ()
      else keepGroup (saveField schema methods model ref
        (fun target => do let _ ← onRestSave target value) key value)
      saveEach model ref rest

end

end DjangoMojo.Rest
