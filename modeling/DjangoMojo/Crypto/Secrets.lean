import DjangoMojo.Foundation.PythonDict

/-! # The secrets of a model

An instance holds its secrets up to three times: as cipher text in a column, as a dictionary that
was read or written, and in the row of the database. A flag says that the dictionary is ahead of
the column.
-/

namespace DjangoMojo.Crypto

open Foundation

/-- How a model's `created` comes about: there is no such column, the insert stamps it, or it has
its value from the construction on. -/
inductive CreatedColumn where
  | absent
  | stamped
  | given (text : String)

/-- A model class, with `crypto.encrypt` and `crypto.decrypt`, which draw their salt and nonce by
`seed`, and `merge_dicts`. -/
structure SecretsModel where
  className : String
  created : CreatedColumn
  Blob : Type
  encrypt : Nat → JsonFields → String → Blob
  decrypt : Blob → String → Option JsonFields
  decrypt_encrypt : ∀ seed secrets password,
    decrypt (encrypt seed secrets password) password = some secrets
  mergeDicts : JsonFields → JsonFields → JsonFields

/-- The attributes of an instance; `pk` and `created` are the texts of theirs. -/
structure SecretsInstance (model : SecretsModel) where
  pk : Option String
  created : Option String
  mojoSecrets : Option model.Blob
  exposedSecrets : Option JsonFields
  secretsChanged : Bool

namespace SecretsInstance

variable {model : SecretsModel}

/-- A new instance, whose key the database assigns unless it is given. -/
def construct (model : SecretsModel) (pk : Option String) : SecretsInstance model where
  pk := pk
  created :=
    match model.created with
    | .given text => some text
    | .absent | .stamped => none
  mojoSecrets := none
  exposedSecrets := none
  secretsChanged := false

def password (inst : SecretsInstance model) : String :=
  let salt := inst.pk.getD "None" ++ model.className
  match model.created with
  | .absent => salt
  | .stamped | .given _ => inst.created.getD "None" ++ salt

/-- What a column of the instance holds; no result is an exception. -/
def open? (inst : SecretsInstance model) : Option model.Blob → Option JsonFields
  | none => some []
  | some blob => model.decrypt blob inst.password

/-- The property `secrets`, which keeps what it read. -/
def secrets (inst : SecretsInstance model) : Option JsonFields :=
  match inst.exposedSecrets with
  | some secrets => some secrets
  | none => inst.open? inst.mojoSecrets

def change (inst : SecretsInstance model) (secrets : JsonFields) : SecretsInstance model :=
  { inst with exposedSecrets := some secrets, secretsChanged := true }

/-- Secrets with one key set, or taken out where the value is null. -/
def put (secrets : JsonFields) (key : String) : Json → JsonFields
  | .null => secrets.pop key
  | value => secrets.set key value

def setSecret (inst : SecretsInstance model) (key : String) (value : Json) :
    Option (SecretsInstance model) :=
  inst.secrets.map fun secrets => inst.change (put secrets key value)

def setSecrets (inst : SecretsInstance model) (value : JsonFields) :
    Option (SecretsInstance model) :=
  inst.secrets.map fun secrets => inst.change (model.mergeDicts secrets value)

def clearSecrets (inst : SecretsInstance model) : SecretsInstance model :=
  { inst with mojoSecrets := none, exposedSecrets := some [], secretsChanged := true }

def saveSecrets (inst : SecretsInstance model) (seed : Nat) : SecretsInstance model :=
  if inst.secretsChanged then
    { inst with
      mojoSecrets :=
        match inst.exposedSecrets with
        | none | some [] => none
        | some secrets => some (model.encrypt seed secrets inst.password)
      secretsChanged := false }
  else inst

end SecretsInstance

structure SecretsRow (model : SecretsModel) where
  created : Option String
  mojoSecrets : Option model.Blob

def SecretsRow.load {model : SecretsModel} (row : SecretsRow model) (pk : Option String) :
    SecretsInstance model where
  pk := pk
  created := row.created
  mojoSecrets := row.mojoSecrets
  exposedSecrets := none
  secretsChanged := false

structure StoredSecrets (model : SecretsModel) where
  inst : SecretsInstance model
  row : Option (SecretsRow model)

/-- What the database contributes to a save, and the randomness of an encryption. -/
structure SaveAnswers where
  key : String
  now : String
  seed : Nat

namespace StoredSecrets

variable {model : SecretsModel}

/-- Django's own `save`; no result is an exception. -/
def modelSave (stored : StoredSecrets model) (updateFields : Option (List String))
    (answers : SaveAnswers) : Option (StoredSecrets model) :=
  match updateFields with
  | some [] => some stored
  | some fields =>
    match stored.row with
    | some row =>
      some { stored with
        row := some {
          created := if "created" ∈ fields then stored.inst.created else row.created
          mojoSecrets :=
            if "mojo_secrets" ∈ fields then stored.inst.mojoSecrets else row.mojoSecrets } }
    | none => none
  | none =>
    match stored.row with
    | some _ => some { stored with row := some ⟨stored.inst.created, stored.inst.mojoSecrets⟩ }
    | none =>
      let created :=
        match model.created with
        | .stamped => some answers.now
        | .absent | .given _ => stored.inst.created
      some {
        inst := { stored.inst with pk := some (stored.inst.pk.getD answers.key), created }
        row := some ⟨created, stored.inst.mojoSecrets⟩ }

/-- The state after `save`, and whether it returned. `objects.create` constructs an instance and
saves it fully. -/
def save (stored : StoredSecrets model) (updateFields : Option (List String))
    (answers : SaveAnswers) : StoredSecrets model × Bool :=
  if stored.inst.pk.isSome then
    let stored := { stored with inst := stored.inst.saveSecrets answers.seed }
    match stored.modelSave updateFields answers with
    | some saved => (saved, true)
    | none => (stored, false)
  else
    match stored.modelSave updateFields answers with
    | some saved =>
      let saved := { saved with inst := saved.inst.saveSecrets answers.seed }
      match saved.modelSave none answers with
      | some saved => (saved, true)
      | none => (saved, false)
    | none => (stored, false)

variable {stored inserted saved : StoredSecrets model} {updateFields : Option (List String)}
  {answers : SaveAnswers}

theorem save_of_modelSave (hpk : stored.inst.pk.isSome)
    (hsave : modelSave { stored with inst := stored.inst.saveSecrets answers.seed } updateFields
      answers = some saved) : stored.save updateFields answers = (saved, true) := by
  rw [save, if_pos hpk]
  dsimp only
  rw [hsave]

theorem save_of_raise (hpk : stored.inst.pk.isSome)
    (hsave : modelSave { stored with inst := stored.inst.saveSecrets answers.seed } updateFields
      answers = none) :
    stored.save updateFields answers =
      ({ stored with inst := stored.inst.saveSecrets answers.seed }, false) := by
  rw [save, if_pos hpk]
  dsimp only
  rw [hsave]

theorem save_of_inserted (hpk : stored.inst.pk = none)
    (hinserted : stored.modelSave updateFields answers = some inserted)
    (hsave : modelSave { inserted with inst := inserted.inst.saveSecrets answers.seed } none
      answers = some saved) : stored.save updateFields answers = (saved, true) := by
  rw [save, if_neg (by rw [hpk]; exact Bool.false_ne_true), hinserted]
  dsimp only
  rw [hsave]

theorem save_of_refused (hpk : stored.inst.pk = none)
    (hinserted : stored.modelSave updateFields answers = none) :
    stored.save updateFields answers = (stored, false) := by
  rw [save, if_neg (by rw [hpk]; exact Bool.false_ne_true), hinserted]

/-- `refresh_from_db`, which forgets the dictionary before it finds out whether there is a row. -/
def refreshFromDb (stored : StoredSecrets model) (fields : Option (List String)) :
    StoredSecrets model :=
  let inst := { stored.inst with exposedSecrets := none, secretsChanged := false }
  match stored.row with
  | some row =>
    let loads := fun field => fields.all fun fields => field ∈ fields
    { stored with
      inst := { inst with
        created := if loads "created" then row.created else inst.created
        mojoSecrets := if loads "mojo_secrets" then row.mojoSecrets else inst.mojoSecrets } }
  | none => { stored with inst }

/-- The secrets of the row, as another instance that is loaded from it reads them. -/
def loadAfresh (stored : StoredSecrets model) : Option JsonFields :=
  stored.row.bind fun row => (row.load stored.inst.pk).secrets

end StoredSecrets

end DjangoMojo.Crypto
