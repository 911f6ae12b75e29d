import DjangoMojo.Foundation.Json

/-! # Rows of settings

The value of a setting is either the text of a column or an encrypted secret, as the flag of
the row says when it is read and when it is written.
-/

namespace DjangoMojo.Account

open Foundation

/-- `json.dumps`, which writes something for every value. -/
structure Dumps where
  text : Json → String
  text_ne : ∀ value, text value ≠ ""

/-- `raw_value if isinstance(raw_value, str) else json.dumps(raw_value)`. -/
def Dumps.asText (dumps : Dumps) : Json → String
  | .str text => text
  | value => dumps.text value

theorem Dumps.asText_eq_empty {dumps : Dumps} {value : Json} :
    dumps.asText value = "" ↔ value = .str "" := by
  cases value with
  | str text =>
    constructor
    · intro htext
      exact congrArg Json.str htext
    · intro hvalue
      exact Json.str.inj hvalue
  | null | bool | int | float | arr | obj => simp [asText, dumps.text_ne]

structure Setting where
  value : String
  isSecret : Bool
  secret : Json

namespace Setting

/-- `Setting()`. -/
def blank : Setting := ⟨"", false, .null⟩

def getValue (setting : Setting) : Json :=
  if setting.isSecret then setting.secret else .str setting.value

def setValue (dumps : Dumps) (setting : Setting) (raw : Json) : Setting :=
  if setting.isSecret then { setting with value := "", secret := raw }
  else { setting with value := dumps.asText raw, secret := .null }

end Setting

/-! ### Saves through REST -/

/-- The entries of a request's body, the values as they were sent. -/
inductive SettingField where
  | value (raw : Json)
  | isSecret (raw : Json)

/-- What a `BooleanField` makes of a value. -/
def booleanField : Json → Bool
  | .str text => text.toLower = "true" || text.toLower = "1"
  | raw => raw.truthy

/-- An instance that is being saved, and whether "value" is among its changed fields. -/
structure SavedSetting where
  setting : Setting
  changed : Bool

def onRestSaveField (dumps : Dumps) (saved : SavedSetting) : SettingField → SavedSetting
  | .value raw =>
    let setting := saved.setting.setValue dumps raw
    ⟨setting, saved.changed || saved.setting.value != setting.value⟩
  | .isSecret raw => { saved with setting.isSecret := booleanField raw }

def onRestPreSave (saved : SavedSetting) : Setting :=
  if saved.setting.isSecret && saved.changed then
    { saved.setting with value := "", secret := .str saved.setting.value }
  else saved.setting

/-- The bodies that hold any of the two fields, in either order. -/
inductive SettingBody where
  | neither
  | value (raw : Json)
  | isSecret (flag : Json)
  | valueThenIsSecret (raw flag : Json)
  | isSecretThenValue (flag raw : Json)

namespace SettingBody

def fields : SettingBody → List SettingField
  | neither => []
  | value raw => [.value raw]
  | isSecret flag => [.isSecret flag]
  | valueThenIsSecret raw flag => [.value raw, .isSecret flag]
  | isSecretThenValue flag raw => [.isSecret flag, .value raw]

def written : SettingBody → Option Json
  | value raw | valueThenIsSecret raw _ | isSecretThenValue _ raw => some raw
  | neither | isSecret _ => none

def secretAtWrite (before : Bool) : SettingBody → Bool
  | isSecretThenValue flag _ => booleanField flag
  | neither | value _ | isSecret _ | valueThenIsSecret _ _ => before

def secretAfter (before : Bool) : SettingBody → Bool
  | isSecret flag | valueThenIsSecret _ flag | isSecretThenValue flag _ => booleanField flag
  | neither | value _ => before

end SettingBody

def onRestSave (dumps : Dumps) (setting : Setting) (body : SettingBody) : Setting :=
  onRestPreSave (body.fields.foldl (onRestSaveField dumps) ⟨setting, false⟩)

theorem onRestSave_of_unwritten {dumps : Dumps} {setting : Setting} {body : SettingBody}
    (hbody : body.written = none) :
    onRestSave dumps setting body =
      { setting with isSecret := body.secretAfter setting.isSecret } := by
  cases body with
  | neither =>
    simp [onRestSave, SettingBody.fields, onRestPreSave, SettingBody.secretAfter]
  | isSecret flag =>
    simp [onRestSave, SettingBody.fields, onRestSaveField, onRestPreSave,
      SettingBody.secretAfter]
  | value | valueThenIsSecret | isSecretThenValue => cases hbody

/-- A body with a value writes it under the flag of that moment; the hook moves the column of a
secret row into the secrets if the column changed. -/
theorem onRestSave_of_written {dumps : Dumps} {setting : Setting} {body : SettingBody} {raw : Json}
    (hbody : body.written = some raw) :
    onRestSave dumps setting body =
      let column := if body.secretAtWrite setting.isSecret then "" else dumps.asText raw
      let secret := if body.secretAtWrite setting.isSecret then raw else .null
      if body.secretAfter setting.isSecret && setting.value != column then
        ⟨"", true, .str column⟩
      else ⟨column, body.secretAfter setting.isSecret, secret⟩ := by
  cases body with
  | neither => cases hbody
  | isSecret => cases hbody
  | value sent =>
    cases hbody
    cases hsecret : setting.isSecret <;>
      simp [onRestSave, SettingBody.fields, onRestSaveField, onRestPreSave, Setting.setValue,
        SettingBody.secretAtWrite, SettingBody.secretAfter, hsecret]
  | valueThenIsSecret sent flag =>
    cases hbody
    cases hsecret : setting.isSecret <;> cases hflag : booleanField flag <;>
      simp [onRestSave, SettingBody.fields, onRestSaveField, onRestPreSave, Setting.setValue,
        SettingBody.secretAtWrite, SettingBody.secretAfter, hsecret, hflag]
  | isSecretThenValue flag sent =>
    cases hbody
    cases hflag : booleanField flag <;>
      simp [onRestSave, SettingBody.fields, onRestSaveField, onRestPreSave, Setting.setValue,
        SettingBody.secretAtWrite, SettingBody.secretAfter, hflag]

end DjangoMojo.Account
