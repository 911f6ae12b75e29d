import DjangoMojo.Foundation.Trace
import DjangoMojo.Account.Setting

/-! # Secret settings

What is kept of a setting over any sequence of creations, `Setting.set` and saves through REST.
A save that changes the flag moves the value to the other representation only where it writes a
value in the right place of the body.
-/

namespace DjangoMojo.Account

open Foundation

variable {dumps : Dumps}

structure SettingHistory where
  row : Option Setting
  written : Option Json

def SettingHistory.none : SettingHistory := ⟨Option.none, Option.none⟩

/-- The answers say whether the checks of the key and its validator let a save pass. -/
inductive SettingCall where
  | create (body : SettingBody) (accepted : Bool)
  | save (body : SettingBody) (accepted : Bool)
  /-- `Setting.set`, which makes the row first where there is none. -/
  | set (raw : Json) (isSecret made accepted : Bool)

namespace SettingHistory

/-- A row is saved with a body, unless the checks refuse it. -/
def saved (dumps : Dumps) (history : SettingHistory) (setting : Setting) (body : SettingBody) :
    SettingHistory :=
  ⟨some (onRestSave dumps setting body), body.written.or history.written⟩

def step (dumps : Dumps) (history : SettingHistory) : SettingCall → Option SettingHistory
  | .create body accepted =>
    match history.row with
    | some _ => Option.none
    | Option.none => some (if accepted then history.saved dumps .blank body else history)
  | .save body accepted =>
    match history.row with
    | some setting => some (if accepted then history.saved dumps setting body else history)
    | Option.none => Option.none
  | .set raw isSecret made accepted =>
    let row := history.row.or (if made then some { Setting.blank with isSecret } else Option.none)
    match row with
    | some setting =>
      if accepted then
        some ⟨some ({ setting with isSecret }.setValue dumps raw), some raw⟩
      else some { history with row := some setting }
    | Option.none => some history

end SettingHistory

/-- What was written, or the text that a column holds for it. -/
def Returns (dumps : Dumps) (shown raw : Json) : Prop :=
  shown = raw ∨ shown = .str (dumps.asText raw)

/-- A secret has no plain text, and the value is the one that was written last. -/
def Faithful (dumps : Dumps) (setting : Setting) (written : Option Json) : Prop :=
  (setting.isSecret → setting.value = "") ∧
    ∀ raw, written = some raw → Returns dumps setting.getValue raw

def SettingHistory.Faithful (dumps : Dumps) (history : SettingHistory) : Prop :=
  ∀ setting, history.row = some setting → Account.Faithful dumps setting history.written

/-- Where nothing was written, both representations are empty. -/
structure SettingHistory.Fresh (history : SettingHistory) : Prop where
  unwritten : history.row = Option.none → history.written = Option.none
  empty : history.written = Option.none → ∀ setting, history.row = some setting →
    setting.value = "" ∧ setting.secret = .null

/-- A body without a value leaves the flag alone, unless there is no value yet, or it is the
empty text and the secrets hold it. A body with a value writes a secret over an empty column that
stays secret, or the empty text; or it writes a column that stays plain or changes. -/
def SettingBody.KeepsValue (dumps : Dumps) (setting : Setting) (written : Option Json)
    (body : SettingBody) : Prop :=
  match body.written with
  | none =>
    body.secretAfter setting.isSecret = setting.isSecret ∨ written = none ∨
      written = some (.str "") ∧ setting.secret = .str ""
  | some raw =>
    if body.secretAtWrite setting.isSecret then
      body.secretAfter setting.isSecret = true ∧ setting.value = "" ∨ raw = .str ""
    else body.secretAfter setting.isSecret = true → dumps.asText raw ≠ setting.value

def SettingCall.KeepsValue (dumps : Dumps) (history : SettingHistory) : SettingCall → Prop
  | .create body accepted => accepted → body.KeepsValue dumps .blank history.written
  | .save body accepted =>
    accepted → ∀ setting, history.row = some setting →
      body.KeepsValue dumps setting history.written
  | .set .. => True

theorem returns_self (raw : Json) : Returns dumps raw raw := .inl rfl

theorem returns_asText (raw : Json) : Returns dumps (.str (dumps.asText raw)) raw := .inr rfl

theorem returns_empty {raw : Json} : Returns dumps (.str "") raw ↔ raw = .str "" := by
  constructor
  · rintro (hraw | htext)
    · exact hraw.symm
    · exact Dumps.asText_eq_empty.mp (Json.str.inj htext).symm
  · intro hraw
    exact .inl hraw.symm

theorem returns_of_empty {shown : Json} : Returns dumps shown (.str "") ↔ shown = .str "" :=
  or_self_iff

theorem faithful_of_unwritten {setting : Setting} {written : Option Json} {body : SettingBody}
    (hbody : body.written = none)
    (hfresh : written = none → setting.value = "" ∧ setting.secret = .null)
    (hgood : Faithful dumps setting written) :
    Faithful dumps (onRestSave dumps setting body) written ↔
      body.KeepsValue dumps setting written := by
  rw [onRestSave_of_unwritten hbody, SettingBody.KeepsValue, hbody]
  dsimp only
  generalize body.secretAfter setting.isSecret = after
  obtain ⟨hplain, hshown⟩ := hgood
  cases written with
  | none => simp [Faithful, hfresh rfl]
  | some raw =>
    have hraw := hshown raw rfl
    cases hsecret : setting.isSecret with
    | true =>
      have hcolumn := hplain hsecret
      rw [Setting.getValue, if_pos hsecret] at hraw
      cases after with
      | true => simpa [Faithful, hcolumn, Setting.getValue] using hraw
      | false =>
        have hempty : raw = .str "" → setting.secret = .str "" := by
          intro hempty
          rw [hempty] at hraw
          exact returns_of_empty.mp hraw
        simpa [Faithful, Setting.getValue, hcolumn, returns_empty] using hempty
    | false =>
      rw [Setting.getValue, if_neg (by simp [hsecret])] at hraw
      cases after with
      | false => simpa [Faithful, Setting.getValue] using hraw
      | true =>
        constructor
        · rintro ⟨hcolumn, hreturns⟩
          rw [show setting.value = "" from hcolumn rfl, returns_empty] at hraw
          subst hraw
          exact .inr (.inr ⟨rfl, returns_of_empty.mp (hreturns _ rfl)⟩)
        · rintro (hflag | hnone | ⟨hempty, hstored⟩)
          · cases hflag
          · cases hnone
          · cases hempty
            refine ⟨fun _ => Json.str.inj (returns_of_empty.mp hraw), ?_⟩
            rintro _ ⟨⟩
            exact .inl hstored

theorem faithful_of_written {setting : Setting} {written : Option Json} {body : SettingBody}
    {raw : Json} (hbody : body.written = some raw) :
    Faithful dumps (onRestSave dumps setting body) (some raw) ↔
      body.KeepsValue dumps setting written := by
  rw [onRestSave_of_written hbody, SettingBody.KeepsValue, hbody]
  dsimp only
  generalize body.secretAfter setting.isSecret = after
  cases body.secretAtWrite setting.isSecret with
  | true =>
    cases after with
    | false => simp [Faithful, Setting.getValue, returns_empty]
    | true =>
      by_cases hcolumn : setting.value = ""
      · simp [Faithful, Setting.getValue, hcolumn, returns_self]
      · simp [Faithful, Setting.getValue, hcolumn, returns_empty]
  | false =>
    cases after with
    | false => simp [Faithful, Setting.getValue, returns_asText]
    | true =>
      by_cases hsame : setting.value = dumps.asText raw
      · -- the column stays, and nothing is stored as a secret
        refine iff_of_false ?_ (by simp [hsame])
        rintro ⟨hcolumn, hreturns⟩
        simp only [hsame, bne_self_eq_false, Bool.and_false, Bool.false_eq_true, if_false]
          at hcolumn hreturns
        rw [Dumps.asText_eq_empty.mp (hcolumn trivial)] at hreturns
        exact absurd (returns_of_empty.mp (hreturns _ rfl)) (by simp [Setting.getValue])
      · simp [Faithful, Setting.getValue, hsame, Ne.symm hsame, returns_asText]

theorem faithful_set (setting : Setting) (raw : Json) :
    Faithful dumps (setting.setValue dumps raw) (some raw) := by
  cases hsecret : setting.isSecret with
  | true => simp [Faithful, Setting.setValue, Setting.getValue, hsecret, returns_self]
  | false => simp [Faithful, Setting.setValue, Setting.getValue, hsecret, returns_asText]

namespace SettingHistory

theorem fresh_saved {history : SettingHistory} {setting : Setting}
    (hfresh : history.written = Option.none → setting.value = "" ∧ setting.secret = .null)
    (body : SettingBody) : (history.saved dumps setting body).Fresh where
  unwritten hrow := by cases hrow
  empty := by
    rintro hwritten _ ⟨⟩
    have hboth : body.written = Option.none ∧ history.written = Option.none :=
      Option.or_eq_none_iff.mp hwritten
    rw [onRestSave_of_unwritten hboth.1]
    exact hfresh hboth.2

theorem saved_faithful {history : SettingHistory} {setting : Setting}
    (hfresh : history.written = Option.none → setting.value = "" ∧ setting.secret = .null)
    (hgood : Account.Faithful dumps setting history.written) (body : SettingBody) :
    (history.saved dumps setting body).Faithful dumps ↔
      body.KeepsValue dumps setting history.written := by
  have hone : (history.saved dumps setting body).Faithful dumps ↔ Account.Faithful dumps
      (onRestSave dumps setting body) (body.written.or history.written) := by
    constructor
    · intro hall
      exact hall _ rfl
    · rintro hone _ ⟨⟩
      exact hone
  rw [hone]
  cases hbody : body.written with
  | none => exact faithful_of_unwritten hbody hfresh hgood
  | some raw => exact faithful_of_written hbody

theorem fresh_step {history next : SettingHistory} {call : SettingCall} (hfresh : history.Fresh)
    (hnext : history.step dumps call = some next) : next.Fresh := by
  cases call with
  | create body accepted =>
    simp only [step] at hnext
    split at hnext
    · cases hnext
    next hrow =>
      cases hnext
      split
      · exact fresh_saved (fun _ => ⟨rfl, rfl⟩) body
      · exact hfresh
  | save body accepted =>
    simp only [step] at hnext
    split at hnext
    next setting hrow =>
      cases hnext
      split
      · exact fresh_saved (fun hwritten => hfresh.empty hwritten setting hrow) body
      · exact hfresh
    · cases hnext
  | set raw isSecret made accepted =>
    simp only [step] at hnext
    split at hnext
    next setting hrow =>
      split at hnext
      · cases hnext
        exact ⟨fun hrow => (by cases hrow), fun hwritten => (by cases hwritten)⟩
      · cases hnext
        refine ⟨fun hrow => (by cases hrow), ?_⟩
        rintro hwritten _ ⟨⟩
        -- the row that was made is as empty as the one that was there
        cases hstored : history.row with
        | some stored =>
          rw [hstored] at hrow
          cases hrow
          exact hfresh.empty hwritten _ hstored
        | none =>
          rw [hstored, Option.none_or] at hrow
          split at hrow
          · cases hrow
            exact ⟨rfl, rfl⟩
          · cases hrow
    · cases hnext
      exact hfresh

theorem faithful_blank (isSecret : Bool) :
    Account.Faithful dumps { Setting.blank with isSecret } Option.none :=
  ⟨fun _ => rfl, fun _ hraw => by cases hraw⟩

theorem faithful_step {history next : SettingHistory} {call : SettingCall}
    (hfresh : history.Fresh) (hgood : history.Faithful dumps)
    (hnext : history.step dumps call = some next) :
    next.Faithful dumps ↔ call.KeepsValue dumps history := by
  cases call with
  | create body accepted =>
    simp only [step] at hnext
    split at hnext
    · cases hnext
    next hrow =>
      cases hnext
      rw [SettingCall.KeepsValue]
      cases accepted with
      | false => exact iff_of_true hgood (fun haccepted => absurd haccepted (by decide))
      | true =>
        have hblank : Account.Faithful dumps .blank history.written := by
          rw [hfresh.unwritten hrow]
          exact faithful_blank false
        simpa using saved_faithful (fun _ => ⟨rfl, rfl⟩) hblank body
  | save body accepted =>
    simp only [step] at hnext
    split at hnext
    next setting hrow =>
      cases hnext
      rw [SettingCall.KeepsValue]
      cases accepted with
      | false => exact iff_of_true hgood (fun haccepted => absurd haccepted (by decide))
      | true =>
        have hsaved := saved_faithful
          (fun hwritten => hfresh.empty hwritten setting hrow) (hgood setting hrow) body
        simpa [hrow] using hsaved
    · cases hnext
  | set raw isSecret made accepted =>
    refine iff_of_true ?_ trivial
    simp only [step] at hnext
    split at hnext
    next setting hrow =>
      split at hnext
      · cases hnext
        rintro _ ⟨⟩
        exact faithful_set _ raw
      · cases hnext
        rintro _ ⟨⟩
        cases hstored : history.row with
        | some stored =>
          rw [hstored] at hrow
          cases hrow
          exact hgood _ hstored
        | none =>
          rw [hstored, Option.none_or] at hrow
          split at hrow
          · cases hrow
            rw [hfresh.unwritten hstored]
            exact faithful_blank isSecret
          · cases hrow
    · cases hnext
      exact hgood

/-- In a run from no row, the row is faithful in every state just where every call keeps the
value. -/
theorem always_faithful_iff (dumps : Dumps) (calls : List SettingCall) :
    Always (step dumps) (Faithful dumps) none calls ↔
      EachStep (step dumps) (fun history call _ => call.KeepsValue dumps history) none calls :=
  always_iff_eachStep
    (fun _ _ _ hfresh hnext => fresh_step hfresh hnext)
    (fun _ _ _ hfresh hgood hnext => faithful_step hfresh hgood hnext)
    ⟨fun _ => rfl, fun _ _ hrow => by cases hrow⟩ (fun _ hrow => by cases hrow) calls

def zeros : Dumps := ⟨fun _ => "0", fun _ => by decide⟩

def plainThenSecret : List SettingCall :=
  [.create (.value (.str "hunter2")) true, .save (.isSecret (.bool true)) true]

/-- A plain value, and a save that says only that it is secret: its text stays where it was,
and no value is returned. -/
theorem not_faithful_of_isSecret_alone :
    ∃ setting, run (step zeros) none plainThenSecret = some ⟨some setting, some (.str "hunter2")⟩ ∧
      setting.isSecret = true ∧ setting.value = "hunter2" ∧ setting.getValue = .null ∧
      ¬ Always (step zeros) (Faithful zeros) none plainThenSecret := by
  have hrun : run (step zeros) none plainThenSecret =
      some ⟨some ⟨"hunter2", true, .null⟩, some (.str "hunter2")⟩ := rfl
  refine ⟨_, hrun, rfl, rfl, rfl, fun halways => ?_⟩
  have hcolumn := (halways.of_run hrun _ rfl).1 rfl
  exact absurd hcolumn (by decide)

end SettingHistory

end DjangoMojo.Account
