import DjangoMojo.Foundation.Trace
import DjangoMojo.Crypto.Secrets

/-! # Secrets across saves and refreshes

A ledger keeps what the calls on an instance have set and cleared. Only a full refresh takes it
back to the last save. A full save leaves a row that reads as the ledger says, unless the secrets
were encrypted too early, or the flag was cleared while the column was behind.
-/

namespace DjangoMojo.Crypto

open Foundation

variable {model : SecretsModel}

structure SecretsHistory (model : SecretsModel) where
  stored : StoredSecrets model
  expected : JsonFields
  saved : JsonFields
  unwritten : Bool

inductive SecretsCall where
  | setSecret (key : String) (value : Json)
  | setSecrets (value : JsonFields)
  | clearSecrets
  | save (updateFields : Option (List String)) (answers : SaveAnswers)
  | refreshFromDb (fields : Option (List String))

/-- `update_fields` and `fields` say which columns are meant; without them all are. -/
def Names (fields : Option (List String)) : Bool :=
  fields.all fun fields => "mojo_secrets" ∈ fields

namespace SecretsHistory

def construct (model : SecretsModel) (pk : Option String) : SecretsHistory model :=
  ⟨⟨.construct model pk, none⟩, [], [], false⟩

/-- A call that raises while it reads the secrets changes nothing. Without a row there is nothing
that a clear could be taken back to. -/
def step (history : SecretsHistory model) : SecretsCall → Option (SecretsHistory model)
  | .setSecret key value =>
    match history.stored.inst.setSecret key value with
    | some inst =>
      some { history with
        stored.inst := inst
        expected := SecretsInstance.put history.expected key value }
    | none => some history
  | .setSecrets value =>
    match history.stored.inst.setSecrets value with
    | some inst =>
      some { history with
        stored.inst := inst
        expected := model.mergeDicts history.expected value }
    | none => some history
  | .clearSecrets =>
    some { history with
      stored.inst := history.stored.inst.clearSecrets
      expected := []
      saved := if history.stored.row.isSome then history.saved else [] }
  | .save updateFields answers =>
    let outcome := history.stored.save updateFields answers
    let inst := history.stored.inst
    some { history with
      stored := outcome.1
      saved := if outcome.2 || inst.pk.isSome then history.expected else history.saved
      unwritten :=
        if outcome.2 && (Names updateFields || inst.pk.isNone) then false
        else history.unwritten || inst.pk.isSome && inst.secretsChanged }
  | .refreshFromDb fields =>
    some { history with
      stored := history.stored.refreshFromDb fields
      expected := if fields.isNone then history.saved else history.expected
      unwritten := history.unwritten || fields.isSome && history.stored.inst.secretsChanged }

end SecretsHistory

/-! ### The condition -/

namespace SecretsInstance

variable (inst : SecretsInstance model)

/-- What the insert leaves in `created`. -/
def createdOnInsert (answers : SaveAnswers) : Option String :=
  match model.created with
  | .stamped => some answers.now
  | .absent | .given _ => inst.created

/-- The key and the time that the password is made of are there. -/
def Settled : Prop :=
  inst.pk.isSome ∧ (model.created = .stamped → inst.created.isSome)

def Encrypts : Prop :=
  inst.secretsChanged = true ∧ inst.exposedSecrets ≠ none ∧ inst.exposedSecrets ≠ some []

end SecretsInstance

/-- A save that encrypts does so under the password of the row: with a key that is there, after
the insert that stamps `created`; without a key, it is not one of no fields. A refresh of named
fields finds no unsaved secrets, or finds them cleared and leaves the column alone. A refresh
of the column finds that no save or refresh has cleared the flag without writing the column. -/
def SecretsCall.Keeps (history : SecretsHistory model) : SecretsCall → Prop
  | .setSecret .. | .setSecrets .. | .clearSecrets => True
  | .save updateFields _ =>
    history.stored.inst.Encrypts →
      if history.stored.inst.pk.isSome then history.stored.inst.Settled
      else updateFields ≠ some []
  | .refreshFromDb fields =>
    (fields.isSome → history.stored.inst.secretsChanged = true →
      history.stored.inst.exposedSecrets = some [] ∧ history.stored.inst.mojoSecrets = none ∧
        Names fields = false) ∧
    (Names fields = true → history.stored.row.isSome → history.unwritten = false)

/-! ### Instances -/

namespace SecretsInstance

variable {inst : SecretsInstance model} {expected : JsonFields}

/-- The column holds what is expected, as far as the flag says. -/
structure Holds (inst : SecretsInstance model) (expected : JsonFields) : Prop where
  read : ∀ secrets, inst.exposedSecrets = some secrets → secrets = expected
  ahead : inst.secretsChanged = true → inst.exposedSecrets.isSome
  column : inst.secretsChanged = false → inst.open? inst.mojoSecrets = some expected
  settled : inst.mojoSecrets.isSome → inst.Settled

theorem Holds.secrets_eq (hholds : inst.Holds expected) : inst.secrets = some expected := by
  unfold secrets
  split
  next secrets hexposed => rw [hholds.read secrets hexposed]
  next hexposed =>
    refine hholds.column ?_
    by_contra hchanged
    have hahead := hholds.ahead (by simpa using hchanged)
    rw [hexposed] at hahead
    cases hahead

theorem Holds.change (hholds : inst.Holds expected) (secrets : JsonFields) :
    (inst.change secrets).Holds secrets where
  read := by
    rintro _ ⟨⟩
    rfl
  ahead _ := rfl
  column hchanged := by cases hchanged
  settled := hholds.settled

theorem holds_clearSecrets (inst : SecretsInstance model) : inst.clearSecrets.Holds [] where
  read := by
    rintro _ ⟨⟩
    rfl
  ahead _ := rfl
  column hchanged := by cases hchanged
  settled hsome := by cases hsome

theorem Holds.saveSecrets (hholds : inst.Holds expected) (seed : Nat)
    (hsettled : inst.Encrypts → inst.Settled) :
    (inst.saveSecrets seed).Holds expected ∧ (inst.saveSecrets seed).secretsChanged = false := by
  unfold SecretsInstance.saveSecrets
  split
  next hchanged =>
    refine ⟨⟨hholds.read, fun hahead => (by cases hahead), fun _ => ?_, ?_⟩, rfl⟩
    · obtain ⟨secrets, hexposed⟩ := Option.isSome_iff_exists.mp (hholds.ahead hchanged)
      have hsecrets := hholds.read secrets hexposed
      subst hsecrets
      dsimp only
      rw [hexposed]
      cases secrets with
      | nil => rfl
      | cons first rest => exact model.decrypt_encrypt _ _ _
    · intro hsome
      refine hsettled ⟨hchanged, ?_, ?_⟩
      · intro hnone
        simp [hnone] at hsome
      · intro hempty
        simp [hempty] at hsome
  next hchanged => exact ⟨hholds, by simpa using hchanged⟩

@[simp] theorem saveSecrets_pk (inst : SecretsInstance model) (seed : Nat) :
    (inst.saveSecrets seed).pk = inst.pk := by
  unfold SecretsInstance.saveSecrets
  split <;> rfl

@[simp] theorem saveSecrets_created (inst : SecretsInstance model) (seed : Nat) :
    (inst.saveSecrets seed).created = inst.created := by
  unfold SecretsInstance.saveSecrets
  split <;> rfl

theorem open?_congr {other : SecretsInstance model} (hpk : other.pk = inst.pk)
    (hcreated : other.created = inst.created) (column : Option model.Blob) :
    other.open? column = inst.open? column := by
  unfold open? password
  rw [hpk, hcreated]

theorem saveSecrets_open? (inst : SecretsInstance model) (seed : Nat)
    (column : Option model.Blob) :
    (inst.saveSecrets seed).open? column = inst.open? column :=
  open?_congr (saveSecrets_pk inst seed) (saveSecrets_created inst seed) column

end SecretsInstance

/-! ### Rows -/

namespace SecretsHistory

open SecretsInstance

structure Sound (history : SecretsHistory model) : Prop where
  holds : history.stored.inst.Holds history.expected
  unstamped : history.stored.row = none → model.created = .stamped →
    history.stored.inst.created = none
  rowless : history.stored.row = none →
    history.stored.inst.open? history.stored.inst.mojoSecrets = some history.saved
  identified : ∀ row, history.stored.row = some row →
    history.stored.inst.Settled ∧ row.created = history.stored.inst.created
  written : ∀ row, history.stored.row = some row → history.unwritten = false →
    history.stored.inst.open? row.mojoSecrets = some history.saved
  clean : ∀ row, history.stored.row = some row → history.unwritten = false →
    history.stored.inst.secretsChanged = false → history.expected = history.saved

variable {history : SecretsHistory model}

theorem Sound.loadAfresh (hsound : history.Sound) (hrow : history.stored.row.isSome)
    (hwritten : history.unwritten = false) :
    history.stored.loadAfresh = some history.saved := by
  obtain ⟨row, hrow⟩ := Option.isSome_iff_exists.mp hrow
  unfold StoredSecrets.loadAfresh
  rw [hrow]
  rw [← hsound.written row hrow hwritten]
  exact @open?_congr model history.stored.inst (row.load history.stored.inst.pk) rfl
    (hsound.identified row hrow).2 row.mojoSecrets

theorem sound_construct (model : SecretsModel) (pk : Option String) :
    (construct model pk).Sound where
  holds := {
    read := fun _ hexposed => by cases hexposed
    ahead := fun hchanged => by cases hchanged
    column := fun _ => rfl
    settled := fun hsome => by cases hsome }
  unstamped _ hstamped := by
    simp only [construct, SecretsInstance.construct, hstamped]
  rowless _ := rfl
  identified _ hrow := by cases hrow
  written _ hrow := by cases hrow
  clean _ hrow := by cases hrow

theorem Sound.change (hsound : history.Sound) (secrets : JsonFields) :
    Sound { history with
      stored.inst := history.stored.inst.change secrets, expected := secrets } where
  holds := hsound.holds.change secrets
  unstamped := hsound.unstamped
  rowless := hsound.rowless
  identified := hsound.identified
  written := hsound.written
  clean _ _ _ hchanged := by cases hchanged

theorem Sound.clear (hsound : history.Sound) :
    Sound { history with
      stored.inst := history.stored.inst.clearSecrets
      expected := []
      saved := if history.stored.row.isSome then history.saved else [] } where
  holds := holds_clearSecrets _
  unstamped := hsound.unstamped
  rowless hrow := by
    change history.stored.row = none at hrow
    simp only [hrow, Option.isSome_none, Bool.false_eq_true, if_false]
    rfl
  identified := hsound.identified
  written row hrow hwritten := by
    change history.stored.row = some row at hrow
    simp only [hrow, Option.isSome_some, if_true]
    exact hsound.written row hrow hwritten
  clean _ _ _ hchanged := by cases hchanged

theorem sound_of_saved {stored : StoredSecrets model} {expected : JsonFields} {unwritten : Bool}
    (hholds : stored.inst.Holds expected) (hclean : stored.inst.secretsChanged = false)
    (hunstamped : stored.row = none → model.created = .stamped → stored.inst.created = none)
    (hidentified : ∀ row, stored.row = some row →
      stored.inst.Settled ∧ row.created = stored.inst.created)
    (hwritten : ∀ row, stored.row = some row → unwritten = false →
      stored.inst.open? row.mojoSecrets = some expected) :
    Sound ⟨stored, expected, expected, unwritten⟩ where
  holds := hholds
  unstamped := hunstamped
  rowless _ := hholds.column hclean
  identified := hidentified
  written := hwritten
  clean _ _ _ _ := rfl

/-! ### Saves -/

/-- An instance that is up to date, with what the row must say. -/
structure Ready (stored : StoredSecrets model) (expected : JsonFields) : Prop where
  holds : stored.inst.Holds expected
  clean : stored.inst.secretsChanged = false
  unstamped : stored.row = none → model.created = .stamped → stored.inst.created = none
  identified : ∀ row, stored.row = some row →
    stored.inst.Settled ∧ row.created = stored.inst.created

theorem Ready.sound {stored : StoredSecrets model} {expected : JsonFields} {unwritten : Bool}
    (hready : Ready stored expected)
    (hwritten : ∀ row, stored.row = some row → unwritten = false →
      stored.inst.open? row.mojoSecrets = some expected) :
    Sound ⟨stored, expected, expected, unwritten⟩ :=
  sound_of_saved hready.holds hready.clean hready.unstamped hready.identified hwritten

theorem Sound.ready (hsound : history.Sound) (seed : Nat)
    (hsettled : history.stored.inst.Encrypts → history.stored.inst.Settled) :
    Ready { history.stored with inst := history.stored.inst.saveSecrets seed }
      history.expected where
  holds := (hsound.holds.saveSecrets seed hsettled).1
  clean := (hsound.holds.saveSecrets seed hsettled).2
  unstamped hrow hstamped := by
    rw [saveSecrets_created]
    exact hsound.unstamped hrow hstamped
  identified row hrow := by
    obtain ⟨hids, hcreated⟩ := hsound.identified row hrow
    refine ⟨?_, ?_⟩
    · rw [Settled, saveSecrets_pk, saveSecrets_created]
      exact hids
    · rw [saveSecrets_created]
      exact hcreated

theorem Ready.modelSave {stored : StoredSecrets model} {expected : JsonFields}
    (hready : Ready stored expected) (answers : SaveAnswers) :
    ∃ saved, stored.modelSave none answers = some saved ∧ saved.row.isSome ∧
      Sound ⟨saved, expected, expected, false⟩ := by
  unfold StoredSecrets.modelSave
  cases hrow : stored.row with
  | some row =>
    refine ⟨_, rfl, rfl, Ready.sound ⟨hready.holds, hready.clean, ?_, ?_⟩ ?_⟩
    · intro hnone
      cases hnone
    · rintro _ ⟨⟩
      exact ⟨(hready.identified row hrow).1, rfl⟩
    · rintro _ ⟨⟩ _
      exact hready.holds.column hready.clean
  | none =>
    -- cipher text that is there already was not made before the insert stamps `created`
    have hstamp : stored.inst.mojoSecrets.isSome → model.created ≠ .stamped := by
      intro hsome hstamped
      have hcreated := (hready.holds.settled hsome).2 hstamped
      rw [hready.unstamped hrow hstamped] at hcreated
      cases hcreated
    generalize hinserted : ({ stored.inst with
      pk := some (stored.inst.pk.getD answers.key)
      created := stored.inst.createdOnInsert answers } : SecretsInstance model) = inserted
    have hids : inserted.Settled := by
      subst hinserted
      refine ⟨rfl, fun hstamped => ?_⟩
      simp only [createdOnInsert, hstamped]
      rfl
    have hcolumn : inserted.open? inserted.mojoSecrets = some expected := by
      rw [← hready.holds.column hready.clean, ← hinserted]
      cases hstored : stored.inst.mojoSecrets with
      | none => rfl
      | some blob =>
        have hsome : stored.inst.mojoSecrets.isSome := by rw [hstored]; rfl
        refine open?_congr ?_ ?_ _
        · obtain ⟨pk, hpk⟩ := Option.isSome_iff_exists.mp (hready.holds.settled hsome).1
          simp only [hpk, Option.getD_some]
        · dsimp only [createdOnInsert]
          split
          next hstamped => exact absurd hstamped (hstamp hsome)
          · rfl
          · rfl
    have hchanged : inserted.secretsChanged = false := by
      subst hinserted
      exact hready.clean
    have hread : inserted.exposedSecrets = stored.inst.exposedSecrets := by
      subst hinserted
      rfl
    refine ⟨⟨inserted, some ⟨inserted.created, inserted.mojoSecrets⟩⟩, ?_, rfl,
      Ready.sound ⟨⟨?_, ?_, fun _ => hcolumn, fun _ => hids⟩, hchanged, ?_, ?_⟩ ?_⟩
    · subst hinserted
      rfl
    · intro secrets hexposed
      exact hready.holds.read secrets (hread ▸ hexposed)
    · intro htrue
      rw [hchanged] at htrue
      cases htrue
    · intro hnone
      cases hnone
    · rintro _ ⟨⟩
      exact ⟨hids, rfl⟩
    · rintro _ ⟨⟩ _
      exact hcolumn

theorem Sound.row_none (hsound : history.Sound) (hpk : history.stored.inst.pk = none) :
    history.stored.row = none := by
  cases hrow : history.stored.row with
  | none => rfl
  | some row =>
    have hsome := (hsound.identified row hrow).1.1
    rw [hpk] at hsome
    cases hsome

/-- The first insert, where the database assigns the key, comes before the encryption. -/
theorem Sound.ready_inserted (hsound : history.Sound) (hpk : history.stored.inst.pk = none)
    (answers : SaveAnswers) :
    ∃ inserted, history.stored.modelSave none answers = some inserted ∧
      Ready { inserted with inst := inserted.inst.saveSecrets answers.seed } history.expected := by
  have hrow := hsound.row_none hpk
  have hempty : history.stored.inst.mojoSecrets = none := by
    cases hcolumn : history.stored.inst.mojoSecrets with
    | none => rfl
    | some blob =>
      have hsome := (hsound.holds.settled (by rw [hcolumn]; rfl)).1
      rw [hpk] at hsome
      cases hsome
  unfold StoredSecrets.modelSave
  rw [hrow]
  refine ⟨⟨{ history.stored.inst with
      pk := some (history.stored.inst.pk.getD answers.key)
      created := history.stored.inst.createdOnInsert answers },
    some ⟨history.stored.inst.createdOnInsert answers, history.stored.inst.mojoSecrets⟩⟩, rfl, ?_⟩
  generalize hinserted : ({ history.stored.inst with
    pk := some (history.stored.inst.pk.getD answers.key)
    created := history.stored.inst.createdOnInsert answers } : SecretsInstance model) = inserted
  have hids : inserted.Settled := by
    subst hinserted
    refine ⟨rfl, fun hstamped => ?_⟩
    simp only [createdOnInsert, hstamped]
    rfl
  have hnothing : inserted.mojoSecrets = none := by
    subst hinserted
    exact hempty
  have hholds : inserted.Holds history.expected := by
    refine ⟨?_, ?_, ?_, fun _ => hids⟩
    · subst hinserted
      exact hsound.holds.read
    · subst hinserted
      exact hsound.holds.ahead
    · intro hchanged
      have hcolumn := hsound.holds.column (by subst hinserted; exact hchanged)
      rw [hempty] at hcolumn
      rw [hnothing]
      exact hcolumn
  obtain ⟨hsaved, hclean⟩ := hholds.saveSecrets answers.seed fun _ => hids
  have hcreated : history.stored.inst.createdOnInsert answers = inserted.created := by
    subst hinserted
    rfl
  refine ⟨hsaved, hclean, fun hnone => (by cases hnone), ?_⟩
  rintro _ ⟨⟩
  refine ⟨?_, ?_⟩
  · rw [Settled, saveSecrets_pk, saveSecrets_created]
    exact hids
  · rw [saveSecrets_created]
    exact hcreated

theorem step_save {updateFields : Option (List String)} {answers : SaveAnswers}
    {stored : StoredSecrets model} {ok : Bool}
    (houtcome : history.stored.save updateFields answers = (stored, ok)) :
    history.step (.save updateFields answers) = some {
      stored := stored
      expected := history.expected
      saved := if ok || history.stored.inst.pk.isSome then history.expected else history.saved
      unwritten :=
        if ok && (Names updateFields || history.stored.inst.pk.isNone) then false
        else history.unwritten ||
          history.stored.inst.pk.isSome && history.stored.inst.secretsChanged } := by
  rw [step, houtcome]

/-- A save keeps the ledger; a full one leaves its secrets in the row. -/
def Kept (updateFields : Option (List String)) (next : SecretsHistory model) : Prop :=
  next.Sound ∧ (updateFields = none →
    next.stored.row.isSome ∧ next.unwritten = false ∧ next.saved = next.expected)

theorem Sound.save_known {next : SecretsHistory model} {updateFields : Option (List String)}
    {answers : SaveAnswers} (hsound : history.Sound) (hpk : history.stored.inst.pk.isSome)
    (hkeeps : (SecretsCall.save updateFields answers).Keeps history)
    (hnext : history.step (.save updateFields answers) = some next) : next.Kept updateFields := by
  have hready : Ready { history.stored with
      inst := history.stored.inst.saveSecrets answers.seed } history.expected := by
    refine hsound.ready answers.seed fun hencrypts => ?_
    have hsettled := hkeeps hencrypts
    rwa [if_pos hpk] at hsettled
  have hnone : history.stored.inst.pk.isNone = false := by
    rw [Option.isNone_eq_false_iff]
    exact hpk
  -- what the row held before is what was saved before, if nothing has changed since
  have hkept : ∀ row, history.stored.row = some row →
      (history.unwritten || history.stored.inst.secretsChanged) = false →
      (history.stored.inst.saveSecrets answers.seed).open? row.mojoSecrets =
        some history.expected := by
    intro row hrow hboth
    obtain ⟨hunwritten, hunchanged⟩ := Bool.or_eq_false_iff.mp hboth
    rw [saveSecrets_open?, hsound.written row hrow hunwritten,
      hsound.clean row hrow hunwritten hunchanged]
  cases updateFields with
  | none =>
    obtain ⟨saved, hsave, hrow, hsaved⟩ := hready.modelSave answers
    rw [step_save (StoredSecrets.save_of_modelSave hpk hsave)] at hnext
    cases hnext
    exact ⟨hsaved, fun _ => ⟨hrow, rfl, rfl⟩⟩
  | some fields =>
    refine ⟨?_, fun hnone => by cases hnone⟩
    cases fields with
    | nil =>
      rw [step_save (StoredSecrets.save_of_modelSave hpk rfl), hpk, hnone] at hnext
      cases hnext
      exact hready.sound hkept
    | cons field rest =>
      cases hrow : history.stored.row with
      | none =>
        have hraise : StoredSecrets.modelSave { history.stored with
            inst := history.stored.inst.saveSecrets answers.seed } (some (field :: rest))
            answers = none := by
          simp only [StoredSecrets.modelSave, hrow]
        rw [step_save (StoredSecrets.save_of_raise hpk hraise), hpk, hnone] at hnext
        cases hnext
        refine hready.sound fun row hsome => ?_
        rw [show history.stored.row = some row from hsome] at hrow
        cases hrow
      | some row =>
        have hsave : ∃ saved, StoredSecrets.modelSave { history.stored with
            inst := history.stored.inst.saveSecrets answers.seed } (some (field :: rest))
            answers = some saved ∧ saved.inst = history.stored.inst.saveSecrets answers.seed ∧
            ∃ written, saved.row = some written ∧
              written.created = (history.stored.inst.saveSecrets answers.seed).created ∧
              written.mojoSecrets =
                if Names (some (field :: rest)) then
                  (history.stored.inst.saveSecrets answers.seed).mojoSecrets
                else row.mojoSecrets := by
          unfold StoredSecrets.modelSave
          rw [hrow]
          refine ⟨_, rfl, rfl, _, rfl, ?_, ?_⟩
          · dsimp only
            split
            · rfl
            · exact (hready.identified row hrow).2
          · simp only [Names, Option.all_some, decide_eq_true_eq]
        obtain ⟨⟨inst, savedRow⟩, hsave, hinst, written, hwritten, hcreated, hcolumn⟩ := hsave
        dsimp only at hinst hwritten
        subst hinst hwritten
        rw [step_save (StoredSecrets.save_of_modelSave hpk hsave), hpk, hnone] at hnext
        cases hnext
        refine Ready.sound ⟨hready.holds, hready.clean, fun hnone => (by cases hnone), ?_⟩ ?_
        · rintro _ ⟨⟩
          exact ⟨(hready.identified row hrow).1, hcreated⟩
        · rintro _ ⟨⟩ hflag
          rw [hcolumn]
          split
          · exact hready.holds.column hready.clean
          next hnamed =>
            refine hkept row hrow ?_
            rw [Bool.not_eq_true] at hnamed
            simpa [hnamed] using hflag

theorem Sound.save_new {next : SecretsHistory model} {updateFields : Option (List String)}
    {answers : SaveAnswers} (hsound : history.Sound) (hpk : history.stored.inst.pk = none)
    (hkeeps : (SecretsCall.save updateFields answers).Keeps history)
    (hnext : history.step (.save updateFields answers) = some next) : next.Kept updateFields := by
  cases updateFields with
  | none =>
    obtain ⟨inserted, hinserted, hready⟩ := hsound.ready_inserted hpk answers
    obtain ⟨saved, hsave, hrow, hsaved⟩ := hready.modelSave answers
    rw [step_save (StoredSecrets.save_of_inserted hpk hinserted hsave), hpk] at hnext
    cases hnext
    exact ⟨hsaved, fun _ => ⟨hrow, rfl, rfl⟩⟩
  | some fields =>
    refine ⟨?_, fun hnone => by cases hnone⟩
    cases fields with
    | nil =>
      have hready := hsound.ready answers.seed fun hencrypts => by
        have hfields := hkeeps hencrypts
        rw [hpk, if_neg (by exact Bool.false_ne_true)] at hfields
        exact absurd rfl hfields
      obtain ⟨saved, hsave, -, hsaved⟩ := hready.modelSave answers
      rw [step_save (StoredSecrets.save_of_inserted hpk rfl hsave), hpk] at hnext
      cases hnext
      exact hsaved
    | cons field rest =>
      have hrefused : history.stored.modelSave (some (field :: rest)) answers = none := by
        simp only [StoredSecrets.modelSave, hsound.row_none hpk]
      rw [step_save (StoredSecrets.save_of_refused hpk hrefused), hpk] at hnext
      cases hnext
      simpa using hsound

/-- Without the dictionary and its flag, a column that is left alone still holds what is
expected, unless there were unsaved secrets. -/
theorem Sound.open?_column (hsound : history.Sound)
    (hcleared : history.stored.inst.secretsChanged = true →
      history.stored.inst.exposedSecrets = some [] ∧ history.stored.inst.mojoSecrets = none) :
    history.stored.inst.open? history.stored.inst.mojoSecrets = some history.expected := by
  cases hchanged : history.stored.inst.secretsChanged with
  | false => exact hsound.holds.column hchanged
  | true =>
    obtain ⟨hexposed, hempty⟩ := hcleared hchanged
    rw [hempty, ← hsound.holds.read [] hexposed]
    rfl

theorem Sound.refresh {next : SecretsHistory model} {fields : Option (List String)}
    (hsound : history.Sound) (hkeeps : (SecretsCall.refreshFromDb fields).Keeps history)
    (hnext : history.step (.refreshFromDb fields) = some next) : next.Sound := by
  cases hnext
  obtain ⟨hnamed, hloads⟩ := hkeeps
  cases hrow : history.stored.row with
  | none =>
    have hstored : history.stored.refreshFromDb fields = ⟨{ history.stored.inst with
        exposedSecrets := none, secretsChanged := false }, none⟩ := by
      simp only [StoredSecrets.refreshFromDb, hrow]
    have hcolumn : history.stored.inst.open? history.stored.inst.mojoSecrets =
        some (if fields.isNone then history.saved else history.expected) := by
      cases fields with
      | none => exact hsound.rowless hrow
      | some fields =>
        refine hsound.open?_column fun hchanged => ?_
        obtain ⟨hexposed, hempty, -⟩ := hnamed rfl hchanged
        exact ⟨hexposed, hempty⟩
    rw [hstored]
    exact {
      holds := {
        read := fun _ hexposed => by cases hexposed
        ahead := fun hchanged => by cases hchanged
        column := fun _ => hcolumn
        settled := hsound.holds.settled }
      unstamped := fun _ => hsound.unstamped hrow
      rowless := fun _ => hsound.rowless hrow
      identified := fun _ hsome => by cases hsome
      written := fun _ hsome => by cases hsome
      clean := fun _ hsome => by cases hsome }
  | some row =>
    obtain ⟨hids, hcreated⟩ := hsound.identified row hrow
    have hstored : history.stored.refreshFromDb fields = ⟨{ history.stored.inst with
        exposedSecrets := none
        secretsChanged := false
        mojoSecrets :=
          if Names fields then row.mojoSecrets else history.stored.inst.mojoSecrets },
        some row⟩ := by
      simp only [StoredSecrets.refreshFromDb, hrow, hcreated, ite_self]
      rfl
    have hcolumn : history.stored.inst.open?
        (if Names fields then row.mojoSecrets else history.stored.inst.mojoSecrets) =
          some (if fields.isNone then history.saved else history.expected) := by
      cases fields with
      | none => exact hsound.written row hrow (hloads rfl (by rw [hrow]; rfl))
      | some fields =>
        cases hname : Names (some fields) with
        | true =>
          have hwritten := hloads hname (by rw [hrow]; rfl)
          have hclean : history.stored.inst.secretsChanged = false := by
            by_contra hchanged
            obtain ⟨-, -, hother⟩ := hnamed rfl (by simpa using hchanged)
            rw [hname] at hother
            cases hother
          simp only [if_true, Option.isNone_some, Bool.false_eq_true, if_false]
          rw [hsound.clean row hrow hwritten hclean]
          exact hsound.written row hrow hwritten
        | false =>
          refine hsound.open?_column fun hchanged => ?_
          obtain ⟨hexposed, hempty, -⟩ := hnamed rfl hchanged
          exact ⟨hexposed, hempty⟩
    rw [hstored]
    exact {
      holds := {
        read := fun _ hexposed => by cases hexposed
        ahead := fun hchanged => by cases hchanged
        column := fun _ => hcolumn
        settled := fun _ => hids }
      unstamped := fun hnone => by cases hnone
      rowless := fun hnone => by cases hnone
      identified := fun other hother => hsound.identified other (hrow.trans hother)
      written := fun other hother hflag => by
        rw [Bool.or_eq_false_iff] at hflag
        exact hsound.written other (hrow.trans hother) hflag.1
      clean := fun other hother hflag _ => by
        rw [Bool.or_eq_false_iff] at hflag
        cases fields with
        | none => rfl
        | some fields => exact hsound.clean other (hrow.trans hother) hflag.1 hflag.2 }

/-! ### Runs -/

theorem sound_step {next : SecretsHistory model} {call : SecretsCall} (hsound : history.Sound)
    (hkeeps : call.Keeps history) (hnext : history.step call = some next) :
    next.Sound ∧ ∀ answers, call = .save none answers →
      next.stored.loadAfresh = some next.expected := by
  cases call with
  | setSecret key value =>
    refine ⟨?_, fun _ hcall => by cases hcall⟩
    simp only [step, setSecret, hsound.holds.secrets_eq, Option.map_some] at hnext
    cases hnext
    exact hsound.change _
  | setSecrets value =>
    refine ⟨?_, fun _ hcall => by cases hcall⟩
    simp only [step, setSecrets, hsound.holds.secrets_eq, Option.map_some] at hnext
    cases hnext
    exact hsound.change _
  | clearSecrets =>
    refine ⟨?_, fun _ hcall => by cases hcall⟩
    cases hnext
    exact hsound.clear
  | save updateFields answers =>
    have hkept : next.Kept updateFields := by
      cases hpk : history.stored.inst.pk with
      | some pk => exact hsound.save_known (by rw [hpk]; rfl) hkeeps hnext
      | none => exact hsound.save_new hpk hkeeps hnext
    refine ⟨hkept.1, ?_⟩
    rintro _ ⟨⟩
    obtain ⟨hrow, hwritten, hsaved⟩ := hkept.2 rfl
    rw [hkept.1.loadAfresh hrow hwritten, hsaved]
  | refreshFromDb fields =>
    exact ⟨hsound.refresh hkeeps hnext, fun _ hcall => by cases hcall⟩

/-- In a run whose steps all meet the condition, the row of a full save, loaded afresh, has
exactly the secrets of the ledger. -/
theorem loadAfresh_of_keeps (model : SecretsModel) (pk : Option String) (calls : List SecretsCall)
    (hkeeps : EachStep step (fun history call _ => call.Keeps history) (construct model pk) calls) :
    EachStep step (fun _ call next => ∀ answers, call = .save none answers →
      next.stored.loadAfresh = some next.expected) (construct model pk) calls := by
  refine EachStep.of_invariant ?_ (sound_construct model pk) hkeeps
  intro history call next hsound hkeeps hnext
  exact sound_step hsound hkeeps hnext

/-! ### A token -/

def tokenModel : SecretsModel where
  className := "Integration"
  created := .stamped
  Blob := JsonFields × String
  encrypt _ secrets password := (secrets, password)
  decrypt blob password := if blob.2 = password then some blob.1 else none
  decrypt_encrypt _ _ _ := if_pos rfl
  mergeDicts first second := second.foldl (fun secrets entry => secrets.set entry.1 entry.2) first

def tokenAnswers : SaveAnswers := ⟨"7", "2026-01-01 00:00:00+00:00", 0⟩

theorem loadAfresh_token :
    EachStep step (fun _ call next => ∀ answers, call = .save none answers →
      next.stored.loadAfresh = some next.expected) (construct tokenModel none)
      [.setSecret "token" (.str "first"), .save none tokenAnswers] := by
  refine loadAfresh_of_keeps tokenModel none _ ?_
  rintro _ ⟨⟩
  refine ⟨trivial, ?_⟩
  rintro _ ⟨⟩
  exact ⟨fun _ => nofun, trivial⟩

/-- A new token, and a refresh of another field before the save. -/
def refreshedToken : List SecretsCall :=
  [.setSecret "token" (.str "first"), .save none tokenAnswers,
    .setSecret "token" (.str "second"), .refreshFromDb (some ["name"]), .save none tokenAnswers]

theorem loadAfresh_refreshedToken :
    ∃ history, run step (construct tokenModel none) refreshedToken = some history ∧
      history.expected.field "token" = some (.str "second") ∧
      (history.stored.loadAfresh.bind fun secrets => secrets.field "token") =
        some (.str "first") :=
  ⟨_, rfl, rfl, rfl⟩

end SecretsHistory

end DjangoMojo.Crypto
