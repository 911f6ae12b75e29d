import Mathlib.Data.Fintype.EquivFin
import DjangoMojo.Rest.WriteProtection

/-! # Bodies that reach a protected field

Where a body reaches a protected field or the key of a model, a request exists that
changes the protected field of a stored row: methods that do nothing of their own are
enough, and a body with one key and at most one file.
-/

namespace DjangoMojo.Rest

open Foundation Foundation.Effect

/-- Methods that do nothing of their own: every row that they name is the second one. -/
def plainMethods (actor : Option Ref) : Methods where
  related _ _ := pure none
  assignFar _ _ _ := pure ()
  get label _ := pure ⟨label, 2⟩
  setField _ _ _ := pure ()
  onAction _ _ _ := pure none
  resolveRestRelatedCandidate _ _ _ _ := pure (some ⟨"", 2⟩)
  onRestRelatedSave ref field _ _ :=
    if field.hasColumn then do
      let changed ← fetch ref
      store ref (changed.set field (.int 2))
    else pure ()
  restCheckPermission _ _ := pure true
  createFromFile label _ _ := pure ⟨label, 2⟩
  onRestPreSave _ _ := pure ()
  onRestSaved _ _ := pure ()
  resolveStampActor _ := actor
  canEditProtectedJson _ := true
  tables := .ascii
  parseDatetime value := .ok value
  loads _ := none
  mergeDicts _ incoming := incoming
  now := .str "now"
  keyNumber
    | .int number => .ok number
    | .bool _ => .ok 2
    | _ => .error ⟨"expected a number"⟩
  keyNumber_int _ := rfl
  freshKey _ _ := .error ⟨"no key is left"⟩
  freshKey_free := nofun
  refuses _ _ := none

theorem plainMethods_respects (actor : Option Ref) (label column : String) :
    Respects (plainMethods actor) label column where
  related _ _ _ _ := Triple.pure fun _ hkept => hkept
  assignFar _ _ _ := .pure
  get _ _ := .pure
  setField _ _ _ := .pure
  onAction _ _ _ := .pure
  resolveRestRelatedCandidate _ _ _ _ := .pure
  onRestRelatedSave ref field value current hspares := by
    change Keeps _ label column (if field.hasColumn then _ else _)
    split
    next hcolumn => exact Keeps.rewrite fun _ => Harmless.set hspares hcolumn
    next => exact .pure
  restCheckPermission _ _ := .pure
  createFromFile _ _ _ := .pure
  onRestPreSave _ _ := .pure
  onRestSaved _ _ := .pure

/-- The row with a number: every column of it holds the number. -/
def numbered (number : Int) : Instance where
  pk := .int number
  columns _ := .int number

def twoRows : Session where
  instances ref :=
    if ref.number = 1 then some (numbered 1)
    else if ref.number = 2 then some (numbered 2) else none
  rows _ key := if key = 1 ∨ key = 2 then some fun _ => .int key else none

section

variable {actor : Option Ref} {label column : String}

theorem rowKey_numbered {number : Int} :
    (numbered number).rowKey (plainMethods actor) = some number := rfl

theorem twoRows_kept : Kept (plainMethods actor) label column [⟨label, 1⟩] twoRows twoRows where
  rows _ columns hrow := ⟨columns, hrow, rfl⟩
  instances ref self hself hlabel key columns hkey hrow := by
    simp only [twoRows] at hself hrow
    split at hself
    next =>
      cases hself
      rw [rowKey_numbered, Option.some.injEq] at hkey
      subst hkey
      cases hrow
      rfl
    next =>
      split at hself
      next =>
        cases hself
        rw [rowKey_numbered, Option.some.injEq] at hkey
        subst hkey
        cases hrow
        rfl
      next => cases hself
  saved ref hmem _ := by
    rw [List.mem_singleton.mp hmem]
    exact ⟨numbered 1, rfl, nofun⟩

/-- The first instance of the model is as it was, as far as the column and the key go. -/
structure Calm (label column : String) (session : Session) : Prop where
  first : ∃ self, session.instances ⟨label, 1⟩ = some self ∧ self.pk = .int 1 ∧
    self.columns column = .int 1
  second : ∀ other, session.instances ⟨other, 2⟩ = some (numbered 2)

/-- The first instance would write another value to the column of a row that is there. -/
def Broken (actor : Option Ref) (label column : String) (session : Session) : Prop :=
  ∃ self key, session.instances ⟨label, 1⟩ = some self ∧ (key = 1 ∨ key = 2) ∧
    self.rowKey (plainMethods actor) = some key ∧ self.columns column ≠ .int key

theorem twoRows_calm : Calm label column twoRows := ⟨⟨numbered 1, rfl, rfl, rfl⟩, fun _ => rfl⟩

theorem Broken.not_kept {working : List Ref} {session : Session}
    (hbroken : Broken actor label column session) :
    ¬ Kept (plainMethods actor) label column working twoRows session := by
  obtain ⟨self, key, hself, hkey, hrow, hcolumn⟩ := hbroken
  intro hkept
  exact hcolumn (hkept.instances ⟨label, 1⟩ self hself rfl key (fun _ => .int key) hrow
    (if_pos hkey))

/-- A field whose assignment shows in the key or the column. -/
def Tells (column : String) (field : FieldDecl) : Prop :=
  field.hasColumn = true ∧ (field.primaryKey = true ∨ field.attname = column)

def Second (actor : Option Ref) (value : Json) : Prop :=
  value ≠ .int 1 ∧ value ≠ .null ∧ (plainMethods actor).keyNumber value = .ok 2

theorem Calm.set {session : Session} {self middle : Instance} {field : FieldDecl} {value : Json}
    (hcalm : Calm label column session) (hself : session.instances ⟨label, 1⟩ = some self)
    (hmiddle : Harmless label column ⟨label, 1⟩ self middle) (htells : Tells column field)
    (hvalue : Second actor value) :
    Broken actor label column (session.setInstance ⟨label, 1⟩ (middle.set field value)) := by
  obtain ⟨found, hfound, hpk, hcolumn⟩ := hcalm.first
  rw [hself, Option.some.injEq] at hfound
  subst hfound
  obtain ⟨hmiddlePk, hmiddleColumn⟩ := hmiddle rfl
  by_cases hprimary : field.primaryKey = true
  · refine ⟨_, 2, Session.setInstance_self .., .inr rfl, ?_, ?_⟩
    · rw [Instance.set, if_pos hprimary]
      exact Instance.rowKey_of_ok hvalue.2.1 hvalue.2.2
    · rw [Instance.set, if_pos hprimary]
      change middle.columns column ≠ _
      rw [hmiddleColumn, hcolumn]
      simp
  · refine ⟨_, 1, Session.setInstance_self .., .inl rfl, ?_, ?_⟩
    · rw [Instance.set, if_neg hprimary, Instance.rowKey]
      have hkept : ({ middle with
          columns := Function.update middle.columns field.attname value } : Instance).pk = .int 1 :=
        hmiddlePk.trans hpk
      rw [hkept]
      rfl
    · rw [Instance.set, if_neg hprimary, ← htells.2.resolve_left hprimary]
      change Function.update middle.columns field.attname value field.attname ≠ _
      rw [Function.update_self]
      exact hvalue.1

theorem Calm.setInstance {session : Session} {self changed : Instance}
    (hcalm : Calm label column session) (hself : session.instances ⟨label, 1⟩ = some self)
    (hharmless : Harmless label column ⟨label, 1⟩ self changed) :
    Calm label column (session.setInstance ⟨label, 1⟩ changed) := by
  obtain ⟨found, hfound, hpk, hcolumn⟩ := hcalm.first
  rw [hself, Option.some.injEq] at hfound
  subst hfound
  obtain ⟨hchangedPk, hchanged⟩ := hharmless rfl
  refine ⟨⟨changed, Session.setInstance_self .., hchangedPk.trans hpk, hchanged.trans hcolumn⟩, ?_⟩
  intro other
  have hne : (⟨other, 2⟩ : Ref) ≠ ⟨label, 1⟩ := by simp
  rw [Session.setInstance_ne _ _ hne, hcalm.second]

/-! ### Functions that start calm -/

theorem calm_fetch_bind {Value : Type} {next : Instance → Save Value}
    {after : Value → Session → Prop} {failed : Session → Prop}
    (hnext : ∀ self, self.pk = .int 1 → Triple (fun session => Calm label column session ∧
      session.instances ⟨label, 1⟩ = some self) (next self) after failed) :
    Triple (Calm label column) (fetch ⟨label, 1⟩ >>= next) after failed := by
  refine Triple.through (fun self session => (Calm label column session ∧
    session.instances ⟨label, 1⟩ = some self) ∧ self.pk = .int 1) ?_
    fun self => Triple.given (hnext self)
  intro session hcalm
  obtain ⟨self, hself, hpk, _⟩ := hcalm.first
  rw [fetch_of_some hself]
  exact ⟨⟨hcalm, hself⟩, hpk⟩

theorem calm_keyOf {other : String} {failed : Session → Prop} :
    Triple (Calm label column) (keyOf (some ⟨other, 2⟩))
      (fun value session => Calm label column session ∧ value = .int 2) failed := by
  refine Triple.through (fun self session => Calm label column session ∧ self = numbered 2)
    ?_ fun self => Triple.pure fun _ hstate => ⟨hstate.1, by rw [hstate.2]; rfl⟩
  intro session hcalm
  rw [fetch_of_some (hcalm.second other)]
  exact ⟨hcalm, rfl⟩

theorem calm_store {self changed : Instance} {failed : Session → Prop}
    (hharmless : Harmless label column ⟨label, 1⟩ self changed) :
    Triple (fun session => Calm label column session ∧ session.instances ⟨label, 1⟩ = some self)
      (store ⟨label, 1⟩ changed) (fun _ => Calm label column) failed :=
  Triple.change fun _ hstate => hstate.1.setInstance hstate.2 hharmless

theorem store_breaks {self middle : Instance} {field : FieldDecl} {value : Json}
    {failed : Session → Prop} (hmiddle : Harmless label column ⟨label, 1⟩ self middle)
    (htells : Tells column field) (hvalue : Second actor value) :
    Triple (fun session => Calm label column session ∧ session.instances ⟨label, 1⟩ = some self)
      (store ⟨label, 1⟩ (middle.set field value)) (fun _ => Broken actor label column) failed :=
  Triple.change fun _ hstate => hstate.1.set hstate.2 hmiddle htells hvalue

theorem Harmless.refl {ref : Ref} (self : Instance) : Harmless label column ref self self :=
  fun _ => ⟨rfl, rfl⟩

theorem calm_recordRelated {field : FieldDecl} {other : String} {failed : Session → Prop} :
    Triple (Calm label column) (recordRelated ⟨label, 1⟩ field (some ⟨other, 2⟩))
      (fun _ => Calm label column) failed :=
  Triple.bind calm_keyOf fun _ => Triple.given fun _ =>
    calm_fetch_bind fun _ _ => calm_store Harmless.setFieldChange

theorem second_two : Second actor (.int 2) := ⟨by simp, nofun, rfl⟩

theorem second_true : Second actor (.bool true) := ⟨nofun, nofun, rfl⟩

theorem assign_breaks {field : FieldDecl} {other : String} {failed : Session → Prop}
    (htells : Tells column field) :
    Triple (Calm label column) (assign (plainMethods actor) ⟨label, 1⟩ field (some ⟨other, 2⟩))
      (fun _ => Broken actor label column) failed := by
  rw [assign, if_pos htells.1]
  refine Triple.bind calm_keyOf fun value => Triple.given fun hvalue => ?_
  rw [hvalue]
  exact calm_fetch_bind fun self _ => store_breaks (.refl self) htells second_two

theorem calm_assign {field : FieldDecl} {other : String} {failed : Session → Prop}
    (hspares : Spares label column ⟨label, 1⟩ field) :
    Triple (Calm label column) (assign (plainMethods actor) ⟨label, 1⟩ field (some ⟨other, 2⟩))
      (fun _ => Calm label column) failed := by
  unfold assign
  split
  next hcolumn =>
    refine Triple.bind calm_keyOf fun value => Triple.given fun _ => ?_
    exact calm_fetch_bind fun self _ => calm_store (Harmless.set hspares hcolumn)
  next => exact Triple.pure fun _ hcalm => hcalm

/-! ### A key of the body -/

variable {schema : Schema} {model : Model} {nested : Ref → Save Unit} {field : FieldDecl}
variable {failed : Session → Prop}

theorem saveRelatedField_breaks {related : String} (htells : Tells column field) :
    Triple (Calm label column) (saveRelatedField schema (plainMethods actor) model ⟨label, 1⟩ field
      related nested (.int 2)) (fun _ => Broken actor label column) failed := by
  change Triple _ (if (schema related).resolvesCandidates then _ else _) _ _
  split
  next =>
    change Triple _ (recordRelated ⟨label, 1⟩ field (some ⟨"", 2⟩) >>= fun _ =>
      assign (plainMethods actor) ⟨label, 1⟩ field (some ⟨"", 2⟩)) _ _
    exact Triple.bind calm_recordRelated fun _ => assign_breaks htells
  next =>
    change Triple _ (if (schema related).savesRelated then _ else _) _ _
    split
    next =>
      have hallowed : mayHandOver schema (plainMethods actor) model field related (.int 2) =
          (pure true : Save Bool) := by
        unfold mayHandOver
        split <;> rfl
      change Triple _ (mayHandOver schema (plainMethods actor) model field related (.int 2) >>= _) _ _
      rw [hallowed]
      change Triple _ (if field.hasColumn then _ else _) _ _
      rw [if_pos htells.1]
      exact calm_fetch_bind fun self _ => store_breaks (.refl self) htells second_two
    next =>
      have hallowed : mayAttach schema (plainMethods actor) model field related ⟨related, 2⟩ =
          (pure true : Save Bool) := by
        unfold mayAttach
        split <;> rfl
      change Triple _ (fetch ⟨label, 1⟩ >>= fun changed => _) _ _
      refine calm_fetch_bind fun self hpk => ?_
      have hother : (decide (related = label) && self.pk.pyEq (.int 2)) = false := by
        rw [hpk]
        exact Bool.and_false _
      change Triple _ (if (decide (related = label) && self.pk.pyEq (.int 2)) = true then _ else
        mayAttach schema (plainMethods actor) model field related ⟨related, 2⟩ >>= _) _ _
      rw [hother, if_neg (by decide), hallowed]
      change Triple _ (recordRelated ⟨label, 1⟩ field (some ⟨related, 2⟩) >>= fun _ =>
        assign (plainMethods actor) ⟨label, 1⟩ field (some ⟨related, 2⟩)) _ _
      exact (Triple.bind calm_recordRelated fun _ => assign_breaks htells).weaken
        (fun _ hstate => hstate.1) (fun _ _ hbroken => hbroken) fun _ hfailed => hfailed

/-- No kind of field takes the number two for the value that the first row has. -/
theorem fieldValue_second : ∃ value, fieldValue (plainMethods actor) field (.int 2) = .ok value ∧
    Second actor value := by
  unfold fieldValue
  split
  next => exact ⟨.bool true, rfl, second_true⟩
  next =>
    refine ⟨.int 2, ?_, second_two⟩
    change (if (false && field.null) = true then _ else _) = _
    rw [Bool.false_and, if_neg (by decide)]
    dsimp only
    split
    next => rfl
    next => rfl

theorem saveField_breaks {key : String} (hsetter : key ∉ model.setters)
    (hfield : model.getModelField key = some field) (htells : Tells column field) :
    Triple (Calm label column) (saveField schema (plainMethods actor) model ⟨label, 1⟩ nested key
      (.int 2)) (fun _ => Broken actor label column) failed := by
  have hnot : ¬ model.setters.contains key = true := by simpa using hsetter
  unfold saveField
  rw [if_neg hnot, hfield]
  dsimp only
  split
  next => exact saveRelatedField_breaks htells
  next =>
    refine calm_fetch_bind fun self _ => ?_
    change Triple _ (if ((holdsProtected (orEmpty (self.value field)) || false) && false) = true
      then _ else store ⟨label, 1⟩ (self.set field (.int 2))) _ _
    rw [Bool.and_false, if_neg (by decide)]
    exact store_breaks (.refl self) htells second_two
  next =>
    obtain ⟨value, hvalue, hsecond⟩ := @fieldValue_second actor field
    rw [hvalue]
    change Triple _ (fetch ⟨label, 1⟩ >>= fun changed => _) _ _
    exact calm_fetch_bind fun self _ => store_breaks Harmless.setFieldChange htells hsecond

theorem fieldValue_obj {files : JsonFields} :
    ∃ value, fieldValue (plainMethods actor) field (.obj files) = .ok value := by
  unfold fieldValue
  split
  next => exact ⟨_, rfl⟩
  next =>
    refine ⟨.obj files, ?_⟩
    change (if (false && field.null) = true then _ else _) = _
    rw [Bool.false_and, if_neg (by decide)]
    dsimp only
    split
    next => rfl
    next => rfl

/-- An object under the key `files`, for a field that does not tell. -/
theorem calm_saveFiles_key {files : JsonFields}
    (hspares : ∀ field, "files" ∉ model.setters → model.getModelField "files" = some field →
      Spares label column ⟨label, 1⟩ field) :
    Triple (Calm label column) (saveField schema (plainMethods actor) model ⟨label, 1⟩ nested "files"
      (.obj files)) (fun _ => Calm label column) failed := by
  unfold saveField
  split
  next =>
    split
    next => exact Triple.pure fun _ hcalm => hcalm
    next =>
      refine calm_fetch_bind fun before _ => ?_
      change Triple _ (fetch ⟨label, 1⟩ >>= fun after => _) _ _
      exact (calm_fetch_bind fun self _ => calm_store Harmless.setFieldChange).weaken
        (fun _ hstate => hstate.1) (fun _ _ hcalm => hcalm) fun _ hfailed => hfailed
  next hsetter =>
    have hnot : "files" ∉ model.setters := by simpa using hsetter
    split
    next => exact Triple.pure fun _ hcalm => hcalm
    next field hfield =>
      have hfree := hspares field hnot hfield
      split
      next related side hkind =>
        change Triple _ (if (schema related).resolvesCandidates then _ else _) _ _
        split
        next =>
          change Triple _ (recordRelated ⟨label, 1⟩ field (some ⟨"", 2⟩) >>= fun _ =>
            assign (plainMethods actor) ⟨label, 1⟩ field (some ⟨"", 2⟩)) _ _
          exact Triple.bind calm_recordRelated fun _ => calm_assign hfree
        next => exact Triple.pure fun _ hcalm => hcalm
      next hkind =>
        have hcolumn : field.hasColumn = true := hasColumn_of_kind
          fun _ _ heq => by rw [hkind] at heq; cases heq
        refine calm_fetch_bind fun self _ => ?_
        dsimp only
        split
        next =>
          rw [show (plainMethods actor).canEditProtectedJson model.protectedJsonPerms = true from rfl,
            Bool.not_true, Bool.and_false, if_neg (by decide)]
          exact calm_store (Harmless.set hfree hcolumn)
        next =>
          rw [show (plainMethods actor).canEditProtectedJson model.protectedJsonPerms = true from rfl,
            Bool.not_true, Bool.and_false, if_neg (by decide)]
          exact calm_store (Harmless.set hfree hcolumn)
      next hrelation _ =>
        obtain ⟨value, hvalue⟩ := @fieldValue_obj actor field files
        rw [hvalue]
        change Triple _ (fetch ⟨label, 1⟩ >>= fun changed => _) _ _
        exact calm_fetch_bind fun self _ => calm_store
          (Harmless.setFieldChange.trans (Harmless.set hfree (hasColumn_of_kind hrelation)))

/-! ### What follows the fields -/

theorem keyNumber_of_rowKey {methods : Methods} {self : Instance} {key : Int}
    (hkey : self.rowKey methods = some key) :
    self.pk ≠ .null ∧ methods.keyNumber self.pk = .ok key := by
  unfold Instance.rowKey at hkey
  split at hkey
  next => cases hkey
  next hnull =>
    refine ⟨hnull, ?_⟩
    cases hnumber : methods.keyNumber self.pk with
    | error => rw [hnumber] at hkey; cases hkey
    | ok number => rw [hnumber] at hkey; cases hkey; rfl

/-- A save of an instance with a key, where the database refuses nothing. -/
theorem save_run {session : Session} {self : Instance} {key : Int}
    (hself : session.instances ⟨label, 1⟩ = some self)
    (hkey : self.rowKey (plainMethods actor) = some key) :
    save schema (plainMethods actor) ⟨label, 1⟩ session =
      (.ok (), (session.setInstance ⟨label, 1⟩
        (self.stamp (schema label) (plainMethods actor).now)).setRow label key
          (self.stamp (schema label) (plainMethods actor).now).columns) := by
  obtain ⟨hnull, hnumber⟩ := keyNumber_of_rowKey hkey
  unfold save
  rw [bind_of_ok (fetch_of_some hself)]
  have hread : (Effect.read fun session => (plainMethods actor).refuses session ⟨label, 1⟩ :
      Save (Option RestError)) session = (.ok none, session) := rfl
  have hlift : (Effect.lift ((plainMethods actor).keyNumber self.pk) : Save Int) session =
      (.ok key, session) := by rw [Effect.lift, hnumber]
  dsimp only
  rw [bind_of_ok hread]
  dsimp only
  cases hpk : self.pk with
  | null => exact absurd hpk hnull
  | _ =>
    rw [hpk] at hlift
    dsimp only
    rw [bind_of_ok hlift]
    rfl

theorem save_breaks {before : Session → Prop}
    (hbefore : ∀ session, before session → ∃ self key, session.instances ⟨label, 1⟩ = some self ∧
      self.rowKey (plainMethods actor) = some key ∧ Broken actor label column
        (session.setInstance ⟨label, 1⟩ (self.stamp (schema label) (plainMethods actor).now))) :
    Triple before (save schema (plainMethods actor) ⟨label, 1⟩)
      (fun _ => Broken actor label column) failed := by
  intro session hstate
  obtain ⟨self, key, hself, hkey, hbroken⟩ := hbefore session hstate
  rw [save_run hself hkey]
  exact hbroken

theorem broken_save : Triple (Broken actor label column) (save schema (plainMethods actor) ⟨label, 1⟩)
    (fun _ => Broken actor label column) failed := by
  refine save_breaks ?_
  rintro session ⟨self, key, hself, hkey, hrow, hcolumn⟩
  refine ⟨self, key, hself, hrow, _, key, Session.setInstance_self .., hkey, hrow, ?_⟩
  simp only [Instance.stamp]
  split
  next =>
    intro heq
    cases heq
  next => exact hcolumn

theorem stamp_breaks (hmem : field ∈ (schema label).fields) (hstamp : field.autoNow = true) :
    Triple (Calm label field.attname) (save schema (plainMethods actor) ⟨label, 1⟩)
      (fun _ => Broken actor label field.attname) failed := by
  refine save_breaks fun session hcalm => ?_
  obtain ⟨self, hself, hpk, hcolumn⟩ := hcalm.first
  have hrow : self.rowKey (plainMethods actor) = some 1 := by rw [Instance.rowKey, hpk]; rfl
  refine ⟨self, 1, hself, hrow, _, 1, Session.setInstance_self .., .inl rfl, hrow, ?_⟩
  have hany : ((schema label).fields.any fun other =>
      other.autoNow && other.attname = field.attname) = true := by
    rw [List.any_eq_true]
    exact ⟨field, hmem, by simp [hstamp]⟩
  simp only [Instance.stamp, hany, if_true]
  intro heq
  cases heq

theorem runActions_broken {actions : JsonFields} {response : Option Json} :
    Triple (Broken actor label column) (runActions (plainMethods actor) model ⟨label, 1⟩ actions
      response) (fun _ => Broken actor label column) (Broken actor label column) := by
  induction actions generalizing response with
  | nil => exact Triple.pure fun _ hbroken => hbroken
  | cons entry rest ih =>
    unfold runActions
    split
    next => exact ih
    next => exact ih

theorem stampUpdated_nobody {before : Session → Prop} :
    Triple before (stampUpdated (plainMethods none) model ⟨label, 1⟩) (fun _ => before) failed := by
  unfold stampUpdated
  split
  next => exact Triple.pure fun _ hstate => hstate
  next =>
    refine Triple.through (fun actor session => before session ∧ actor = none)
      (Triple.read fun _ hstate => ⟨hstate, rfl⟩) fun actor => Triple.given fun hactor => ?_
    rw [hactor]
    exact Triple.pure fun _ hstate => hstate

theorem stampUpdated_breaks (howner : model.ownerStamp = some field) (htells : Tells column field) :
    Triple (Calm label column) (stampUpdated (plainMethods (some ⟨"account.user", 2⟩)) model
      ⟨label, 1⟩) (fun _ => Broken (some ⟨"account.user", 2⟩) label column) failed := by
  unfold stampUpdated
  rw [← Model.ownerStamp, howner]
  refine Triple.through (fun actor session => Calm label column session ∧
    actor = some ⟨"account.user", 2⟩) (Triple.read fun _ hstate => ⟨hstate, rfl⟩)
    fun actor => Triple.given fun hactor => ?_
  rw [hactor]
  exact assign_breaks htells

theorem saveFiles_breaks {related name : String} {side : RelationSide}
    (hfield : model.getModelField name = some field) (hkind : field.kind = .relation related side)
    (hcreates : (schema related).createsFromFile = true) (htells : Tells column field) :
    Triple (Calm label column) (saveFiles schema (plainMethods actor) model ⟨label, 1⟩
      (.obj [(name, .null)])) (fun _ => Broken actor label column) failed := by
  refine Triple.through (fun _ => Broken actor label column) ?_
    fun _ => Triple.pure fun _ hbroken => hbroken
  unfold saveFile
  dsimp only
  rw [hfield]
  dsimp only
  rw [hkind]
  dsimp only
  rw [if_pos hcreates]
  exact assign_breaks htells

/-- The row is saved when an instance with a key is at work and the body has more than
actions. -/
theorem finishSave_breaks {before : Session → Prop} {body : JsonFields}
    (hfirst : ∀ session, before session →
      ∃ self, session.instances ⟨label, 1⟩ = some self ∧ self.pk ≠ .null)
    (hsaves : actionsOnly model body = false)
    (hrow : Triple before (saveRow schema (plainMethods actor) model ⟨label, 1⟩ body false)
      (fun _ => Broken actor label column) (Broken actor label column)) :
    Triple before (finishSave schema (plainMethods actor) model ⟨label, 1⟩ body)
      (fun _ => Broken actor label column) (Broken actor label column) := by
  refine Triple.through (fun self session => before session ∧ self.pk.pyEq .null = false) ?_
    fun self => Triple.given fun hcreated => ?_
  · intro session hstate
    obtain ⟨self, hself, hpk⟩ := hfirst session hstate
    rw [fetch_of_some hself]
    exact ⟨hstate, pyEq_null hpk⟩
  · dsimp only
    rw [hcreated, hsaves, Bool.not_false, Bool.true_or, if_pos rfl]
    exact Triple.bind hrow fun _ => runActions_broken

theorem saveRow_breaks {middle before : Session → Prop} (last : Session → Prop) {body : JsonFields}
    (hstamp : Triple before (stampUpdated (plainMethods actor) model ⟨label, 1⟩) (fun _ => middle)
      (Broken actor label column))
    (hfiles : Triple middle (saveBodyFiles schema (plainMethods actor) model ⟨label, 1⟩ body)
      (fun _ => last) (Broken actor label column))
    (hsave : Triple last (save schema (plainMethods actor) ⟨label, 1⟩)
      (fun _ => Broken actor label column) (Broken actor label column)) :
    Triple before (saveRow schema (plainMethods actor) model ⟨label, 1⟩ body false)
      (fun _ => Broken actor label column) (Broken actor label column) := by
  refine Triple.bind hstamp fun _ => ?_
  refine Triple.through (fun _ => middle) (Triple.pure fun _ hstate => hstate) fun _ => ?_
  refine Triple.bind hfiles fun _ => Triple.bind hsave fun _ => ?_
  exact Triple.pure fun _ hbroken => hbroken

end

/-! ### The requests -/

section

variable {schema : Schema} {label : String} {field : FieldDecl}

theorem not_writeProtects (actor : Option Ref) (body : JsonFields)
    (hprotects : (schema label).Protects field)
    (hbody : Triple (Calm label field.attname) (onRestSave schema (plainMethods actor) ⟨label, 1⟩
      (.obj body)) (fun _ => Broken actor label field.attname) (Broken actor label field.attname)) :
    ¬ WriteProtects schema label := by
  intro hwrite
  have hkept := hwrite field hprotects (plainMethods actor) (plainMethods_respects actor label _)
    twoRows ⟨label, 1⟩ rfl twoRows_kept body
  have hrun := hbody twoRows twoRows_calm
  split at hrun
  next hok => rw [hok] at hkept; exact hrun.not_kept hkept
  next herror => rw [herror] at hkept; exact hrun.not_kept hkept

theorem exists_fresh (model : Model) : ∃ key, model.skips key = false ∧ key ∉ model.setters ∧
    model.getModelField key = none ∧ key ≠ "files" := by
  obtain ⟨key, hkey⟩ := Infinite.exists_notMem_finset ("files" :: model.noSaveFields ++
    model.postSaveActions ++ model.setters ++ model.fields.map FieldDecl.name ++
    model.fields.map FieldDecl.attname).toFinset
  simp only [List.mem_toFinset, List.mem_append, List.mem_cons, List.mem_map, not_or, not_exists,
    not_and] at hkey
  obtain ⟨⟨⟨⟨⟨hfiles, hsave⟩, hpost⟩, hsetter⟩, hname⟩, hattname⟩ := hkey
  refine ⟨key, ?_, hsetter, ?_, hfiles⟩
  · simp [Model.skips, hsave, hpost]
  · rw [Model.getModelField, List.find?_eq_none]
    intro other hmem
    simp [Ne.symm (hname other hmem), Ne.symm (hattname other hmem)]

theorem calm_saved {column : String} (session : Session) (hcalm : Calm label column session) :
    ∃ self, session.instances ⟨label, 1⟩ = some self ∧ self.pk ≠ .null := by
  obtain ⟨self, hself, hpk, _⟩ := hcalm.first
  exact ⟨self, hself, by rw [hpk]; nofun⟩

theorem broken_saved {actor : Option Ref} {column : String} (session : Session)
    (hbroken : Broken actor label column session) :
    ∃ self, session.instances ⟨label, 1⟩ = some self ∧ self.pk ≠ .null := by
  obtain ⟨self, key, hself, _, hkey, _⟩ := hbroken
  exact ⟨self, hself, (keyNumber_of_rowKey hkey).1⟩

theorem saveField_fresh {model : Model} {methods : Methods} {ref : Ref} {key : String}
    {nested : Ref → Save Unit} {value : Json} (hsetter : key ∉ model.setters)
    (hfield : model.getModelField key = none) :
    saveField schema methods model ref nested key value = pure () := by
  have hnot : ¬ model.setters.contains key = true := by simpa using hsetter
  rw [saveField, if_neg hnot, hfield]

theorem keepGroup_triple {Value : Type} {before after failed : Session → Prop}
    {action : Save Value} (hafter : ∀ session group, after session → after { session with group })
    (hfailed : ∀ session group, failed session → failed { session with group })
    (hrun : Triple before action (fun _ => after) failed) :
    Triple before (keepGroup action) (fun _ => after) failed := by
  intro session hstate
  have hresult := hrun session hstate
  unfold keepGroup
  cases haction : action session with
  | mk result next =>
    rw [haction] at hresult
    cases result with
    | ok value => exact hafter next session.group hresult
    | error error => exact hfailed next session.group hresult

theorem Calm.withGroup {column : String} (session : Session) (group : Option Ref)
    (hcalm : Calm label column session) : Calm label column { session with group } :=
  ⟨hcalm.first, hcalm.second⟩

theorem Broken.withGroup {actor : Option Ref} {column : String} (session : Session)
    (group : Option Ref) (hbroken : Broken actor label column session) :
    Broken actor label column { session with group } := hbroken

theorem saveEach_fresh {model : Model} {methods : Methods} {ref : Ref} {key : String}
    {before failed : Session → Prop} (hskips : model.skips key = false)
    (hsetter : key ∉ model.setters) (hfield : model.getModelField key = none)
    (hbefore : ∀ session group, before session → before { session with group })
    (hfailed : ∀ session group, failed session → failed { session with group }) :
    Triple before (saveEach schema methods model ref [(key, .null)]) (fun _ => before) failed := by
  unfold saveEach
  rw [if_neg (by simp [hskips])]
  refine Triple.through (fun _ => before) ?_ fun _ => Triple.pure fun _ hstate => hstate
  rw [saveField_fresh hsetter hfield]
  exact keepGroup_triple hbefore hfailed (Triple.pure fun _ hstate => hstate)

theorem actionsOnly_of_mem {model : Model} {body : JsonFields} {entry : String × Json}
    (hmem : entry ∈ body) (hskips : model.skips entry.1 = false) :
    actionsOnly model body = false := by
  rw [actionsOnly, List.all_eq_false]
  exact ⟨entry, hmem, by simp [hskips]⟩

variable (hprotects : (schema label).Protects field)

include hprotects

/-- A body with the attribute name of a protected foreign key, or with the key of the row. -/
theorem key_breaks {key : String} {written : FieldDecl}
    (hfield : (schema label).getModelField key = some written)
    (hskips : (schema label).skips key = false) (hsetter : key ∉ (schema label).setters)
    (htells : Tells field.attname written) : ¬ WriteProtects schema label := by
  refine not_writeProtects none ([(key, .int 2)]) hprotects ?_
  unfold onRestSave
  refine Triple.through (fun _ => Broken none label field.attname) ?_ fun _ =>
    finishSave_breaks broken_saved (actionsOnly_of_mem List.mem_cons_self hskips)
      (saveRow_breaks (Broken none label field.attname) stampUpdated_nobody ?_ broken_save)
  · unfold saveEach
    rw [if_neg (by simp [hskips])]
    refine Triple.through (fun _ => Broken none label field.attname) ?_
      fun _ => Triple.pure fun _ hbroken => hbroken
    exact keepGroup_triple Broken.withGroup Broken.withGroup
      (saveField_breaks hsetter hfield htells)
  · unfold saveBodyFiles JsonFields.field
    rw [List.lookup_cons]
    cases "files" == key with
    | true => exact Triple.fail fun _ hbroken => hbroken
    | false => exact Triple.pure fun _ hbroken => hbroken

/-- A body with a fresh key saves the row, with its stamps. -/
theorem stamp_writes (hstamp : field.autoNow = true) : ¬ WriteProtects schema label := by
  obtain ⟨key, hskips, hsetter, hnone, hfiles⟩ := exists_fresh (schema label)
  refine not_writeProtects none ([(key, .null)]) hprotects ?_
  unfold onRestSave
  refine Triple.bind (saveEach_fresh hskips hsetter hnone Calm.withGroup Broken.withGroup)
    fun _ => finishSave_breaks calm_saved (actionsOnly_of_mem List.mem_cons_self hskips)
      (saveRow_breaks (Calm label field.attname) stampUpdated_nobody ?_
        (stamp_breaks hprotects.mem hstamp))
  unfold saveBodyFiles JsonFields.field
  rw [List.lookup_cons, beq_eq_false_iff_ne.mpr hfiles.symm]
  exact Triple.pure fun _ hcalm => hcalm

theorem owner_breaks {written : FieldDecl} (howner : (schema label).ownerStamp = some written)
    (htells : Tells field.attname written) : ¬ WriteProtects schema label := by
  obtain ⟨key, hskips, hsetter, hnone, hfiles⟩ := exists_fresh (schema label)
  refine not_writeProtects (some ⟨"account.user", 2⟩) ([(key, .null)]) hprotects ?_
  unfold onRestSave
  refine Triple.bind (saveEach_fresh hskips hsetter hnone Calm.withGroup Broken.withGroup)
    fun _ => finishSave_breaks calm_saved (actionsOnly_of_mem List.mem_cons_self hskips)
      (saveRow_breaks (Broken (some ⟨"account.user", 2⟩) label field.attname)
        (stampUpdated_breaks howner htells) ?_ broken_save)
  unfold saveBodyFiles JsonFields.field
  rw [List.lookup_cons, beq_eq_false_iff_ne.mpr hfiles.symm]
  exact Triple.pure fun _ hbroken => hbroken

/-- A body with a file for a relation, when no key of the body is open. -/
theorem file_breaks {name related : String} {written : FieldDecl} {side : RelationSide}
    (hfield : (schema label).getModelField name = some written)
    (hkind : written.kind = .relation related side)
    (hcreates : (schema related).createsFromFile = true) (htells : Tells field.attname written)
    (hspares : ∀ other, (schema label).skips "files" = false → "files" ∉ (schema label).setters →
      (schema label).getModelField "files" = some other →
      Spares label field.attname ⟨label, 1⟩ other) : ¬ WriteProtects schema label := by
  obtain ⟨key, hskips, hsetter, hnone, hfiles⟩ := exists_fresh (schema label)
  refine not_writeProtects none
    ([("files", .obj [(name, .null)]), (key, .null)]) hprotects ?_
  have hfresh : Triple (Calm label field.attname)
      (saveEach schema (plainMethods none) (schema label) ⟨label, 1⟩ [(key, .null)])
      (fun _ => Calm label field.attname) (Broken none label field.attname) :=
    saveEach_fresh hskips hsetter hnone Calm.withGroup Broken.withGroup
  unfold onRestSave
  refine Triple.through (fun _ => Calm label field.attname) ?_ fun _ =>
    finishSave_breaks calm_saved
      (actionsOnly_of_mem (List.mem_cons_of_mem _ List.mem_cons_self) hskips)
      (saveRow_breaks (Broken none label field.attname) stampUpdated_nobody
        (saveFiles_breaks hfield hkind hcreates htells) broken_save)
  rw [saveEach]
  split
  next => exact hfresh
  next hopen =>
    refine Triple.bind ?_ fun _ => hfresh
    exact keepGroup_triple Calm.withGroup Broken.withGroup (calm_saveFiles_key
      fun other hnot hother => hspares other (by simpa using hopen) hnot hother)

end

/-- Every body leaves the protected fields of a model alone if and only if nothing that a
body reaches is a protected field or the key. -/
theorem writeProtects_iff (schema : Schema) (label : String) :
    WriteProtects schema label ↔ (schema label).Closed schema := by
  refine ⟨fun hwrite field hprotects => ⟨?_, ?_⟩, writeProtects_of_closed⟩
  · by_contra hstamp
    exact stamp_writes hprotects (by simpa using hstamp) hwrite
  · have hkey {key : String} {written : FieldDecl}
        (hfield : (schema label).getModelField key = some written)
        (hskips : (schema label).skips key = false) (hsetter : key ∉ (schema label).setters) :
        ¬ Tells field.attname written := fun htells =>
      key_breaks hprotects hfield hskips hsetter htells hwrite
    intro written hwrites hcolumn
    have hquiet : ¬ Tells field.attname written := by
      intro htells
      cases hwrites with
      | key name _ hfield hskips hsetter => exact hkey hfield hskips hsetter htells
      | file name related _ side hfield hkind hcreates =>
        refine file_breaks hprotects hfield hkind hcreates htells ?_ hwrite
        intro other hskips hsetter hother _ hotherColumn
        have hfree := hkey hother hskips hsetter
        by_contra hopen
        rw [not_and_or, Bool.not_eq_false, not_not] at hopen
        exact hfree ⟨hotherColumn, hopen⟩
      | owner _ howner => exact owner_breaks hprotects howner htells hwrite
    refine ⟨?_, fun heq => hquiet ⟨hcolumn, .inr (by rw [heq])⟩⟩
    by_contra hprimary
    exact hquiet ⟨hcolumn, .inl (by simpa using hprimary)⟩

/-! ### The alias of a vhost -/

def aliasOf : FieldDecl where
  name := "alias_of"
  kind := .relation "edge.webapp" .stored
  null := true

/-- The fields of a vhost that the gate and the alias need. -/
def vhostModel : Model where
  fields := [{ name := "id", kind := .number, primaryKey := true },
    { name := "created", kind := .date }, { name := "label", kind := .other }, aliasOf]
  noSaveFields := ["id", "pk", "created", "uuid", "alias_of"]

def edgeSchema : Schema := fun _ => vhostModel

theorem vhostModel_protects : vhostModel.Protects aliasOf where
  named := ⟨"alias_of", by decide, by decide⟩
  hasColumn := rfl
  notKey := rfl
  notOwner := by decide

/-- The column that the gate keeps under one name is written under the other. -/
theorem aliasOf_unprotected : ¬ WriteProtects edgeSchema "edge.vhost" ∧
    ∃ before after, twoRows.rows "edge.vhost" 1 = some before ∧
      (onRestSave edgeSchema (plainMethods none) ⟨"edge.vhost", 1⟩
        (.obj [("alias_of_id", .int 2)]) twoRows).2.rows "edge.vhost" 1 = some after ∧
      before "alias_of_id" = .int 1 ∧ after "alias_of_id" = .int 2 := by
  refine ⟨?_, _, _, rfl, rfl, rfl, rfl⟩
  rw [writeProtects_iff]
  intro hclosed
  have hopen : vhostModel.Writes edgeSchema aliasOf :=
    .key "alias_of_id" aliasOf (by decide) (by decide) (by decide)
  exact ((hclosed aliasOf vhostModel_protects).2 aliasOf hopen rfl).2 rfl

end DjangoMojo.Rest
