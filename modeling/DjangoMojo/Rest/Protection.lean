import DjangoMojo.Rest.Saves

/-! # What a save leaves alone

A field is protected when the model names it in `NO_SAVE_FIELDS` and its column is neither
the key nor a stamp of the owner. This file follows the column of one protected field
through every function of a save.
-/

namespace DjangoMojo.Rest

open Foundation Foundation.Effect

namespace Model

def ownerStamp (model : Model) : Option FieldDecl :=
  model.updatedByOwnerField.bind model.getModelField

/-- The field is named in `NO_SAVE_FIELDS` and has a column of its own. -/
structure Protects (model : Model) (field : FieldDecl) : Prop where
  named : ∃ name ∈ model.noSaveFields, model.getModelField name = some field
  hasColumn : field.hasColumn = true
  notKey : field.primaryKey = false
  notOwner : model.ownerStamp ≠ some field

theorem Protects.mem {model : Model} {field : FieldDecl} (hprotects : model.Protects field) :
    field ∈ model.fields := by
  obtain ⟨name, _, hfield⟩ := hprotects.named
  exact getModelField_mem hfield

inductive Writes (schema : Schema) (model : Model) : FieldDecl → Prop where
  | key (name : String) (field : FieldDecl) (hfield : model.getModelField name = some field)
      (hskips : model.skips name = false) (hsetter : name ∉ model.setters) : Writes schema model field
  /-- A name under `files`, for a relation to a model that files create. -/
  | file (name related : String) (field : FieldDecl) (side : RelationSide)
      (hfield : model.getModelField name = some field) (hkind : field.kind = .relation related side)
      (hcreates : (schema related).createsFromFile = true) : Writes schema model field
  | owner (field : FieldDecl) (hfield : model.ownerStamp = some field) : Writes schema model field

/-- Nothing that a body reaches is the key or a protected field, and no protected field is
stamped with the time. -/
def Closed (schema : Schema) (model : Model) : Prop :=
  ∀ field, model.Protects field → field.autoNow = false ∧
    ∀ written, model.Writes schema written → written.hasColumn = true →
      written.primaryKey = false ∧ written ≠ field

end Model

def Instance.rowKey (methods : Methods) (self : Instance) : Option Int :=
  match self.pk with
  | .null => none
  | pk => (methods.keyNumber pk).toOption

theorem Instance.rowKey_int (methods : Methods) (self : Instance) (key : Int) :
    ({ self with pk := .int key } : Instance).rowKey methods = some key := by
  change (methods.keyNumber (.int key)).toOption = some key
  rw [methods.keyNumber_int]
  rfl

theorem Instance.rowKey_of_ok {methods : Methods} {self : Instance} {key : Int}
    (hnull : self.pk ≠ .null) (hkey : methods.keyNumber self.pk = .ok key) :
    self.rowKey methods = some key := by
  unfold Instance.rowKey
  split
  next heq => exact absurd heq hnull
  next => rw [hkey]; rfl

def Saved (session : Session) (ref : Ref) : Prop :=
  ∃ self, session.instances ref = some self ∧ self.pk ≠ .null

/-- Every row of the model that was there keeps the column, and so does every instance
that stands for such a row; the instances that are at work keep a key. -/
structure Kept (methods : Methods) (label column : String) (working : List Ref)
    (before session : Session) : Prop where
  rows : ∀ key columns, before.rows label key = some columns →
    ∃ after, session.rows label key = some after ∧ after column = columns column
  instances : ∀ ref self, session.instances ref = some self → ref.label = label →
    ∀ key columns, self.rowKey methods = some key → before.rows label key = some columns →
      self.columns column = columns column
  saved : ∀ ref ∈ working, ref.label = label → Saved session ref

/-- The function leaves the column alone, whether it returns or raises. -/
def Keeps {Value : Type} (methods : Methods) (label column : String) (action : Save Value) : Prop :=
  ∀ working before, Triple (Kept methods label column working before) action
    (fun _ => Kept methods label column working before) (Kept methods label column working before)

/-- The new state of an instance differs neither in its key nor in the column. -/
def Harmless (label column : String) (ref : Ref) (self changed : Instance) : Prop :=
  ref.label = label → changed.pk = self.pk ∧ changed.columns column = self.columns column

section

variable {methods : Methods} {label column : String} {First Second : Type}

namespace Keeps

theorem pure {value : First} : Keeps methods label column (Pure.pure value : Save First) :=
  fun _ _ => Triple.pure fun _ hkept => hkept

theorem fail {error : RestError} : Keeps methods label column (Effect.fail error : Save First) :=
  fun _ _ => Triple.fail fun _ hkept => hkept

theorem lift {result : Except RestError First} :
    Keeps methods label column (Effect.lift result : Save First) :=
  fun _ _ => Triple.lift (fun _ _ _ hkept => hkept) fun _ _ _ hkept => hkept

theorem read {view : Session → First} : Keeps methods label column (Effect.read view) :=
  fun _ _ => Triple.read fun _ hkept => hkept

theorem bind {first : Save First} {next : First → Save Second}
    (hfirst : Keeps methods label column first)
    (hnext : ∀ value, Keeps methods label column (next value)) :
    Keeps methods label column (first >>= next) :=
  fun working before => (hfirst working before).bind fun value => hnext value working before

theorem fetch {ref : Ref} : Keeps methods label column (fetch ref) := by
  intro working before session hkept
  cases hself : session.instances ref with
  | none => rw [fetch_of_none hself]; exact hkept
  | some self => rw [fetch_of_some hself]; exact hkept

theorem keyOf {target : Option Ref} : Keeps methods label column (keyOf target) := by
  cases target with
  | none => exact pure
  | some target => exact fetch.bind fun _ => pure

theorem forM {Item : Type} {items : List Item} {step : Item → Save Unit}
    (hstep : ∀ item, Keeps methods label column (step item)) :
    Keeps methods label column (items.forM step) :=
  fun working before => Triple.forM_invariant fun item _ => hstep item working before

theorem keepGroup {action : Save First} (hkeeps : Keeps methods label column action) :
    Keeps methods label column (keepGroup action) := by
  intro working before session hkept
  have hrun := hkeeps working before session hkept
  unfold Rest.keepGroup
  cases hresult : action session with
  | mk result after =>
    rw [hresult] at hrun
    cases result with
    | ok value => exact ⟨hrun.rows, hrun.instances, hrun.saved⟩
    | error error => exact ⟨hrun.rows, hrun.instances, hrun.saved⟩

end Keeps

theorem Kept.setInstance {working : List Ref} {before session : Session} {ref : Ref}
    {changed : Instance} (hkept : Kept methods label column working before session)
    (hagrees : ref.label = label → ∀ key columns, changed.rowKey methods = some key →
      before.rows label key = some columns → changed.columns column = columns column)
    (hsaved : ref ∈ working → ref.label = label → changed.pk ≠ .null) :
    Kept methods label column working before (session.setInstance ref changed) := by
  refine ⟨hkept.rows, ?_, ?_⟩
  · intro other found hfound hlabel key columns hkey hrow
    by_cases heq : other = ref
    · subst heq
      rw [Session.setInstance_self, Option.some.injEq] at hfound
      subst hfound
      exact hagrees hlabel key columns hkey hrow
    · rw [Session.setInstance_ne _ _ heq] at hfound
      exact hkept.instances other found hfound hlabel key columns hkey hrow
  · intro other hmem hlabel
    by_cases heq : other = ref
    · subst heq
      exact ⟨changed, Session.setInstance_self .., hsaved hmem hlabel⟩
    · obtain ⟨self, hself, hpk⟩ := hkept.saved other hmem hlabel
      exact ⟨self, by rw [Session.setInstance_ne _ _ heq, hself], hpk⟩

theorem Kept.setRow {working : List Ref} {before session : Session} {other : String} {key : Int}
    {stored : String → Json}
    (hkept : Kept methods label column working before session)
    (hagrees : other = label → ∀ columns, before.rows label key = some columns →
      stored column = columns column) :
    Kept methods label column working before (session.setRow other key stored) := by
  refine ⟨?_, hkept.instances, hkept.saved⟩
  intro number columns hrow
  by_cases heq : label = other ∧ number = key
  · obtain ⟨rfl, rfl⟩ := heq
    exact ⟨stored, Session.setRow_self .., hagrees rfl columns hrow⟩
  · rw [Session.setRow_ne _ _ heq]
    exact hkept.rows number columns hrow

theorem Keeps.fetch_bind {ref : Ref} {next : Instance → Save Second}
    (hnext : ∀ working before self, Triple
      (fun session => Kept methods label column working before session ∧
        session.instances ref = some self)
      (next self) (fun _ => Kept methods label column working before)
      (Kept methods label column working before)) :
    Keeps methods label column (Rest.fetch ref >>= next) := by
  intro working before
  refine Triple.through (fun self session =>
    Kept methods label column working before session ∧ session.instances ref = some self) ?_ ?_
  · intro session hkept
    cases hself : session.instances ref with
    | none => rw [fetch_of_none hself]; exact hkept
    | some self => rw [fetch_of_some hself]; exact ⟨hkept, hself⟩
  · exact fun self => hnext working before self

theorem store_keeps {working : List Ref} {before : Session} {ref : Ref} {self changed : Instance}
    (hharmless : Harmless label column ref self changed) :
    Triple (fun session => Kept methods label column working before session ∧
        session.instances ref = some self) (store ref changed)
      (fun _ => Kept methods label column working before) (Kept methods label column working before) := by
  refine Triple.change fun session hstate => hstate.1.setInstance ?_ ?_
  · intro hlabel key columns hkey hrow
    obtain ⟨hpk, hcolumn⟩ := hharmless hlabel
    rw [hcolumn]
    rw [Instance.rowKey, hpk] at hkey
    exact hstate.1.instances ref self hstate.2 hlabel key columns hkey hrow
  · intro hmem hlabel
    obtain ⟨found, hfound, hpk⟩ := hstate.1.saved ref hmem hlabel
    rw [hstate.2, Option.some.injEq] at hfound
    rw [(hharmless hlabel).1, hfound]
    exact hpk

theorem Keeps.rewrite {ref : Ref} {next : Instance → Instance}
    (hharmless : ∀ self, Harmless label column ref self (next self)) :
    Keeps methods label column (Rest.fetch ref >>= fun self => store ref (next self)) :=
  Keeps.fetch_bind fun _ _ self => store_keeps (hharmless self)

end

/-! ### What a save does to an instance -/

variable {label column : String} {ref : Ref} {self : Instance}

/-- An assignment to the field changes neither the key nor the column. -/
def Spares (label column : String) (ref : Ref) (field : FieldDecl) : Prop :=
  ref.label = label → field.hasColumn = true → field.primaryKey = false ∧ field.attname ≠ column

theorem Harmless.setFieldChange {key : String} {old new : Json} :
    Harmless label column ref self (self.setFieldChange key old new) := by
  intro _
  unfold Instance.setFieldChange
  split <;> exact ⟨rfl, rfl⟩

theorem Harmless.set {field : FieldDecl} {value : Json} (hspares : Spares label column ref field)
    (hcolumn : field.hasColumn = true) : Harmless label column ref self (self.set field value) := by
  intro hlabel
  obtain ⟨hkey, hother⟩ := hspares hlabel hcolumn
  rw [Instance.set, hkey, if_neg (by decide)]
  exact ⟨rfl, Function.update_of_ne hother.symm _ _⟩

theorem Harmless.trans {middle last : Instance} (hfirst : Harmless label column ref self middle)
    (hsecond : Harmless label column ref middle last) : Harmless label column ref self last := by
  intro hlabel
  obtain ⟨hpk, hcolumn⟩ := hfirst hlabel
  obtain ⟨hlastPk, hlastColumn⟩ := hsecond hlabel
  exact ⟨hlastPk.trans hpk, hlastColumn.trans hcolumn⟩

variable {methods : Methods}

theorem assign_keeps {field : FieldDecl} {target : Option Ref}
    (hfar : Keeps methods label column (methods.assignFar ref field target))
    (hspares : Spares label column ref field) :
    Keeps methods label column (assign methods ref field target) := by
  unfold assign
  split
  next hcolumn => exact Keeps.keyOf.bind fun _ => Keeps.rewrite fun _ => Harmless.set hspares hcolumn
  next => exact hfar

theorem recordRelated_keeps {field : FieldDecl} {target : Option Ref} :
    Keeps methods label column (recordRelated ref field target) :=
  Keeps.keyOf.bind fun _ => Keeps.rewrite fun _ => Harmless.setFieldChange

theorem Instance.stamp_column {model : Model} {now : Json}
    (hstamps : ∀ field ∈ model.fields, field.attname = column → field.autoNow = false) :
    (self.stamp model now).columns column = self.columns column := by
  have hnone : (model.fields.any fun field => field.autoNow && field.attname = column) = false := by
    rw [List.any_eq_false]
    intro field hfield htrue
    rw [Bool.and_eq_true, decide_eq_true_eq] at htrue
    rw [hstamps field hfield htrue.2] at htrue
    exact absurd htrue.1 (by decide)
  simp only [stamp, hnone, Bool.false_eq_true, if_false]

theorem takeFreshKey_free {working : List Ref} {before : Session} :
    Triple (Kept methods label column working before) (takeFreshKey methods ref.label)
      (fun key session => Kept methods label column working before session ∧
        (ref.label = label → before.rows label key = none)) (Kept methods label column working before) := by
  intro session hkept
  unfold takeFreshKey
  cases hfresh : methods.freshKey session ref.label with
  | error => exact hkept
  | ok key =>
    refine ⟨hkept, fun hlabel => ?_⟩
    cases hrow : before.rows label key with
    | none => rfl
    | some columns =>
      obtain ⟨_, hafter, _⟩ := hkept.rows key columns hrow
      rw [← hlabel, methods.freshKey_free hfresh] at hafter
      cases hafter

/-- A row that is there keeps the column, since its instance has it; a new row takes a key
that no row had. -/
theorem save_keeps {schema : Schema} (hstamps : ref.label = label → ∀ field ∈ (schema label).fields,
      field.attname = column → field.autoNow = false) :
    Keeps methods label column (save schema methods ref) := by
  refine Keeps.fetch_bind fun working before self => ?_
  refine Triple.through (fun _ session =>
    Kept methods label column working before session ∧ session.instances ref = some self)
    (Triple.read fun _ hstate => hstate) fun refused => ?_
  split
  next => exact Triple.fail fun _ hstate => hstate.1
  next =>
    split
    next =>
      refine Triple.bind (takeFreshKey_free.weaken (fun _ hstate => hstate.1) (fun _ _ h => h)
        fun _ h => h) fun key => Triple.given fun hfree => ?_
      refine Triple.through (fun _ => Kept methods label column working before)
        (Triple.change fun session hkept => hkept.setInstance ?_ fun _ _ => nofun) fun _ =>
        Triple.change fun session hkept => hkept.setRow ?_
      · intro hlabel number columns hkey hrow
        rw [Instance.rowKey_int, Option.some.injEq] at hkey
        rw [← hkey, hfree hlabel] at hrow
        cases hrow
      · intro hlabel columns hrow
        rw [hfree hlabel] at hrow
        cases hrow
    next hnull =>
      have hharmless : Harmless label column ref self (self.stamp (schema ref.label) methods.now) :=
        fun hlabel => ⟨rfl, Instance.stamp_column (hlabel ▸ hstamps hlabel)⟩
      refine Triple.through (fun key session => (Kept methods label column working before session ∧
        session.instances ref = some self) ∧ methods.keyNumber self.pk = .ok key)
        (Triple.lift (fun key hkey _ hstate => ⟨hstate, hkey⟩) fun _ _ _ hstate => hstate.1)
        fun key => Triple.given fun hkey => ?_
      refine Triple.through (fun _ session => Kept methods label column working before session ∧
        ∀ columns, ref.label = label → before.rows label key = some columns →
          (self.stamp (schema ref.label) methods.now).columns column = columns column) ?_ fun _ =>
        Triple.change fun session hstate => hstate.1.setRow fun hlabel columns =>
          hstate.2 columns hlabel
      intro session hstate
      refine ⟨store_keeps hharmless session hstate, fun columns hlabel hrow => ?_⟩
      rw [(hharmless hlabel).2]
      exact hstate.1.instances ref self hstate.2 hlabel key columns
        (Instance.rowKey_of_ok hnull hkey) hrow

end DjangoMojo.Rest
