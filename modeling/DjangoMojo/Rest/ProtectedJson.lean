import DjangoMojo.Rest.OpenFields

/-! # The protected subtree of a JSON column

A JSON column is written in three ways: an object is merged into the stored one or
replaces it, and anything else overwrites the column. A caller who may not touch the
root key `protected` leaves it as it was on each of them, and so over a whole sequence
of writes, in which the column may stop being an object and become one again.
-/

namespace DjangoMojo.Rest

open Foundation

/-- The value under the root key; a column that is no object has none. -/
def protectedOf : Json → Option Json
  | .obj fields => JsonFields.field fields "protected"
  | _ => none

theorem holdsProtected_eq (value : Json) : holdsProtected value = (protectedOf value).isSome := by
  cases value <;> rfl

theorem protectedOf_orEmpty (value : Json) : protectedOf (orEmpty value) = protectedOf value := by
  unfold orEmpty
  split
  next => rfl
  next hfalse =>
    cases value with
    | obj fields =>
      cases fields with
      | nil => rfl
      | cons field rest => exact absurd rfl hfalse
    | null | bool _ | int _ | float _ | str _ | arr _ => rfl

/-- `merge_dicts` keeps the keys that the update does not name. -/
def MergesDicts (methods : Methods) : Prop :=
  ∀ (present incoming : JsonFields) (key : String), incoming.field key = none →
    (methods.mergeDicts present incoming).field key = present.field key

/-- A write of a JSON column: who calls, for which model, and with what. -/
structure JsonWrite where
  methods : Methods
  model : Model
  value : Json
  /-- `_can_edit_protected_json` is false for the caller. -/
  barred : methods.canEditProtectedJson model.protectedJsonPerms = false
  merges : MergesDicts methods

variable (ref : Ref) (field : FieldDecl)

/-- What the session is after the write, whether it returned or raised. -/
def JsonWrite.after (write : JsonWrite) (session : Session) : Session :=
  (updateJsonField write.methods write.model ref field write.value session).2

theorem Instance.value_set (self : Instance) (value : Json) :
    (self.set field value).value field = value := by
  unfold Instance.set Instance.value
  split
  next hprimary => rfl
  next hplain => exact Function.update_self ..

/-- What a write may leave: everything as it was, or a column with the same subtree. -/
def KeepsSubtree (session : Session) (self : Instance) (after : Session) : Prop :=
  after = session ∨ ∃ value, after = session.setInstance ref (self.set field value) ∧
    protectedOf value = protectedOf (self.value field)

theorem keepsSubtree_overwrite {session : Session} {self : Instance} {parsed existing : Json}
    {denied : RestError} (hexisting : protectedOf existing = protectedOf (self.value field)) :
    KeepsSubtree ref field session self
      ((if (holdsProtected existing || holdsProtected parsed) = true then Effect.fail denied
        else store ref (self.set field parsed) : Save Unit) session).2 := by
  split
  next => exact .inl rfl
  next hallowed =>
    rw [Bool.or_eq_true, not_or, holdsProtected_eq, holdsProtected_eq] at hallowed
    simp only [Bool.not_eq_true, Option.isSome_eq_false_iff, Option.isNone_iff_eq_none,
      hexisting] at hallowed
    exact .inr ⟨_, rfl, hallowed.2.trans hallowed.1.symm⟩

/-- An object that is sent for an object: it does not name the subtree, and it replaces
only an object without one. -/
theorem keepsSubtree_object (write : JsonWrite) {session : Session} {self : Instance}
    {incoming present : JsonFields} {denied : RestError}
    (hpresent : present.field "protected" = protectedOf (self.value field)) :
    KeepsSubtree ref field session self
      ((if (holdsProtected (.obj (sentFields write.model field incoming)) ||
            replaces write.model field incoming && holdsProtected (.obj present)) = true then
          Effect.fail denied
        else store ref (self.set field (.obj (if replaces write.model field incoming then
            sentFields write.model field incoming
          else write.methods.mergeDicts present (sentFields write.model field incoming)))) :
          Save Unit) session).2 := by
  split
  next => exact .inl rfl
  next hallowed =>
    rw [Bool.or_eq_true, not_or, Bool.and_eq_true, not_and] at hallowed
    obtain ⟨hsent, hreplaced⟩ := hallowed
    have hnone : (sentFields write.model field incoming).field "protected" = none := by
      simpa [holdsProtected] using hsent
    refine .inr ⟨_, rfl, ?_⟩
    rw [← hpresent]
    split
    next hreplaces =>
      have habsent := hreplaced hreplaces
      rw [holdsProtected_eq, Bool.not_eq_true, Option.isSome_eq_false_iff,
        Option.isNone_iff_eq_none] at habsent
      exact hnone.trans habsent.symm
    next => exact write.merges present _ "protected" hnone

theorem JsonWrite.keepsSubtree (write : JsonWrite) {session : Session} {self : Instance}
    (hself : session.instances ref = some self) :
    KeepsSubtree ref field session self (write.after ref field session) := by
  have hstored := protectedOf_orEmpty (self.value field)
  unfold JsonWrite.after updateJsonField
  rw [Effect.bind_of_ok (fetch_of_some hself)]
  simp only [write.barred, Bool.not_false, Bool.and_true]
  generalize orEmpty (self.value field) = existing at hstored
  generalize parsedJson write.methods write.value = parsed
  cases existing with
  | obj present =>
    cases parsed with
    | obj incoming => exact keepsSubtree_object ref field write hstored
    | null | bool _ | int _ | float _ | str _ | arr _ =>
      exact keepsSubtree_overwrite ref field hstored
  | null | bool _ | int _ | float _ | str _ | arr _ =>
    cases parsed <;> exact keepsSubtree_overwrite ref field hstored

/-- The session after a sequence of writes, each of which may have raised. -/
def afterWrites (writes : List JsonWrite) (session : Session) : Session :=
  writes.foldl (fun current write => write.after ref field current) session

/-- No sequence of writes without permission changes the protected subtree. -/
theorem afterWrites_protected (writes : List JsonWrite) {session : Session} {self : Instance}
    (hself : session.instances ref = some self) :
    ∃ last, (afterWrites ref field writes session).instances ref = some last ∧
      protectedOf (last.value field) = protectedOf (self.value field) := by
  induction writes generalizing session self with
  | nil => exact ⟨self, hself, rfl⟩
  | cons write rest ih =>
    rw [afterWrites, List.foldl_cons]
    rcases write.keepsSubtree ref field hself with hsame | ⟨value, hstored, hprotected⟩
    · rw [hsame]
      exact ih hself
    · rw [hstored]
      obtain ⟨last, hlast, hkept⟩ := ih (session.setInstance_self ref (self.set field value))
      refine ⟨last, hlast, ?_⟩
      rw [hkept, self.value_set, hprotected]

/-! ### Two writes of one column -/

/-- The methods of a caller without permission; the two objects share no key. -/
def barredMethods : Methods :=
  { plainMethods none with
    canEditProtectedJson _ := false
    mergeDicts present incoming := incoming ++ present }

theorem barredMethods_merges : MergesDicts barredMethods := by
  intro present incoming key hnone
  have habsent : List.lookup key incoming = none := hnone
  change (incoming ++ present).lookup key = present.lookup key
  rw [List.lookup_append, habsent, Option.none_or]

def barredWrite (value : Json) : JsonWrite where
  methods := barredMethods
  model := { fields := [] }
  value := value
  barred := rfl
  merges := barredMethods_merges

def metadataField : FieldDecl where
  name := "metadata"
  kind := .json

def tierRow : Instance where
  pk := .int 1
  columns _ := .obj [("protected", .obj [("tier", .int 1)])]

def tierSession : Session := twoRows.setInstance ⟨"User", 1⟩ tierRow

/-- The first write merges another key, the second one is refused. -/
theorem tierSession_protected : ∃ last,
    (afterWrites ⟨"User", 1⟩ metadataField
      [barredWrite (.obj [("theme", .str "dark")]), barredWrite (.arr [])]
      tierSession).instances ⟨"User", 1⟩ = some last ∧
    protectedOf (last.value metadataField) = protectedOf (tierRow.value metadataField) :=
  afterWrites_protected _ _ _ (twoRows.setInstance_self _ _)

end DjangoMojo.Rest
