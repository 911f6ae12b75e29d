import DjangoMojo.Foundation.Trace
import DjangoMojo.Jobs.ScheduledTask

/-! # The cap on a user's tasks

`save` gives a new task its key before it validates it, and validation takes a task with a
key for an existing one. The saves and deletions of tasks are followed one at a time.
-/

namespace DjangoMojo.Jobs

open Foundation

structure OwnedTask where
  user : Nat
  task : ScheduledTask

/-- What is asked of the table of tasks: a save of an instance whose key is `id`, with the
`uuid4` drawn should it have none, or a deletion. -/
inductive TaskOp where
  | save (id : Option JobId) (uuid : JobId) (owned : OwnedTask)
  | delete (id : JobId)

namespace TaskOp

abbrev Tasks := Table JobId OwnedTask

/-- `ScheduledTask.objects.filter(user=self.user).count()`. -/
def tasksOf (rows : Tasks) (user : Nat) : Nat := (rows.select fun _ row => row.user = user).length

def isNew (rows : Tasks) (id : Option JobId) : Bool := id.all fun key => (rows.get key).isNone

variable (tables : TextTables) (quoted : String → String) (settings : Settings) (maxPerUser : Int)

def saveTask (rows : Tasks) (id : Option JobId) (uuid : JobId) (owned : OwnedTask) :
    Except String Tasks :=
  let key := id.getD uuid
  match owned.task.validate tables quoted settings maxPerUser (some key)
      (tasksOf rows owned.user) with
  | .error error => .error error
  | .ok () => .ok (rows.put key owned)

def step (rows : Tasks) : TaskOp → Option Tasks
  | .save id uuid owned =>
    some (match saveTask tables quoted settings maxPerUser rows id uuid owned with
      | .ok next => next
      | .error _ => rows)
  | .delete id => some (rows.delete id)

/-- The checks that do not count tasks: those of a first task under a cap of one. -/
def isValid (owned : OwnedTask) : Bool :=
  (owned.task.validate tables quoted settings 1 none 0).isOk

/-- A new task of a user at the cap is refused and nothing is stored. An existing task is
refused for no other reason than its own fields. -/
def KeepsCap (rows : Tasks) (op : TaskOp) (next : Tasks) : Prop :=
  ∀ id uuid owned, op = .save id uuid owned →
    (isNew rows id = true → maxPerUser ≤ tasksOf rows owned.user →
      (∃ error, saveTask tables quoted settings maxPerUser rows id uuid owned = .error error) ∧
        next = rows) ∧
    (isNew rows id = false → isValid tables quoted settings owned = true →
      (saveTask tables quoted settings maxPerUser rows id uuid owned).isOk = true)

/-- A new task whose fields are valid is saved only below the cap. -/
def belowCap (rows : Tasks) : TaskOp → Bool
  | .save id _ owned =>
    !isNew rows id || tasksOf rows owned.user < maxPerUser ||
      !isValid tables quoted settings owned
  | .delete _ => true

variable {tables quoted settings maxPerUser}

theorem validate_some (owned : OwnedTask) (key : JobId) (existing : Nat) :
    owned.task.validate tables quoted settings maxPerUser (some key) existing =
      owned.task.validate tables quoted settings 1 none 0 := by
  simp [ScheduledTask.validate]

theorem saveTask_eq (rows : Tasks) (id : Option JobId) (uuid : JobId) (owned : OwnedTask) :
    saveTask tables quoted settings maxPerUser rows id uuid owned =
      match owned.task.validate tables quoted settings 1 none 0 with
      | .error error => .error error
      | .ok () => .ok (rows.put (id.getD uuid) owned) := by
  rw [saveTask, validate_some]

theorem saveTask_isOk (rows : Tasks) (id : Option JobId) (uuid : JobId) (owned : OwnedTask) :
    (saveTask tables quoted settings maxPerUser rows id uuid owned).isOk =
      isValid tables quoted settings owned := by
  rw [saveTask_eq, isValid]
  cases owned.task.validate tables quoted settings 1 none 0 <;> rfl

theorem keepsCap_iff {rows next : Tasks} {op : TaskOp}
    (hstep : step tables quoted settings maxPerUser rows op = some next) :
    KeepsCap tables quoted settings maxPerUser rows op next ↔
      belowCap tables quoted settings maxPerUser rows op = true := by
  cases op with
  | delete id => exact iff_of_true (by rintro _ _ _ ⟨⟩) rfl
  | save id uuid owned =>
    have hok : (saveTask tables quoted settings maxPerUser rows id uuid owned).isOk =
        isValid tables quoted settings owned := saveTask_isOk rows id uuid owned
    cases hstep
    simp only [belowCap, Bool.or_eq_true, Bool.not_eq_true', decide_eq_true_eq]
    constructor
    · intro hkeeps
      obtain ⟨hrefused, _⟩ := hkeeps id uuid owned rfl
      by_cases hnew : isNew rows id = true
      case neg => exact .inl (.inl (by simpa using hnew))
      by_cases hcap : (tasksOf rows owned.user : Int) < maxPerUser
      case pos => exact .inl (.inr hcap)
      obtain ⟨⟨error, herror⟩, _⟩ := hrefused hnew (not_lt.mp hcap)
      rw [herror] at hok
      exact .inr hok.symm
    · rintro hbelow _ _ _ ⟨⟩
      refine ⟨fun hnew hcap => ?_, fun _ hvalid => hok.trans hvalid⟩
      have hinvalid : isValid tables quoted settings owned = false := by
        obtain (hold | hlt) | hinvalid := hbelow
        · rw [hnew] at hold
          cases hold
        · exact absurd hlt (not_lt.mpr hcap)
        · exact hinvalid
      rw [hinvalid] at hok
      cases hsave : saveTask tables quoted settings maxPerUser rows id uuid owned with
      | ok next =>
        rw [hsave] at hok
        cases hok
      | error error => exact ⟨⟨error, rfl⟩, rfl⟩

/-- Over every sequence of saves and deletions the cap is kept exactly when no valid task is
added at it. -/
theorem keepsCap_iff_belowCap (tables : TextTables) (quoted : String → String)
    (settings : Settings) (maxPerUser : Int) (rows : Tasks) (ops : List TaskOp) :
    EachStep (step tables quoted settings maxPerUser)
        (KeepsCap tables quoted settings maxPerUser) rows ops ↔
      EachStep (step tables quoted settings maxPerUser)
        (fun rows op _ => belowCap tables quoted settings maxPerUser rows op) rows ops := by
  have heach (rows : Tasks) (op : TaskOp) (next : Tasks) (_ : True)
      (hstep : step tables quoted settings maxPerUser rows op = some next) :
      True ∧ (KeepsCap tables quoted settings maxPerUser rows op next ↔
        belowCap tables quoted settings maxPerUser rows op = true) :=
    ⟨trivial, keepsCap_iff hstep⟩
  exact eachStep_congr (fun _ => True) heach trivial ops

def morningTask : OwnedTask :=
  ⟨7, { timezone := none, taskType := "job", runTimes := ["09:30"], runDays := [] }⟩

/-- The user's second task is saved under a cap of one. -/
theorem not_keepsCap_secondTask :
    ¬ EachStep (step .ascii (fun text => text) {} 1) (KeepsCap .ascii (fun text => text) {} 1)
      Table.empty [.save none 1 morningTask, .save none 2 morningTask] := by
  intro hkeeps
  have hbelow := (keepsCap_iff rfl).mp ((hkeeps _ rfl).2 _ rfl).1
  exact absurd hbelow (by decide +kernel)

end TaskOp

end DjangoMojo.Jobs
