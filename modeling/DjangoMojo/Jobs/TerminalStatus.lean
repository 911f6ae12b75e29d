import DjangoMojo.Jobs.RowWrites

/-! # Terminal statuses

Inserts, claims and resets leave a finished row alone, because the database
checks the status as part of the statement. A save of an instance loaded
earlier does not, so a finished row keeps its status exactly when no such save
finds it finished with another status.
-/

namespace DjangoMojo.Jobs

open Foundation

/-- The row whose status a step saves without the database checking the old
one, and the status it saves. -/
def Task.overwrites (env : Env) (task : Task) : Option (JobId × Status) :=
  if env.fault.raised then none
  else
    match task with
    | .deliver delivery (.retrySave _ _) =>
      if env.raises then none else some (delivery.id, .pending)
    | task => task.finishes

theorem Task.overwrites_finishes {env : Env} {task : Task} {id : JobId} {status : Status}
    (htask : task.finishes = some (id, status)) :
    task.overwrites env = if env.fault.raised then none else some (id, status) := by
  unfold overwrites
  split
  · rfl
  · split
    · cases htask
    · exact htask

theorem Task.keepsStatus_of_overwrites {now : Time} {env : Env} {store : Store} {task : Task}
    {move : Move Task} (hmove : task.move now env store = some move)
    (hoverwrites : task.overwrites env ≠ none) : move.command.keepsStatus = false := by
  unfold overwrites at hoverwrites
  split at hoverwrites
  · exact absurd rfl hoverwrites
  split at hoverwrites
  next =>
    split at hoverwrites
    · exact absurd rfl hoverwrites
    next hraises =>
      simp only [Task.move, DeliverPc.move, if_neg hraises, Option.map_some,
        Option.some.injEq] at hmove
      rw [← hmove]
      rfl
  next =>
    unfold finishes at hoverwrites
    split at hoverwrites <;> first | exact absurd rfl hoverwrites | (cases hmove; rfl)

/-- The row that a publisher resumes, under `select_for_update`. -/
def Task.resumes (store : Store) : Task → Option JobId
  | .publish (.relock key) => (store.getByKey key).map Prod.fst
  | _ => none

theorem Task.resumes_of_finishes {store : Store} {task : Task} {entry : JobId × Status}
    (htask : task.finishes = some entry) : task.resumes store = none := by
  unfold resumes
  split
  · cases htask
  · rfl

def resumedRow (system : System) : Action → Option JobId
  | .advance index _ =>
    (system.threads[index]?).bind fun thread => thread.task.resumes system.store
  | _ => none

/-- Rows with a terminal status keep it, the resumed row excepted. -/
def TerminalKept (system : System) (action : Action) (next : System) : Prop :=
  ∀ id row, system.store.jobs.get id = some row → row.isTerminal = true →
    resumedRow system action ≠ some id →
    (next.store.jobs.get id).map Job.status = some row.status

/-- A save finds its row open, or finished with the status it saves. -/
def savesOpenRow (system : System) : Action → Bool
  | .advance index env =>
    match system.threads[index]? with
    | some thread =>
      (thread.task.overwrites env).all fun (id, status) =>
        (system.store.jobs.get id).all fun row => !row.isTerminal || row.status = status
    | none => true
  | _ => true

namespace TerminalKept

variable {system : System}

theorem of_jobs {action : Action} {next : System}
    (hjobs : next.store.jobs = system.store.jobs) : TerminalKept system action next := by
  intro id row hrow _ _
  rw [hjobs, hrow]
  rfl

theorem status_claimRow {row : Job} (hterminal : row.isTerminal = true) (startedAt : Time)
    (runner : String) : (Command.claimRow startedAt runner row).status = row.status := by
  rw [Command.claimRow]
  split
  next hpending =>
    rw [Job.isTerminal, hpending] at hterminal
    cases hterminal
  next => rfl

theorem status_resetRow {row : Job} (hterminal : row.isTerminal = true) :
    (Command.resetRow row).status = row.status := by
  rw [Command.resetRow]
  split
  next hrunning =>
    rw [Job.isTerminal, hrunning] at hterminal
    cases hterminal
  next => rfl

/-- A save keeps the status of every finished row exactly when it finds its own
row open or finished with the status it saves. -/
theorem save_iff {index : Nat} {env : Env} {owner : Owner} {task next : Task} {id : JobId}
    {write : Write} {status : Status}
    (hthread : system.threads[index]? = some ⟨owner, task⟩)
    (hwrite : write.status? = some status) (hresumes : task.resumes system.store = none)
    (hoverwrites : task.overwrites env = if env.fault.raised then none else some (id, status)) :
    TerminalKept system (.advance index env)
        (system.moved index owner env.fault ⟨next, .save id write, []⟩) ↔
      savesOpenRow system (.advance index env) = true := by
  have hafter := system.store.status_save env.fault id hwrite
  simp only [TerminalKept, savesOpenRow, resumedRow, hthread, hoverwrites, Option.bind_some,
    hresumes]
  change (∀ other row, _ → _ → _ →
    ((system.store.perform env.fault (.save id write)).jobs.get other).map Job.status = _) ↔ _
  cases hraised : env.fault.raised with
  | true =>
    simp only [hafter, hraised, if_true, Option.all_none, iff_true]
    intro other row hrow _ _
    simp [hrow]
  | false =>
    simp only [hafter, hraised, true_and, Bool.false_eq_true, if_false, Option.all_some,
      Option.all_eq_true, Bool.or_eq_true, Bool.not_eq_true', decide_eq_true_eq]
    constructor
    · intro hkept row hrow
      cases hterminal : row.isTerminal with
      | false => exact .inl rfl
      | true =>
        have hstatus := hkept id row hrow hterminal (by simp)
        rw [if_pos rfl, hrow] at hstatus
        exact .inr (Option.some.inj hstatus).symm
    · intro hopen other row hrow hterminal _
      by_cases heq : other = id
      · subst heq
        rw [if_pos rfl, hrow]
        obtain hfalse | hstatus := hopen row hrow
        · rw [hterminal] at hfalse
          cases hfalse
        · simp [hstatus]
      · rw [if_neg heq, hrow]
        rfl

theorem of_onRow {index : Nat} {env : Env} {owner : Owner} {move : Move Task}
    (honRow : ∀ id row, system.store.jobs.get id = some row → row.isTerminal = true →
      resumedRow system (.advance index env) ≠ some id →
      (move.command.onRow id (some row)).map Job.status = some row.status) :
    TerminalKept system (.advance index env) (system.moved index owner env.fault move) := by
  intro id row hrow hterminal hresumed
  change ((system.store.perform env.fault move.command).jobs.get id).map Job.status = _
  rw [Store.get_perform, hrow]
  split
  · exact honRow id row hrow hterminal hresumed
  · rfl

theorem savesOpenRow_of_none {index : Nat} {env : Env} {owner : Owner} {task : Task}
    (hthread : system.threads[index]? = some ⟨owner, task⟩)
    (hoverwrites : task.overwrites env = none) :
    savesOpenRow system (.advance index env) = true := by
  simp [savesOpenRow, hthread, hoverwrites]

/-- One step keeps the finished rows exactly when its save, if it has one,
finds an open row. -/
theorem step_iff {action : Action} {next : System} (hstep : system.step action = some next) :
    TerminalKept system action next ↔ savesOpenRow system action = true := by
  cases System.step_cases hstep with
  | tick elapsed => exact iff_of_true (of_jobs rfl) rfl
  | opened action owner task hopens =>
    refine iff_of_true (of_jobs rfl) ?_
    cases action <;> first | rfl | cases hopens
  | lostPop _ _ fault channel | claimed _ _ fault channel =>
    refine iff_of_true (of_jobs ?_) rfl
    cases fault <;> rfl
  | crashed owner => exact iff_of_true (of_jobs rfl) rfl
  | moved index env owner task move hthread hmove =>
    cases hcase : RowMove.of_move hmove with
    | finishes _ id status next write htask hwrite hterminal =>
      exact save_iff hthread hwrite (Task.resumes_of_finishes htask)
        (Task.overwrites_finishes htask)
    | retries delivery job error hraises =>
      have hoverwrites : (Task.deliver delivery (.retrySave job error)).overwrites env =
          if env.fault.raised then none else some (delivery.id, .pending) := by
        simp [Task.overwrites, hraises]
      exact save_iff hthread rfl rfl hoverwrites
    | keeps _ _ hkeeps =>
      refine iff_of_true (of_onRow ?_) (savesOpenRow_of_none hthread ?_)
      · intro id row hrow _ _
        obtain ⟨change, honRow, hchange⟩ := Command.onRow_keepsStatus hkeeps id (some row)
        rw [honRow, Option.map_some, Option.map_some, (hchange row).1]
      · by_contra hoverwrites
        rw [Task.keepsStatus_of_overwrites hmove hoverwrites] at hkeeps
        cases hkeeps
    | inserts id request asked hfault haccepts =>
      refine iff_of_true (of_onRow ?_) (savesOpenRow_of_none hthread ?_)
      · intro other row hrow _ _
        rw [Command.onRow]
        split <;> rfl
      · simp [Task.overwrites, hfault, Fault.raised, Task.finishes]
    | resumes key id existing hfault hget hresume =>
      refine iff_of_true (of_onRow ?_) (savesOpenRow_of_none hthread ?_)
      · intro other row hrow _ hresumed
        have hne : other ≠ id := by
          rintro rfl
          exact hresumed (by simp [resumedRow, hthread, Task.resumes, hget])
        rw [Command.onRow, if_neg hne]
        rfl
      · simp [Task.overwrites, hfault, Fault.raised, Task.finishes]
    | claims delivery job events hfault =>
      refine iff_of_true (of_onRow ?_) (savesOpenRow_of_none hthread ?_)
      · intro id row hrow hterminal _
        rw [Command.onRow]
        split
        · simp [status_claimRow hterminal]
        · rfl
      · simp [Task.overwrites, hfault, Fault.raised, Task.finishes]
    | resets cutoff lease hfault =>
      refine iff_of_true (of_onRow ?_) (savesOpenRow_of_none hthread ?_)
      · intro id row hrow hterminal _
        rw [Command.onRow]
        split
        · simp [status_resetRow hterminal]
        · rfl
      · simp [Task.overwrites, hfault, Fault.raised, Task.finishes]

end TerminalKept

/-- Finished rows keep their status along a run exactly when every save of the
run finds its row open, or finished with the status it saves. -/
theorem terminalKept_iff_savesOpenRow (actions : List Action) :
    EachStep System.step TerminalKept System.empty actions ↔
      EachStep System.step (fun system action _ => savesOpenRow system action)
        System.empty actions := by
  refine eachStep_congr (fun _ => True) ?_ trivial actions
  intro system action next _ hstep
  exact ⟨trivial, TerminalKept.step_iff hstep⟩

/-- The job completes, and recording the metric of its completion raises. The
failure handler takes the completed job for a failed attempt. -/
def failedMetric : List Action :=
  [.publish "api" 1 retriedTwice] ++ steps 0 2 ++
  [.claim "a-engine" ["default"] .none] ++ steps 1 8 ++
  [.advance 1 { raises := true }] ++ steps 1 2

/-- The completed job is pending again. -/
theorem not_terminalKept_failedMetric :
    ¬ EachStep System.step TerminalKept System.empty failedMetric := by
  let check (system : System) (action : Action) (next : System) : Bool :=
    (system.store.jobs.get 1).all fun row =>
      !row.isTerminal || resumedRow system action = some 1 ||
        (next.store.jobs.get 1).map Job.status = some row.status
  have hcheck (system : System) (action : Action) (next : System)
      (hkept : TerminalKept system action next) : check system action next = true := by
    simp only [check, Option.all_eq_true, Bool.or_eq_true, decide_eq_true_eq]
    intro row hrow
    cases hterminal : row.isTerminal with
    | false => exact .inl (.inl rfl)
    | true =>
      by_cases hresumed : resumedRow system action = some 1
      · exact .inl (.inr hresumed)
      · exact .inr (hkept 1 row hrow hterminal hresumed)
  have hfails : ¬ EachStep System.step (fun system action next => check system action next)
      System.empty failedMetric := by decide
  exact fun heach => hfails (heach.imp hcheck)

end DjangoMojo.Jobs
