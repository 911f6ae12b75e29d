import DjangoMojo.Jobs.Attempts
import DjangoMojo.Jobs.RowWrites

/-! # The bound on executions

Each handler start is paid for by one increment of the attempt column, and a
row can be claimed only while it is pending. The handler of a job is started at
most `1 + max_retries` times as long as no row becomes pending with an attempt
number above its limit.
-/

namespace DjangoMojo.Jobs

open Foundation

/-- The row a step makes pending, as it is before the step, unless the step is
the resume of a row that was never claimed. -/
def Task.reopens (env : Env) (store : Store) : Task → Option Job
  | .publish (.insert id request _) =>
    if env.fault.raised || !store.accepts id request.job then none else some request.job
  | .deliver delivery (.retrySave _ _) =>
    if env.fault.raised || env.raises then none else store.jobs.get delivery.id
  | .reap _ (.reset lease) =>
    if env.fault.raised then none
    else (store.jobs.get lease.id).filter fun row => row.status = .running
  | _ => none

/-- A step that makes a row pending finds its attempt number within the limit. -/
def reopensWithinLimit (system : System) : Action → Bool
  | .advance index env =>
    match system.threads[index]? with
    | some thread =>
      (thread.task.reopens env system.store).all fun row => (row.attempt : Int) ≤ row.maxRetries
    | none => true
  | _ => true

/-- Every job's handler was started at most `1 + max_retries` times. -/
def StartsBounded (system : System) : Prop :=
  ∀ id row, system.store.jobs.get id = some row →
    ((starts system.log id).length : Int) ≤ 1 + row.maxRetries

/-- The bound on a row's attempt number, one lower while it can be claimed. -/
structure Job.InBudget (row : Job) : Prop where
  limit_nonneg : 0 ≤ row.maxRetries
  attempt_le : (row.attempt : Int) ≤ 1 + row.maxRetries
  pending_le : row.status = .pending → (row.attempt : Int) ≤ row.maxRetries

/-- The deliveries that have claimed a job and not started its handler. -/
def System.awaiting (system : System) (id : JobId) : Nat :=
  system.threads.countP fun thread => thread.task.awaiting = some id

/-- Starts and waiting claims are covered by the attempt column, and every row
is within its budget. -/
structure Budgeted (system : System) : Prop where
  covered : ∀ id, (starts system.log id).length + system.awaiting id ≤ system.store.attempt id
  inBudget : ∀ id row, system.store.jobs.get id = some row → row.InBudget

namespace Budgeted

theorem empty : Budgeted System.empty :=
  ⟨by simp [System.empty, starts, System.awaiting], by simp [System.empty, Store.empty]⟩

theorem startsBounded {system : System} (hbudgeted : Budgeted system) :
    StartsBounded system := by
  intro id row hrow
  have hcovered := hbudgeted.covered id
  have hattempt := (hbudgeted.inBudget id row hrow).attempt_le
  have hcolumn : system.store.attempt id = row.attempt := by simp [Store.attempt, hrow]
  omega

end Budgeted

namespace System

theorem awaiting_spawn (system : System) (owner : Owner) {task : Task}
    (hawaits : task.awaiting = none) (id : JobId) :
    (system.spawn owner task).awaiting id = system.awaiting id := by
  simp [awaiting, spawn, List.countP_append, hawaits]

theorem awaiting_crashed_le (system : System) (owner : Owner) (id : JobId) :
    (system.crashed owner).awaiting id ≤ system.awaiting id := by
  rw [awaiting, crashed, List.countP_map]
  refine List.countP_mono_left fun thread _ hthread => ?_
  simp only [Function.comp_apply, decide_eq_true_eq] at hthread ⊢
  split at hthread
  next => cases hthread
  next => exact hthread

theorem awaiting_moved (system : System) {index : Nat} {owner : Owner} {task : Task}
    (fault : Fault) (move : Move Task)
    (hthread : system.threads[index]? = some ⟨owner, task⟩) (id : JobId) :
    (system.moved index owner fault move).awaiting id + (if task.awaiting = some id then 1 else 0) =
      system.awaiting id + (if move.next.awaiting = some id then 1 else 0) := by
  obtain ⟨hlt, hget⟩ := List.getElem?_eq_some_iff.mp hthread
  have hle : (if task.awaiting = some id then 1 else 0) ≤ system.awaiting id := by
    split
    next hawaits =>
      refine List.countP_pos_iff.mpr ⟨⟨owner, task⟩, List.mem_of_getElem? hthread, ?_⟩
      simpa using hawaits
    next => exact Nat.zero_le _
  rw [awaiting] at hle
  rw [awaiting, awaiting, moved, List.countP_set hlt, hget]
  simp only [decide_eq_true_eq]
  omega

end System

namespace Job.InBudget

variable {row : Job}

theorem claimRow (hrow : row.InBudget) (startedAt : Time) (runner : String) :
    (Command.claimRow startedAt runner row).InBudget := by
  rw [Command.claimRow]
  split
  next hpending =>
    have hle := hrow.pending_le hpending
    refine ⟨hrow.limit_nonneg, ?_, fun hrunning => by cases hrunning⟩
    push_cast
    omega
  next => exact hrow

theorem resetRow (hrow : row.InBudget)
    (hle : row.status = .running → (row.attempt : Int) ≤ row.maxRetries) :
    (Command.resetRow row).InBudget := by
  rw [Command.resetRow]
  split
  next hrunning => exact ⟨hrow.limit_nonneg, hrow.attempt_le, fun _ => hle hrunning⟩
  next => exact hrow

theorem apply (hrow : row.InBudget) {write : Write}
    (hle : write.status? = some .pending → (row.attempt : Int) ≤ row.maxRetries)
    (hstatus : write.status?.isSome) : (write.apply row).InBudget := by
  obtain ⟨status, hwrite⟩ := Option.isSome_iff_exists.mp hstatus
  refine ⟨by simpa using hrow.limit_nonneg, by simpa using hrow.attempt_le, ?_⟩
  intro hpending
  rw [Write.apply_status, hwrite, Option.getD_some] at hpending
  simpa using hle (hpending ▸ hwrite)

end Job.InBudget

namespace Budgeted

variable {system : System}

theorem inBudget_moved (hbudgeted : Budgeted system) {env : Env} {task : Task} {move : Move Task}
    (hmove : task.move system.now env system.store = some move)
    (hwithin : (task.reopens env system.store).all fun row =>
      (row.attempt : Int) ≤ row.maxRetries) {id : JobId} {after : Job}
    (hafter : (system.store.perform env.fault move.command).jobs.get id = some after) :
    after.InBudget := by
  rw [Store.get_perform] at hafter
  split at hafter
  case isFalse => exact hbudgeted.inBudget id after hafter
  next hlands =>
  cases RowMove.of_move hmove with
  | keeps _ _ hkeeps =>
    obtain ⟨change, honRow, hchange⟩ := Command.onRow_keepsStatus hkeeps id
      (system.store.jobs.get id)
    rw [honRow] at hafter
    obtain ⟨row, hrow, rfl⟩ := Option.map_eq_some_iff.mp hafter
    obtain ⟨hstatus, hattempt, hlimit, _⟩ := hchange row
    have hbudget := hbudgeted.inBudget id row hrow
    constructor
    · rw [hlimit]
      exact hbudget.limit_nonneg
    · rw [hlimit, hattempt]
      exact hbudget.attempt_le
    · rw [hlimit, hattempt, hstatus]
      exact hbudget.pending_le
  | inserts new request asked hfault haccepts =>
    simp only [Task.reopens, hfault, Fault.raised, haccepts] at hwithin
    rw [Command.onRow] at hafter
    split at hafter
    next heq =>
      cases hold : system.store.jobs.get id with
      | some row =>
        rw [hold] at hafter
        cases hafter
        exact hbudgeted.inBudget id row hold
      | none =>
        rw [hold] at hafter
        cases hafter
        have hle : (0 : Int) ≤ request.maxRetries := by
          simpa [Request.job] using hwithin
        exact ⟨hle, by simp [Request.job]; omega, fun _ => by simpa [Request.job]⟩
    next => exact hbudgeted.inBudget id after hafter
  | resumes key other existing hfault hget hresume =>
    rw [Command.onRow] at hafter
    split at hafter
    next heq =>
      subst heq
      rw [Store.get_of_getByKey hget] at hafter
      cases hafter
      have hbudget := hbudgeted.inBudget id existing (Store.get_of_getByKey hget)
      have hzero : existing.attempt = 0 := by
        simp only [Job.canResume, Bool.and_eq_true, decide_eq_true_eq] at hresume
        exact hresume.1.2
      exact hbudget.apply (fun _ => by rw [hzero]; exact hbudget.limit_nonneg) rfl
    next => exact hbudgeted.inBudget id after hafter
  | claims delivery job events hfault =>
    rw [Command.onRow] at hafter
    split at hafter
    next =>
      obtain ⟨row, hrow, rfl⟩ := Option.map_eq_some_iff.mp hafter
      exact (hbudgeted.inBudget id row hrow).claimRow system.now delivery.runner
    next => exact hbudgeted.inBudget id after hafter
  | retries delivery job error hraises =>
    rw [Command.onRow] at hafter
    split at hafter
    next heq =>
      obtain ⟨row, hrow, rfl⟩ := Option.map_eq_some_iff.mp hafter
      have hraised : env.fault.raised = false := by
        cases hfault : env.fault <;> simp_all [Command.lands, Command.isDatabase, Fault.raised]
      have hle : (row.attempt : Int) ≤ row.maxRetries := by
        simpa [Task.reopens, hraised, hraises, ← heq, hrow] using hwithin
      exact (hbudgeted.inBudget id row hrow).apply (fun _ => hle) rfl
    next => exact hbudgeted.inBudget id after hafter
  | resets cutoff lease hfault =>
    rw [Command.onRow] at hafter
    split at hafter
    next heq =>
      obtain ⟨row, hrow, rfl⟩ := Option.map_eq_some_iff.mp hafter
      refine (hbudgeted.inBudget id row hrow).resetRow fun hrunning => ?_
      simpa [Task.reopens, hfault, Fault.raised, ← heq, hrow, hrunning] using hwithin
    next => exact hbudgeted.inBudget id after hafter
  | finishes _ other status next write htask hwrite hterminal =>
    rw [Command.onRow] at hafter
    split at hafter
    next =>
      obtain ⟨row, hrow, rfl⟩ := Option.map_eq_some_iff.mp hafter
      refine (hbudgeted.inBudget id row hrow).apply (fun hpending => ?_) (by simp [hwrite])
      rw [hwrite] at hpending
      cases hpending
      cases hterminal
    next => exact hbudgeted.inBudget id after hafter

theorem covered_moved (hbudgeted : Budgeted system) {index : Nat} {env : Env} {owner : Owner}
    {task : Task} {move : Move Task} (hthread : system.threads[index]? = some ⟨owner, task⟩)
    (hmove : task.move system.now env system.store = some move) (id : JobId) :
    (starts (system.moved index owner env.fault move).log id).length +
        (system.moved index owner env.fault move).awaiting id ≤
      (system.moved index owner env.fault move).store.attempt id := by
  have hcovered := hbudgeted.covered id
  have hawaiting := system.awaiting_moved env.fault move hthread id
  change (starts (move.events.map (index, ·) ++ system.log) id).length + _ ≤
    (system.store.perform env.fault move.command).attempt id
  cases AttemptMove.of_move hmove with
  | quiet _ _ hnext hevents hcommand =>
    rw [starts_append_quiet hevents, Store.attempt_perform _ _ hcommand]
    simp only [hnext, reduceCtorEq, if_false] at hawaiting
    omega
  | claims delivery job row hrow hpending hfault =>
    rw [hfault, Store.attempt_claim system.now delivery.runner hrow hpending id]
    rw [hfault] at hawaiting
    change (starts system.log id).length + _ ≤ _
    by_cases heq : id = delivery.id
    · simp only [Task.awaiting, DeliverPc.awaits, heq] at hawaiting hcovered ⊢
      simp only [Bool.false_eq_true, if_false, reduceCtorEq, if_true] at hawaiting ⊢
      omega
    · simp only [Task.awaiting, DeliverPc.awaits, Bool.false_eq_true, if_false, reduceCtorEq,
        if_true, Option.some.injEq, Ne.symm heq, heq] at hawaiting ⊢
      omega
  | refreshes delivery job row hrow =>
    rw [Store.attempt_perform _ _ rfl]
    change (starts system.log id).length + _ ≤ _
    simp only [Task.awaiting, DeliverPc.awaits] at hawaiting
    omega
  | starts delivery job hraises =>
    rw [Store.attempt_perform _ _ rfl]
    change (starts ((index, .started delivery.id job.attempt) :: system.log) id).length + _ ≤ _
    rw [starts_started]
    simp only [Task.awaiting, DeliverPc.awaits, if_true, Option.some.injEq,
      Bool.false_eq_true, if_false, reduceCtorEq] at hawaiting
    by_cases heq : delivery.id = id
    · simp only [heq, if_true, List.length_cons] at hawaiting ⊢
      omega
    · simp only [heq, if_false] at hawaiting ⊢
      omega

theorem popped (hbudgeted : Budgeted system) (fault : Fault) (channel : Channel) :
    Budgeted (system.popped fault channel) := by
  refine ⟨fun id => ?_, fun id row hrow => ?_⟩
  · change _ ≤ (system.store.perform fault (.brpop channel)).attempt id
    rw [Store.attempt_perform _ _ rfl]
    exact hbudgeted.covered id
  · change (system.store.perform fault (.brpop channel)).jobs.get id = some row at hrow
    rw [Store.get_perform] at hrow
    exact hbudgeted.inBudget id row (by split at hrow <;> exact hrow)

theorem spawned (hbudgeted : Budgeted system) (owner : Owner) {task : Task}
    (hawaits : task.awaiting = none) : Budgeted (system.spawn owner task) := by
  refine ⟨fun id => ?_, hbudgeted.inBudget⟩
  rw [system.awaiting_spawn owner hawaits]
  exact hbudgeted.covered id

theorem step {action : Action} {next : System} (hbudgeted : Budgeted system)
    (hwithin : reopensWithinLimit system action = true)
    (hstep : system.step action = some next) : Budgeted next := by
  cases System.step_cases hstep with
  | tick elapsed => exact ⟨hbudgeted.covered, hbudgeted.inBudget⟩
  | opened _ owner task hopens => exact hbudgeted.spawned owner (System.opens_awaiting hopens)
  | lostPop _ _ fault channel => exact hbudgeted.popped fault channel
  | claimed owner _ fault channel => exact (hbudgeted.popped fault channel).spawned owner rfl
  | crashed owner =>
    refine ⟨fun id => ?_, hbudgeted.inBudget⟩
    have hle := system.awaiting_crashed_le owner id
    have hcovered := hbudgeted.covered id
    exact le_trans (Nat.add_le_add_left hle _) hcovered
  | moved index env owner task move hthread hmove =>
    simp only [reopensWithinLimit, hthread] at hwithin
    exact ⟨hbudgeted.covered_moved hthread hmove,
      fun _ _ hafter => hbudgeted.inBudget_moved hmove hwithin hafter⟩

end Budgeted

/-- No handler is started more than `1 + max_retries` times in a run in which
every row that becomes pending has an attempt number within its limit. -/
theorem startsBounded_of_reopensWithinLimit (actions : List Action)
    (hwithin : EachStep System.step (fun system action _ => reopensWithinLimit system action)
      System.empty actions) :
    Always System.step StartsBounded System.empty actions :=
  Always.imp (fun _ hbudgeted => hbudgeted.startsBounded)
    (always_of_eachStep (fun _ _ _ hbudgeted hwithin hstep => hbudgeted.step hwithin hstep)
      Budgeted.empty hwithin)

theorem startsBounded_reclaimed :
    Always System.step StartsBounded System.empty (reclaimed ++ steps 3 2) :=
  startsBounded_of_reopensWithinLimit _ (by decide)

/-- The engine dies while it runs the job, and three reaper passes load the
row at attempt 1 before the first of them resets it. Each then returns the job
to the queue whatever became of it in between. -/
def overlappingPasses : List Action :=
  [.publish "api" 1 retriedTwice] ++ steps 0 2 ++
  [.claim "a-engine" ["default"] .none] ++ steps 1 5 ++
  [.crash "a-engine", .tick 31000000] ++
  [.reap "b-engine" ["default"]] ++ steps 2 3 ++ [.tick 2100000] ++
  [.reap "c-engine" ["default"]] ++ steps 3 3 ++ [.tick 2100000] ++
  [.reap "d-engine" ["default"]] ++ steps 4 3 ++
  steps 2 3 ++ [.claim "e-engine" ["default"] .none] ++ steps 5 5 ++
  steps 3 3 ++ [.claim "e-engine" ["default"] .none] ++ steps 6 5 ++
  steps 4 3 ++ [.claim "e-engine" ["default"] .none] ++ steps 7 5

/-- Four starts of a job that may be started three times. -/
theorem not_startsBounded_overlappingPasses :
    ¬ Always System.step StartsBounded System.empty overlappingPasses :=
  not_always_of_run
    (fun system => (system.store.jobs.get 1).all fun row =>
      ((starts system.log 1).length : Int) ≤ 1 + row.maxRetries)
    (fun system hbounded => by simpa [Option.all_eq_true] using hbounded 1) (by decide)

end DjangoMojo.Jobs
