import DjangoMojo.Jobs.System

/-! # Who writes the status of a row

Rows are inserted, resumed and claimed under a condition the database checks.
All other status writes are saves of an instance loaded earlier: the retry of
a failed attempt, and the writes that finish a job.
-/

namespace DjangoMojo.Jobs

/-- The row and the terminal status a step saves, for the steps that save one. -/
def Task.finishes : Task → Option (JobId × Status)
  | .publish (.markFailed id _) => some (id, .failed)
  | .deliver delivery (.expire _) => some (delivery.id, .expired)
  | .deliver delivery (.complete _ _) => some (delivery.id, .completed)
  | .deliver delivery (.failSave _ _) => some (delivery.id, .failed)
  | .reap _ (.expire lease) => some (lease.id, .expired)
  | .reap _ (.fail lease) => some (lease.id, .failed)
  | .cancel (.force id _) | .cancel (.cancel id _ _) => some (id, .canceled)
  | _ => none

def Command.keepsStatus : Command → Bool
  | .insert .. | .claim .. | .reset .. => false
  | .save _ write => write.status?.isNone
  | _ => true

theorem Job.mirror_keepsStatus (job : Job) (id : JobId) (asked : Time) :
    (job.mirror id asked).keepsStatus = true := by
  rw [Job.mirror]
  split
  · split <;> rfl
  · rfl

theorem Job.mirror_onRow (job : Job) (other : JobId) (asked : Time) (id : JobId)
    (row : Option Job) : (job.mirror other asked).onRow id row = row := by
  rw [Job.mirror]
  split
  · split <;> rfl
  · rfl

/-- Such a command rewrites a row, if it does, in columns no guard reads. -/
theorem Command.onRow_keepsStatus {command : Command} (hkeeps : command.keepsStatus = true)
    (id : JobId) (before : Option Job) :
    ∃ change : Job → Job, command.onRow id before = before.map change ∧
      ∀ row, (change row).status = row.status ∧ (change row).attempt = row.attempt ∧
        (change row).maxRetries = row.maxRetries ∧ (change row).channel = row.channel := by
  have hsame : before = before.map fun row => row := by simp
  cases command with
  | insert | claim | reset => cases hkeeps
  | save other write =>
    have hnone : write.status? = none := by simpa [keepsStatus] using hkeeps
    rw [onRow]
    split
    · exact ⟨write.apply, rfl, by simp [hnone]⟩
    · exact ⟨fun row => row, hsame, by simp⟩
  | _ => exact ⟨fun row => row, hsame, by simp⟩

theorem Command.onRow_isSome (command : Command) (id : JobId) {row : Option Job}
    (hrow : row.isSome = true) : (command.onRow id row).isSome = true := by
  cases command with
  | insert | save | claim | reset =>
    rw [onRow]
    split <;> simp [hrow]
  | _ => exact hrow

/-- A save without a fault sets the status of its row and of no other. -/
theorem Store.status_save (store : Store) (fault : Fault) (id : JobId) {write : Write}
    {status : Status} (hwrite : write.status? = some status) (other : JobId) :
    ((store.perform fault (.save id write)).jobs.get other).map Job.status =
      if fault.raised = false ∧ other = id then (store.jobs.get other).map fun _ => status
      else (store.jobs.get other).map Job.status := by
  have hlands : (Command.save id write).lands fault = !fault.raised := by cases fault <;> rfl
  rw [get_perform, hlands, Command.onRow]
  cases fault.raised with
  | true => simp
  | false =>
    by_cases heq : other = id
    · cases store.jobs.get other <;> simp [heq, hwrite]
    · simp [heq]

inductive RowMove (now : Time) (env : Env) (store : Store) : Task → Move Task → Prop where
  | keeps (task : Task) (move : Move Task) (hkeeps : move.command.keepsStatus = true) :
      RowMove now env store task move
  | inserts (id : JobId) (request : Request) (asked : Time) (hfault : env.fault = .none)
      (haccepts : store.accepts id request.job = true) :
      RowMove now env store (.publish (.insert id request asked))
        ⟨.publish (.mirror id request.job asked), .insert id request.job, [.created id]⟩
  | resumes (key : String) (id : JobId) (existing : Job) (hfault : env.fault = .none)
      (hget : store.getByKey key = some (id, existing)) (hresume : existing.canResume = true) :
      RowMove now env store (.publish (.relock key))
        ⟨.publish (.mirror id (Write.resumed.apply existing) now), .save id .resumed,
          [.resumed id]⟩
  | claims (delivery : Delivery) (job : Job) (events : List Event) (hfault : env.fault = .none) :
      RowMove now env store (.deliver delivery (.claim job))
        ⟨.deliver delivery (.refresh job), .claim delivery.id now delivery.runner, events⟩
  | retries (delivery : Delivery) (job : Job) (error : String) (hraises : env.raises = false) :
      RowMove now env store (.deliver delivery (.retrySave job error))
        ⟨.deliver delivery
            (if env.fault.raised then .done else .retryAdd job (job.retryAt now env.random)),
          .save delivery.id (.retry (job.retryAt now env.random) error env.text), []⟩
  | resets (cutoff : Int) (lease : Lease) (hfault : env.fault = .none) :
      RowMove now env store (.reap cutoff (.reset lease))
        ⟨.reap cutoff (ReapPc.releaseThen lease .requeue), .reset lease.id, []⟩
  | finishes (task : Task) (id : JobId) (status : Status) (next : Task) (write : Write)
      (htask : task.finishes = some (id, status)) (hwrite : write.status? = some status)
      (hterminal : status.isTerminal = true) :
      RowMove now env store task ⟨next, .save id write, []⟩

theorem Fault.eq_none_of_not_raised {fault : Fault} (hraised : ¬ fault.raised = true) :
    fault = .none := by
  cases fault <;> first | rfl | exact absurd rfl hraised

namespace RowMove

variable {now : Time} {env : Env} {store : Store}

theorem of_publish {pc : PublishPc} {move : Move PublishPc}
    (hmove : pc.move now env store = some move) :
    RowMove now env store (.publish pc) (move.map .publish) := by
  cases pc with
  | insert id request asked =>
    simp only [PublishPc.move] at hmove
    split at hmove
    · cases hmove
      exact .keeps _ _ rfl
    split at hmove
    next hraised haccepts =>
      cases hmove
      exact .inserts id request asked (Fault.eq_none_of_not_raised hraised) haccepts
    next =>
      repeat' split at hmove
      all_goals cases hmove; exact .keeps _ _ rfl
  | relock key =>
    simp only [PublishPc.move] at hmove
    split at hmove
    · cases hmove
      exact .keeps _ _ rfl
    split at hmove
    · cases hmove
      exact .keeps _ _ rfl
    split at hmove
    next hraised _ id existing hget hresume =>
      cases hmove
      exact .resumes key id existing (Fault.eq_none_of_not_raised hraised) hget hresume
    next =>
      split at hmove <;> cases hmove <;> exact .keeps _ _ rfl
  | mirror id job asked =>
    simp only [PublishPc.move] at hmove
    split at hmove <;> cases hmove <;> exact .keeps _ _ (job.mirror_keepsStatus id asked)
  | markFailed id error =>
    cases hmove
    exact .finishes _ id .failed _ _ rfl rfl rfl
  | lookup key request =>
    simp only [PublishPc.move] at hmove
    repeat' split at hmove
    all_goals cases hmove; exact .keeps _ _ rfl
  | returned | raised => cases hmove

theorem of_deliver {delivery : Delivery} {pc : DeliverPc} {move : Move DeliverPc}
    (hmove : pc.move now env store delivery = some move) :
    RowMove now env store (.deliver delivery pc) (move.map (.deliver delivery)) := by
  cases pc with
  | expire job =>
    cases hmove
    exact .finishes _ delivery.id .expired _ _ rfl rfl rfl
  | complete job metadata =>
    cases hmove
    exact .finishes _ delivery.id .completed _ _ rfl rfl rfl
  | failSave job error =>
    cases hmove
    exact .finishes _ delivery.id .failed _ _ rfl rfl rfl
  | claim job =>
    simp only [DeliverPc.move] at hmove
    split at hmove
    · cases hmove
      exact .keeps _ _ rfl
    split at hmove
    next hraised _ =>
      cases hmove
      exact .claims delivery job _ (Fault.eq_none_of_not_raised hraised)
    next =>
      cases hmove
      exact .keeps _ _ rfl
  | retrySave job error =>
    simp only [DeliverPc.move] at hmove
    split at hmove
    next =>
      cases hmove
      exact .keeps _ _ rfl
    next hraises =>
      cases hmove
      exact .retries delivery job error (by simpa using hraises)
  | done => cases hmove
  | _ =>
    simp only [DeliverPc.move] at hmove
    repeat' split at hmove
    all_goals cases hmove; exact .keeps _ _ rfl

theorem of_reap {cutoff : Int} {pc : ReapPc} {move : Move ReapPc}
    (hmove : pc.move now env store cutoff = some move) :
    RowMove now env store (.reap cutoff pc) (move.map (.reap cutoff)) := by
  cases pc with
  | expire lease =>
    cases hmove
    exact .finishes _ lease.id .expired _ _ rfl rfl rfl
  | fail lease =>
    cases hmove
    exact .finishes _ lease.id .failed _ _ rfl rfl rfl
  | reset lease =>
    simp only [ReapPc.move] at hmove
    split at hmove
    · cases hmove
      exact .keeps _ _ rfl
    split at hmove
    next hraised _ =>
      cases hmove
      exact .resets cutoff lease (Fault.eq_none_of_not_raised hraised)
    next =>
      cases hmove
      exact .keeps _ _ rfl
  | done => cases hmove
  | _ =>
    simp only [ReapPc.move] at hmove
    repeat' split at hmove
    all_goals cases hmove; exact .keeps _ _ rfl

theorem of_schedule {moment : Time} {pc : SchedulePc} {move : Move SchedulePc}
    (hmove : pc.move env store moment = some move) :
    RowMove now env store (.schedule moment pc) (move.map (.schedule moment)) := by
  refine .keeps _ _ ?_
  revert hmove
  fun_cases SchedulePc.move env store moment pc <;> rintro ⟨⟩ <;> rfl

theorem of_cancel {pc : CancelPc} {move : Move CancelPc}
    (hmove : pc.move now env store = some move) :
    RowMove now env store (.cancel pc) (move.map .cancel) := by
  cases pc with
  | force id asked =>
    cases hmove
    exact .finishes _ id .canceled _ _ rfl rfl rfl
  | cancel id channel asked =>
    cases hmove
    exact .finishes _ id .canceled _ _ rfl rfl rfl
  | done => cases hmove
  | _ =>
    simp only [CancelPc.move] at hmove
    repeat' split at hmove
    all_goals cases hmove; exact .keeps _ _ rfl

theorem of_move {task : Task} {move : Move Task}
    (hmove : task.move now env store = some move) : RowMove now env store task move :=
  Task.move_cases (fun _ _ => of_publish) (fun _ _ _ => of_deliver) (fun _ _ _ => of_reap)
    (fun _ _ _ => of_schedule) (fun _ _ => of_cancel) (fun _ _ _ _ => .keeps _ _ rfl) hmove

end RowMove

/-! ### What no write changes -/

/-- The row with all that happened to it taken back. -/
def Job.published (job : Job) : Job :=
  { job with status := .pending, runAt := none, attempt := 0, cancelRequested := false,
             runnerId := none, lastError := "", stackTrace := "", metadata := [],
             startedAt := none, finishedAt := none }

structure Job.Continues (row later : Job) : Prop where
  published : later.published = row.published
  attempt : row.attempt ≤ later.attempt
  cancelRequested : row.cancelRequested = true → later.cancelRequested = true

theorem Job.Continues.refl (row : Job) : row.Continues row := ⟨rfl, le_rfl, id⟩

theorem Write.continues_apply (row : Job) (write : Write) : row.Continues (write.apply row) := by
  cases write with
  | cancelRequested | canceled => exact ⟨rfl, le_rfl, fun _ => rfl⟩
  | _ => exact ⟨rfl, le_rfl, id⟩

theorem Command.onRow_continues (command : Command) (id : JobId) (row : Job) :
    ∃ later, command.onRow id (some row) = some later ∧ row.Continues later := by
  cases command with
  | insert other job =>
    rw [onRow]
    split <;> exact ⟨row, rfl, .refl row⟩
  | save other write =>
    rw [onRow]
    split
    · exact ⟨write.apply row, rfl, write.continues_apply row⟩
    · exact ⟨row, rfl, .refl row⟩
  | claim other startedAt runner =>
    rw [onRow]
    split
    · refine ⟨claimRow startedAt runner row, rfl, ?_⟩
      rw [claimRow]
      split
      · exact ⟨rfl, Nat.le_succ _, fun hrequested => hrequested⟩
      · exact .refl row
    · exact ⟨row, rfl, .refl row⟩
  | reset other =>
    rw [onRow]
    split
    · refine ⟨resetRow row, rfl, ?_⟩
      rw [resetRow]
      split
      · exact ⟨rfl, le_rfl, fun hrequested => hrequested⟩
      · exact .refl row
    · exact ⟨row, rfl, .refl row⟩
  | _ => exact ⟨row, rfl, .refl row⟩

def Store.Continues (before after : Store) : Prop :=
  ∀ id row, before.jobs.get id = some row →
    ∃ later, after.jobs.get id = some later ∧ row.Continues later

theorem Store.continues_perform (store : Store) (fault : Fault) (command : Command) :
    store.Continues (store.perform fault command) := by
  intro id row hrow
  rw [get_perform, hrow]
  split
  · exact command.onRow_continues id row
  · exact ⟨row, rfl, .refl row⟩

theorem System.continues_step {system next : System} {action : Action}
    (hstep : system.step action = some next) : system.store.Continues next.store := by
  cases System.step_cases hstep with
  | tick | opened | crashed => exact fun id row hrow => ⟨row, hrow, .refl row⟩
  | lostPop | claimed | moved => exact Store.continues_perform _ _ _

/-- Along every run, from any state, no row is lost, what its publisher asked for stays as it
is, its attempts are never counted down and a request to cancel it is never withdrawn. -/
theorem System.continues_always (system : System) (actions : List Action) :
    Foundation.Always System.step (fun later => system.store.Continues later.store) system
      actions := by
  refine Foundation.always_of_inductive ?_ (fun _ row hrow => ⟨row, hrow, .refl row⟩) actions
  intro middle action next hmiddle hnext id row hrow
  obtain ⟨found, hfound, hpublished, hattempt, hcancel⟩ := hmiddle id row hrow
  obtain ⟨later, hlater, hsame, hmore, hkept⟩ := continues_step hnext id found hfound
  exact ⟨later, hlater, hsame.trans hpublished, hattempt.trans hmore, hkept ∘ hcancel⟩

end DjangoMojo.Jobs
