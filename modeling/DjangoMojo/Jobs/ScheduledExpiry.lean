import DjangoMojo.Jobs.RowWrites
import DjangoMojo.Jobs.ScheduledTask

/-! # Expiry of scheduled jobs

Without an explicit expiry a publication expires a fixed time after it is made, whatever
the time it is scheduled for. The row that a call creates keeps both times, so whether the
job can still run at its time is decided by the arguments.
-/

namespace DjangoMojo.Jobs

open Foundation

/-- The row expires after the time it is scheduled for, so that a delivery at that time
does not find it expired. -/
def Job.RunsAtItsTime (row : Job) : Prop :=
  ∀ runAt, row.runAt = some runAt →
    (∃ expiresAt, row.expiresAt = some expiresAt ∧ runAt < expiresAt) ∧
      row.isExpired runAt = false

namespace PublishArgs

def hasNoExpiry (args : PublishArgs) : Bool := args.expiresIn.isNone && args.expiresAt.isNone

/-- The job is scheduled for less than the default expiry from now. -/
def isBeforeDefaultExpiry (settings : Settings) (now : Time) (args : PublishArgs) : Bool :=
  match args.runAt with
  | some runAt => runAt < now + seconds settings.defaultExpiresSec
  | none => args.delay.all fun delay => delay < settings.defaultExpiresSec

theorem lt_iff_seconds (now delay limit : Int) :
    delay < limit ↔ now + delay * 1000000 < now + limit * 1000000 := by
  omega

theorem times_request {settings : Settings} {args : PublishArgs} (now : Time)
    (hdelayed : args.isDelayed = true) (hexpiry : args.hasNoExpiry = true) :
    ∃ runAt, (args.request settings now).runAt = some runAt ∧
      (args.request settings now).expiresAt = now + seconds settings.defaultExpiresSec ∧
      (args.isBeforeDefaultExpiry settings now = true ↔
        runAt < now + seconds settings.defaultExpiresSec) := by
  simp only [hasNoExpiry, Bool.and_eq_true, Option.isNone_iff_eq_none] at hexpiry
  have hexpires : (args.request settings now).expiresAt =
      now + seconds settings.defaultExpiresSec := by
    simp [request, hexpiry.1, hexpiry.2]
  cases hrunAt : args.runAt with
  | some runAt =>
    refine ⟨runAt, by simp [request, hrunAt], hexpires, ?_⟩
    simp [isBeforeDefaultExpiry, hrunAt]
  | none =>
    cases hdelay : args.delay with
    | none => simp [isDelayed, hrunAt, hdelay] at hdelayed
    | some delay =>
      have hne : delay ≠ 0 := by simpa [isDelayed, hrunAt, hdelay] using hdelayed
      refine ⟨now + seconds delay, by simp [request, hrunAt, hdelay, hne], hexpires, ?_⟩
      simp only [isBeforeDefaultExpiry, hrunAt, hdelay, Option.all_some, decide_eq_true_eq,
        seconds]
      exact lt_iff_seconds now delay settings.defaultExpiresSec

end PublishArgs

/-- The rows that a call has added carry the times of its publication. -/
def Call.KeepsTimes (before : Call) (request : Request) (call : Call) : Prop :=
  ∀ id row, before.store.jobs.get id = none → call.store.jobs.get id = some row →
    row.runAt = request.runAt ∧ row.expiresAt = some request.expiresAt

/-- A publisher that may still insert inserts this publication. -/
def PublishPc.inserts (request : Request) : PublishPc → Prop
  | .insert _ other _ => other = request
  | _ => True

namespace Call.KeepsTimes

variable {before call : Call} {request : Request}

theorem start (before : Call) (request : Request) : KeepsTimes before request before := by
  intro id row hnone hrow
  rw [hnone] at hrow
  cases hrow

theorem issue (hkeeps : KeepsTimes before request call) {command : Command}
    (hcommand : ∀ id row after, command.onRow id row = some after →
      after.runAt = request.runAt ∧ after.expiresAt = some request.expiresAt ∨
        ∃ old, row = some old ∧ after.runAt = old.runAt ∧ after.expiresAt = old.expiresAt) :
    KeepsTimes before request (call.issue command) := by
  intro id row hnone hrow
  change (call.store.perform call.env.fault command).jobs.get id = some row at hrow
  rw [Store.get_perform] at hrow
  split at hrow
  · obtain hnew | ⟨old, hold, hrun, hexpires⟩ := hcommand id _ row hrow
    · exact hnew
    · rw [hrun, hexpires]
      exact hkeeps id old hnone hold
  · exact hkeeps id row hnone hrow

theorem move (hkeeps : KeepsTimes before request call) {pc : PublishPc} {move : Move PublishPc}
    (hinserts : pc.inserts request)
    (hmove : pc.move call.now call.env call.store = some move) :
    KeepsTimes before request (call.issue move.command) ∧ move.next.inserts request := by
  have hsame {command : Command} (hrow : ∀ id row, command.onRow id row = row) :
      KeepsTimes before request (call.issue command) :=
    hkeeps.issue fun id row after hafter =>
      .inr ⟨after, (hrow id row).symm.trans hafter, rfl, rfl⟩
  have hsave {saved : JobId} {write : Write}
      (hwrite : ∀ old, (write.apply old).runAt = old.runAt ∧
        (write.apply old).expiresAt = old.expiresAt) :
      KeepsTimes before request (call.issue (.save saved write)) := by
    refine hkeeps.issue fun id row after hafter => .inr ?_
    rw [Command.onRow] at hafter
    split at hafter
    · obtain ⟨old, hold, rfl⟩ := Option.map_eq_some_iff.mp hafter
      exact ⟨old, hold, hwrite old⟩
    · exact ⟨after, hafter, rfl, rfl⟩
  cases pc with
  | insert new other asked =>
    cases hinserts
    simp only [PublishPc.move] at hmove
    split at hmove
    · cases hmove
      exact ⟨hsame fun _ _ => rfl, trivial⟩
    split at hmove
    · cases hmove
      refine ⟨hkeeps.issue fun id row after hafter => ?_, trivial⟩
      rw [Command.onRow] at hafter
      split at hafter
      · cases row with
        | none =>
          cases hafter
          exact .inl ⟨rfl, rfl⟩
        | some old => exact .inr ⟨after, hafter, rfl, rfl⟩
      · exact .inr ⟨after, hafter, rfl, rfl⟩
    · repeat' split at hmove
      all_goals
        cases hmove
        exact ⟨hsame fun _ _ => rfl, trivial⟩
  | relock key =>
    simp only [PublishPc.move] at hmove
    repeat' split at hmove
    all_goals
      cases hmove
      first
      | exact ⟨hsame fun _ _ => rfl, trivial⟩
      | exact ⟨hsave fun _ => ⟨rfl, rfl⟩, trivial⟩
  | mirror id job asked =>
    simp only [PublishPc.move] at hmove
    split at hmove <;> cases hmove <;>
      exact ⟨hsame fun other row => job.mirror_onRow id asked other row, trivial⟩
  | markFailed id error =>
    cases hmove
    exact ⟨hsave fun _ => ⟨rfl, rfl⟩, trivial⟩
  | lookup key other =>
    simp only [PublishPc.move] at hmove
    repeat' split at hmove
    all_goals
      cases hmove
      exact ⟨hsame fun _ _ => rfl, trivial⟩
  | returned | raised => cases hmove

theorem finish (fuel : Nat) {pc : PublishPc} (hkeeps : KeepsTimes before request call)
    (hinserts : pc.inserts request) : KeepsTimes before request (call.finish fuel pc).2 := by
  induction fuel generalizing call pc with
  | zero => exact hkeeps
  | succ fuel ih =>
    rw [Call.finish]
    split
    next => exact hkeeps
    next step hmove =>
      obtain ⟨hnext, hrest⟩ := hkeeps.move hinserts hmove
      exact ih hnext hrest

end Call.KeepsTimes

theorem Call.keepsTimes_publish (call : Call) {args : PublishArgs}
    (hdelayed : args.isDelayed = true) :
    call.KeepsTimes (args.request call.settings call.now) (call.publish args).2 := by
  simp only [publish, hdelayed, Bool.not_true, Bool.and_false, Bool.false_and, Bool.false_eq_true,
    if_false]
  rw [publishOne]
  split
  · have hdrawn : call.KeepsTimes (args.request call.settings call.now) call.drawUuid.2 :=
      KeepsTimes.start call _
    have hinserts : (PublishPc.insert call.drawUuid.1 (args.request call.settings call.now)
        call.now).inserts (args.request call.settings call.now) := rfl
    exact hdrawn.finish publishSteps hinserts
  · exact KeepsTimes.start call _

/-- The arguments of the publication that `dispatch_scheduled_tasks` makes for a run.
`hex` prints the key of the task. -/
def TaskRun.args (hex : JobId → String) (run : TaskRun) : PublishArgs where
  func := "mojo.apps.jobs.asyncjobs.run_scheduled_task"
  payload := "\x7b\"task_id\": \"" ++ hex run.taskId ++ "\"\x7d"
  channel := run.channel
  runAt := some run.runAt
  maxRetries := some run.maxRetries
  idempotencyKey := some (s!"schtask:" ++ hex run.taskId ++ ":" ++ toString run.key.2)

/-- A job scheduled without an expiry can run at its time exactly when that is less than the
default expiry away, and so can a run that the dispatcher publishes. -/
theorem runsAtItsTime_iff_isBeforeDefaultExpiry (call : Call) (id : JobId) (row : Job)
    (hnone : call.store.jobs.get id = none) :
    (∀ args : PublishArgs, args.isDelayed = true → args.hasNoExpiry = true →
      (call.publish args).2.store.jobs.get id = some row →
        (row.RunsAtItsTime ↔ args.isBeforeDefaultExpiry call.settings call.now = true)) ∧
    ∀ (tables : TextTables) (zones : Zones) (hex : JobId → String)
      (tasks : Table JobId ScheduledTask) (fails : JobId → Time → Bool) (now : Time)
      (published : List TaskRun),
      ∀ run ∈ dispatchScheduledTasks tables zones tasks fails now published, run ∉ published →
        (call.publish (run.args hex)).2.store.jobs.get id = some row →
          (row.RunsAtItsTime ↔ run.runAt < call.now + seconds call.settings.defaultExpiresSec) := by
  have hrow (args : PublishArgs) (hdelayed : args.isDelayed = true)
      (hexpiry : args.hasNoExpiry = true)
      (hget : (call.publish args).2.store.jobs.get id = some row) :
      row.RunsAtItsTime ↔ args.isBeforeDefaultExpiry call.settings call.now = true := by
    obtain ⟨hrunAt, hexpiresAt⟩ := call.keepsTimes_publish hdelayed id row hnone hget
    obtain ⟨runAt, hrun, hexpires, hiff⟩ := args.times_request call.now hdelayed hexpiry
    rw [hrun] at hrunAt
    rw [hexpires] at hexpiresAt
    rw [hiff]
    constructor
    · intro hruns
      obtain ⟨⟨expiresAt, hsome, hlt⟩, _⟩ := hruns runAt hrunAt
      cases hexpiresAt.symm.trans hsome
      exact hlt
    · intro hlt other hother
      cases hrunAt.symm.trans hother
      refine ⟨⟨_, hexpiresAt, hlt⟩, ?_⟩
      rw [Job.isExpired, hexpiresAt, Option.any_some, decide_eq_false_iff_not]
      exact not_lt.mpr (le_of_lt hlt)
  refine ⟨hrow, ?_⟩
  intro tables zones hex tasks fails now published run _ _ hget
  rw [hrow (run.args hex) rfl rfl hget]
  exact decide_eq_true_iff

def firstCall : Call where
  now := 0
  settings := {}
  store := .empty
  stream := fun _ _ => []
  runners := fun _ => []
  envs := []
  uuids := [1]

def delayedBy (delay : Int) : PublishArgs := { func := "app.work", delay := some delay }

def halfPast : Table JobId ScheduledTask :=
  Table.empty.insert 1 { timezone := none, taskType := "job", runTimes := ["00:30"], runDays := [] }

def halfPastRun : TaskRun := ⟨1, 1800000000, "default", 0⟩

/-- A job published for a minute from now can run then. The run at half past that is
dispatched on the hour cannot. -/
theorem runsAtItsTime_aMinuteAhead :
    (∃ row, (firstCall.publish (delayedBy 60)).2.store.jobs.get 1 = some row ∧
      row.RunsAtItsTime) ∧
    halfPastRun ∈
      dispatchScheduledTasks .ascii ⟨fun _ => none, 0⟩ halfPast (fun _ _ => false) 0 [] ∧
    ∃ row, (firstCall.publish (halfPastRun.args toString)).2.store.jobs.get 1 = some row ∧
      ¬ row.RunsAtItsTime := by
  have hdispatched : halfPastRun ∈
      dispatchScheduledTasks .ascii ⟨fun _ => none, 0⟩ halfPast (fun _ _ => false) 0 [] := by
    decide +kernel
  have hfirst : ((firstCall.publish (delayedBy 60)).2.store.jobs.get 1).isSome := by
    decide +kernel
  have hsecond : ((firstCall.publish (halfPastRun.args toString)).2.store.jobs.get 1).isSome := by
    decide +kernel
  obtain ⟨first, hgetFirst⟩ := Option.isSome_iff_exists.mp hfirst
  obtain ⟨second, hgetSecond⟩ := Option.isSome_iff_exists.mp hsecond
  refine ⟨⟨first, hgetFirst, ?_⟩, hdispatched, second, hgetSecond, ?_⟩
  · exact ((runsAtItsTime_iff_isBeforeDefaultExpiry firstCall 1 first rfl).1 (delayedBy 60) rfl rfl
      hgetFirst).mpr rfl
  · rw [(runsAtItsTime_iff_isBeforeDefaultExpiry firstCall 1 second rfl).2 .ascii
      ⟨fun _ => none, 0⟩ toString halfPast (fun _ _ => false) 0 [] halfPastRun hdispatched
      List.not_mem_nil hgetSecond]
    decide

/-- A job published for an hour from now expires three quarters of an hour before its time. -/
theorem not_runsAtItsTime_anHourAhead :
    ∃ row, (firstCall.publish (delayedBy 3600)).2.store.jobs.get 1 = some row ∧
      ¬ row.RunsAtItsTime := by
  have hrow : ((firstCall.publish (delayedBy 3600)).2.store.jobs.get 1).any
      fun row => row.runAt = some 3600000000 && row.isExpired 3600000000 := by
    decide +kernel
  rw [Option.any_eq_true] at hrow
  obtain ⟨row, hget, htimes⟩ := hrow
  simp only [Bool.and_eq_true, decide_eq_true_eq] at htimes
  refine ⟨row, hget, fun hruns => ?_⟩
  rw [(hruns _ htimes.1).2] at htimes
  cases htimes.2

end DjangoMojo.Jobs
