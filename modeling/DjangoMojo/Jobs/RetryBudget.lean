import DjangoMojo.Jobs.Attempts
import DjangoMojo.Jobs.RowWrites

/-! # The retry budget

The claim raises the attempt column before the handler runs, and the failure handler
compares the raised number with the limit. A job whose handler raises on every run is
followed here from its publication to the row's `failed` status, beside whatever else the
system does, as long as nothing but the handler disturbs it.
-/

namespace DjangoMojo.Jobs

open Foundation

def Job.retryBase (job : Job) (k : Nat) : ℚ := min (job.backoffBase ^ k) job.backoffMaxSec

/-- The jitter of `_handle_job_failure` on a base. -/
def jittered (now : Time) (base random : ℚ) : Time :=
  now + (base * (4 / 5 + random * (2 / 5)) * 1000000 + 1 / 2).floor

namespace DeliverPc

def isRunning : DeliverPc → Bool
  | .running _ => true
  | _ => false

/-- From the claim of a job to the write that ends the attempt. -/
def attempts : DeliverPc → Bool
  | .refresh _ | .begin _ | .running _ | .failLoad _ | .retrySave .. | .failSave .. => true
  | _ => false

/-- What is reached only when the job expires, completes or fails outside its handler. -/
def ends : DeliverPc → Bool
  | .expire _ | .complete .. | .metrics | .release _ true => true
  | _ => false

end DeliverPc

def CancelPc.target : CancelPc → Option JobId
  | .load id _ | .heartbeat id _ | .request id | .force id _ | .cancel id .. => some id
  | .zrem .. | .done => none

def ReapPc.taken : ReapPc → Option JobId
  | .reset lease | .release lease _ _ | .expire lease | .fail lease | .requeue lease
  | .event lease => some lease.id
  | .load _ | .lock .. | .fetch .. | .done => none

/-- A step leaves a job to its handler: the publication reaches its queue, the handler is
loaded and raises, nothing else around it fails, the job is not expired when it is loaded,
its lease does not expire and nobody cancels it. -/
def Task.leavesAlone (id : JobId) (now : Time) (env : Env) (store : Store) : Task → Bool
  | .publish (.mirror other _ _) => other ≠ id || !env.fault.raised
  | .deliver delivery pc =>
    delivery.id ≠ id || (!env.fault.raised && env.raises = pc.isRunning &&
      (store.jobs.get id).all fun row => !row.isExpired now)
  | .reap _ (.load lease) => lease.id ≠ id
  | .cancel pc => pc.target ≠ some id
  | _ => true

def leftToHandler (id : JobId) (system : System) : Action → Bool
  | .advance index env =>
    (system.threads[index]?).all fun thread =>
      thread.task.leavesAlone id system.now env system.store
  | _ => true

/-- When the row is failed, its handler has been started once and once for each retry
that `max_retries` allows. -/
def StartedOnceMoreThanRetried (id : JobId) (system : System) : Prop :=
  ∀ row, system.store.jobs.get id = some row → row.status = .failed →
    ((starts system.log id).length : Int) = 1 + row.maxRetries

/-- A step that returns the running row to pending schedules the retry after the k-th start
with the k-th base. -/
def BacksOff (id : JobId) (system : System) (action : Action) (next : System) : Prop :=
  ∀ index env row after, action = .advance index env →
    system.store.jobs.get id = some row → next.store.jobs.get id = some after →
    row.status = .running → after.status = .pending →
    after.runAt = some
      (jittered system.now (row.retryBase (starts system.log id).length) env.random)

namespace Task

def disturbs (id : JobId) : Task → Bool
  | .publish (.markFailed other _) => other = id
  | .deliver delivery pc => delivery.id = id && pc.ends
  | .reap _ pc => pc.taken = some id
  | _ => false

/-- The delivery that has claimed the job and not yet written the end of the attempt. -/
def attempts (id : JobId) : Task → Bool
  | .deliver delivery pc => delivery.id = id && pc.attempts
  | _ => false

end Task

inductive Turn (id : JobId) (now : Time) (env : Env) (store : Store) : Task → Move Task → Prop where
  | aside (task : Task) (move : Move Task) (hrow : ∀ row, move.command.onRow id row = row)
      (hstarts : ∀ event ∈ move.events, event.startOf id = none)
      (hnext : move.next.attempts id = false) (hcalm : move.next.disturbs id = false) :
      Turn id now env store task move
  | inserts (request : Request) (asked : Time) (hfault : env.fault = .none)
      (hnone : store.jobs.get id = none) :
      Turn id now env store (.publish (.insert id request asked))
        ⟨.publish (.mirror id request.job asked), .insert id request.job, [.created id]⟩
  | resumes (key : String) (existing : Job) (hrow : store.jobs.get id = some existing)
      (hresume : existing.canResume = true) :
      Turn id now env store (.publish (.relock key))
        ⟨.publish (.mirror id (Write.resumed.apply existing) now), .save id .resumed,
          [.resumed id]⟩
  | claims (delivery : Delivery) (job row : Job) (hfault : env.fault = .none)
      (hid : delivery.id = id) (hrow : store.jobs.get id = some row)
      (hpending : row.status = .pending) :
      Turn id now env store (.deliver delivery (.claim job))
        ⟨.deliver delivery (.refresh job), .claim id now delivery.runner, [.claimed id]⟩
  | refreshes (delivery : Delivery) (job row : Job) (hid : delivery.id = id)
      (hrow : store.jobs.get id = some row) :
      Turn id now env store (.deliver delivery (.refresh job))
        ⟨.deliver delivery (.begin row), .read, []⟩
  | starts (delivery : Delivery) (job : Job) (hid : delivery.id = id) :
      Turn id now env store (.deliver delivery (.begin job))
        ⟨.deliver delivery (.running job), .read, [.started id job.attempt]⟩
  | raises (delivery : Delivery) (job : Job) (hid : delivery.id = id) :
      Turn id now env store (.deliver delivery (.running job))
        ⟨.deliver delivery (.failLoad env.text), .read, []⟩
  | reloads (delivery : Delivery) (error : String) (row : Job) (hid : delivery.id = id)
      (hrow : store.jobs.get id = some row) :
      Turn id now env store (.deliver delivery (.failLoad error))
        ⟨.deliver delivery (if row.hasRetryLeft then .retrySave row error else .failSave row error),
          .read, []⟩
  | retries (delivery : Delivery) (job : Job) (error : String) (hfault : env.fault = .none)
      (hid : delivery.id = id) :
      Turn id now env store (.deliver delivery (.retrySave job error))
        ⟨.deliver delivery (.retryAdd job (job.retryAt now env.random)),
          .save id (.retry (job.retryAt now env.random) error env.text), []⟩
  | fails (delivery : Delivery) (job : Job) (error : String) (hfault : env.fault = .none)
      (hid : delivery.id = id) :
      Turn id now env store (.deliver delivery (.failSave job error))
        ⟨.deliver delivery .failMetrics, .save id (.failed now error env.text), []⟩

namespace Turn

variable {id : JobId} {now : Time} {env : Env} {store : Store}

theorem of_quiet {task : Task} {move : Move Task} (hrow : ∀ row, move.command.onRow id row = row)
    (hquiet : ∀ event ∈ move.events, event.isQuiet = true)
    (hnext : move.next.attempts id = false) (hcalm : move.next.disturbs id = false) :
    Turn id now env store task move :=
  .aside task move hrow (fun event hevent => Event.startOf_of_isQuiet (hquiet event hevent) id)
    hnext hcalm

theorem of_publish {pc : PublishPc} {move : Move PublishPc}
    (hcalm : (Task.publish pc).disturbs id = false)
    (hleft : (Task.publish pc).leavesAlone id now env store = true)
    (hmove : pc.move now env store = some move) :
    Turn id now env store (.publish pc) (move.map .publish) := by
  cases pc with
  | insert other request asked =>
    simp only [PublishPc.move] at hmove
    split at hmove
    next =>
      cases hmove
      exact of_quiet (fun _ => rfl) (by simp) rfl rfl
    next hraised =>
      have hfault := Fault.eq_none_of_not_raised hraised
      split at hmove
      next haccepts =>
        cases hmove
        by_cases heq : id = other
        · subst heq
          simp only [Store.accepts, Bool.and_eq_true, Option.isNone_iff_eq_none] at haccepts
          exact .inserts request asked hfault haccepts.1
        · refine of_quiet (fun row => ?_) (by simp [Event.isQuiet]) rfl rfl
          exact if_neg heq
      next =>
        repeat' split at hmove
        all_goals
          cases hmove
          exact of_quiet (fun _ => rfl) (by simp) rfl rfl
  | relock key =>
    simp only [PublishPc.move] at hmove
    split at hmove
    next =>
      cases hmove
      exact of_quiet (fun _ => rfl) (by simp) rfl rfl
    split at hmove
    next =>
      cases hmove
      exact of_quiet (fun _ => rfl) (by simp) rfl rfl
    split at hmove
    next hresume =>
      rename_i other existing hget
      cases hmove
      by_cases heq : id = other
      · subst heq
        exact .resumes key existing (Store.get_of_getByKey hget) hresume
      · refine of_quiet (fun row => ?_) (by simp [Event.isQuiet]) rfl rfl
        exact if_neg heq
    next =>
      split at hmove <;> cases hmove <;> exact of_quiet (fun _ => rfl) (by simp) rfl rfl
  | mirror other job asked =>
    simp only [PublishPc.move] at hmove
    split at hmove
    next hraised =>
      cases hmove
      refine of_quiet (job.mirror_onRow other asked id) (by simp) rfl ?_
      simpa [Task.leavesAlone, hraised, Task.disturbs] using hleft
    next =>
      cases hmove
      exact of_quiet (job.mirror_onRow other asked id) (by simp [Event.isQuiet]) rfl rfl
  | markFailed other error =>
    cases hmove
    refine of_quiet (fun row => if_neg fun heq => ?_) (by simp) rfl rfl
    simp [Task.disturbs, heq] at hcalm
  | lookup key request =>
    simp only [PublishPc.move] at hmove
    repeat' split at hmove
    all_goals
      cases hmove
      exact of_quiet (fun _ => rfl) (by simp) rfl rfl
  | returned | raised => cases hmove

theorem of_other {delivery : Delivery} {pc : DeliverPc} {move : Move DeliverPc}
    (hid : delivery.id ≠ id) (hmove : pc.move now env store delivery = some move) :
    Turn id now env store (.deliver delivery pc) (move.map (.deliver delivery)) := by
  refine .aside _ _ ?_ ?_ (by simp [Task.attempts, hid]) (by simp [Task.disturbs, hid])
  · revert hmove
    fun_cases DeliverPc.move now env store delivery pc <;> rintro ⟨⟩ row <;>
      first | rfl | exact if_neg (Ne.symm hid)
  · revert hmove
    fun_cases DeliverPc.move now env store delivery pc <;> rintro ⟨⟩ <;>
      simp [Event.startOf, hid]

theorem of_deliver {delivery : Delivery} {pc : DeliverPc} {move : Move DeliverPc}
    (hcalm : (Task.deliver delivery pc).disturbs id = false)
    (hleft : (Task.deliver delivery pc).leavesAlone id now env store = true)
    (hheld : (Task.deliver delivery pc).attempts id = true → (store.jobs.get id).isSome)
    (hmove : pc.move now env store delivery = some move) :
    Turn id now env store (.deliver delivery pc) (move.map (.deliver delivery)) := by
  by_cases hid : delivery.id = id
  case neg => exact of_other hid hmove
  subst hid
  simp only [Task.leavesAlone, ne_eq, not_true_eq_false, decide_false, Bool.false_or,
    Bool.and_eq_true, Bool.not_eq_true', decide_eq_true_eq, Option.all_eq_true] at hleft
  obtain ⟨⟨hfault, hraises⟩, hexpired⟩ := hleft
  have hnone : env.fault = .none := Fault.eq_none_of_not_raised (by simp [hfault])
  simp only [Task.disturbs, decide_true, Bool.true_and] at hcalm
  have haside {next : DeliverPc} {command : Command}
      (hrow : ∀ row, command.onRow delivery.id row = row) (hnext : next.attempts = false)
      (hends : next.ends = false) :
      Turn delivery.id now env store (.deliver delivery pc)
        ⟨.deliver delivery next, command, []⟩ :=
    .aside _ _ hrow (by simp) (by simp [Task.attempts, hnext]) (by simp [Task.disturbs, hends])
  cases pc with
  | track =>
    cases hmove
    have hquiet : env.raises = false := hraises
    exact haside (fun _ => rfl) (by rw [hquiet]; rfl) (by rw [hquiet]; rfl)
  | load =>
    simp only [DeliverPc.move, hfault, Bool.false_eq_true, if_false] at hmove
    split at hmove
    next =>
      cases hmove
      exact haside (fun _ => rfl) rfl rfl
    next job hjob =>
      cases hmove
      have hfresh : job.isExpired now = false := hexpired job hjob
      refine haside (fun _ => rfl) ?_ ?_ <;>
        (rw [DeliverPc.afterLoad, hfresh]; split <;> rfl)
  | dropLease =>
    cases hmove
    exact haside (fun _ => rfl) rfl rfl
  | retryAdd job runAt =>
    cases hmove
    simp only [hfault, Bool.false_eq_true, if_false]
    exact haside (fun _ => rfl) rfl rfl
  | expire | complete | metrics => cases hcalm
  | claim job =>
    simp only [DeliverPc.move, hfault, Bool.false_eq_true, if_false] at hmove
    split at hmove
    next hpending =>
      cases hmove
      rw [Option.any_eq_true] at hpending
      obtain ⟨row, hrow, hstatus⟩ := hpending
      exact .claims delivery job row hnone rfl hrow (by simpa using hstatus)
    next =>
      cases hmove
      exact haside (fun _ => rfl) rfl rfl
  | refresh job =>
    simp only [DeliverPc.move, hfault, Bool.false_eq_true, if_false] at hmove
    split at hmove
    next habsent => simp [Task.attempts, DeliverPc.attempts, habsent] at hheld
    next row hrow =>
      cases hmove
      exact .refreshes delivery job row rfl hrow
  | begin job =>
    simp only [DeliverPc.move, hraises, DeliverPc.isRunning, Bool.false_eq_true, if_false]
      at hmove
    cases hmove
    exact .starts delivery job rfl
  | running job =>
    simp only [DeliverPc.move, hraises, DeliverPc.isRunning, if_true] at hmove
    cases hmove
    exact .raises delivery job rfl
  | release left recordMetrics =>
    cases recordMetrics with
    | true => cases hcalm
    | false =>
      cases hmove
      refine haside (fun _ => rfl) ?_ ?_ <;> cases left <;> dsimp only <;> (try split) <;> rfl
  | failLoad error =>
    simp only [DeliverPc.move, hfault, Bool.false_eq_true, if_false] at hmove
    split at hmove
    next =>
      cases hmove
      exact haside (fun _ => rfl) rfl rfl
    next row hrow =>
      have hturn := @Turn.reloads _ now env _ delivery error row rfl hrow
      split at hmove
      next hretry =>
        cases hmove
        rw [if_pos hretry] at hturn
        exact hturn
      next hretry =>
        cases hmove
        rw [if_neg hretry] at hturn
        exact hturn
  | retrySave job error =>
    simp only [DeliverPc.move, hraises, DeliverPc.isRunning, hfault, Bool.false_eq_true,
      if_false] at hmove
    cases hmove
    exact .retries delivery job error hnone rfl
  | failSave job error =>
    simp only [DeliverPc.move, hfault, Bool.false_eq_true, if_false] at hmove
    cases hmove
    exact .fails delivery job error hnone rfl
  | failMetrics =>
    cases hmove
    have hquiet : env.raises = false := hraises
    exact haside (fun _ => rfl) (by rw [hquiet]; rfl) (by rw [hquiet]; rfl)
  | done => cases hmove

theorem taken_nextChannel (rest : List Channel) : (ReapPc.nextChannel rest).taken = none := by
  cases rest <;> rfl

theorem taken_ofIds (channel : Channel) (rest : List Channel) (ids : List JobId) :
    (ReapPc.ofIds channel rest ids).taken = none := by
  cases ids with
  | nil => exact taken_nextChannel rest
  | cons => rfl

theorem taken_afterLoad (now : Time) (lease : Lease) (job : Job) :
    (ReapPc.afterLoad now lease job).taken = some lease.id := by
  rw [ReapPc.afterLoad]
  repeat' split
  all_goals rfl

theorem taken_afterRelease (lease : Lease) (after : AfterRelease) :
    (ReapPc.afterRelease lease after).taken = none ∨
      (ReapPc.afterRelease lease after).taken = some lease.id := by
  cases after with
  | skip => exact .inl (taken_ofIds lease.channel lease.rest lease.ids)
  | expire | fail | requeue => exact .inr rfl

theorem taken_afterWrite (env : Env) (lease : Lease) :
    (ReapPc.afterWrite env lease).taken = some lease.id := by
  rw [ReapPc.afterWrite]
  split <;> rfl

theorem of_reap {cutoff : Int} {pc : ReapPc} {move : Move ReapPc}
    (hcalm : (Task.reap cutoff pc).disturbs id = false)
    (hleft : (Task.reap cutoff pc).leavesAlone id now env store = true)
    (hmove : pc.move now env store cutoff = some move) :
    Turn id now env store (.reap cutoff pc) (move.map (.reap cutoff)) := by
  have hquiet {next : ReapPc} {command : Command} (hrow : ∀ row, command.onRow id row = row)
      (hnext : next.taken ≠ some id) :
      Turn id now env store (.reap cutoff pc) ⟨.reap cutoff next, command, []⟩ :=
    of_quiet hrow (by simp) rfl (by simpa [Task.disturbs] using hnext)
  have hother (lease : Lease) (htaken : pc.taken = some lease.id) : lease.id ≠ id := by
    simpa [Task.disturbs, htaken] using hcalm
  have hsome {lease : Lease} (hne : lease.id ≠ id) : some lease.id ≠ some id :=
    fun heq => hne (Option.some.inj heq)
  cases pc with
  | lock channel rest =>
    cases hmove
    refine hquiet (fun _ => rfl) ?_
    split
    · rw [taken_nextChannel]
      exact nofun
    · exact nofun
  | fetch channel rest =>
    cases hmove
    refine hquiet (fun _ => rfl) ?_
    rw [taken_ofIds]
    exact nofun
  | load lease =>
    have hne : lease.id ≠ id := by simpa [Task.leavesAlone] using hleft
    simp only [ReapPc.move] at hmove
    repeat' split at hmove
    all_goals cases hmove
    · exact hquiet (fun _ => rfl) (hsome hne)
    · exact hquiet (fun _ => rfl) (hsome hne)
    · refine hquiet (fun _ => rfl) ?_
      rw [taken_afterLoad]
      exact hsome hne
  | reset lease =>
    have hne := hother lease rfl
    simp only [ReapPc.move] at hmove
    repeat' split at hmove
    all_goals cases hmove
    · exact hquiet (fun _ => rfl) (hsome hne)
    · exact hquiet (fun row => if_neg (Ne.symm hne)) (hsome hne)
    · exact hquiet (fun _ => rfl) (hsome hne)
  | release lease left after =>
    have hne := hother lease rfl
    have hafter : (ReapPc.afterRelease lease after).taken ≠ some id := by
      obtain hnone | hlease := taken_afterRelease lease after
      · rw [hnone]
        exact nofun
      · rw [hlease]
        exact hsome hne
    cases hmove
    refine hquiet (fun _ => rfl) ?_
    split
    · exact hafter
    · split
      · exact hafter
      · exact hsome hne
  | expire lease | fail lease =>
    have hne := hother lease rfl
    cases hmove
    refine hquiet (fun row => if_neg (Ne.symm hne)) ?_
    rw [taken_afterWrite]
    exact hsome hne
  | requeue lease =>
    cases hmove
    refine hquiet (fun _ => rfl) ?_
    rw [taken_afterWrite]
    exact hsome (hother lease rfl)
  | event lease =>
    cases hmove
    refine hquiet (fun _ => rfl) ?_
    split
    · exact hsome (hother lease rfl)
    · rw [ReapPc.nextEntry, taken_ofIds]
      exact nofun
  | done => cases hmove

theorem of_schedule {moment : Time} {pc : SchedulePc} {move : Move SchedulePc}
    (hmove : pc.move env store moment = some move) :
    Turn id now env store (.schedule moment pc) (move.map (.schedule moment)) := by
  refine of_quiet ?_ ?_ rfl rfl <;> revert hmove <;>
    fun_cases SchedulePc.move env store moment pc <;> rintro ⟨⟩ <;> simp [Command.onRow]

theorem of_cancel {pc : CancelPc} {move : Move CancelPc}
    (hleft : (Task.cancel pc).leavesAlone id now env store = true)
    (hmove : pc.move now env store = some move) :
    Turn id now env store (.cancel pc) (move.map .cancel) := by
  have hother : pc.target ≠ some id := by simpa [Task.leavesAlone] using hleft
  have hkept {other : JobId} (htarget : pc.target = some other) (write : Write)
      (row : Option Job) : Command.onRow id row (.save other write) = row :=
    if_neg fun heq => hother (by rw [htarget, heq])
  cases pc with
  | load other operator =>
    simp only [CancelPc.move] at hmove
    repeat' split at hmove
    all_goals
      cases hmove
      exact of_quiet (fun _ => rfl) (by simp) rfl rfl
  | request other =>
    cases hmove
    exact of_quiet (hkept rfl _) (by simp) rfl rfl
  | force other asked =>
    cases hmove
    exact of_quiet (hkept rfl _) (by simp) rfl rfl
  | cancel other channel asked =>
    cases hmove
    exact of_quiet (hkept rfl _) (by simp) rfl rfl
  | heartbeat | zrem =>
    cases hmove
    exact of_quiet (fun _ => rfl) (by simp) rfl rfl
  | done => cases hmove

theorem of_move {task : Task} {move : Move Task} (hcalm : task.disturbs id = false)
    (hleft : task.leavesAlone id now env store = true)
    (hheld : task.attempts id = true → (store.jobs.get id).isSome)
    (hmove : task.move now env store = some move) : Turn id now env store task move := by
  revert hcalm hleft hheld
  exact Task.move_cases (motive := fun task move => task.disturbs id = false →
      task.leavesAlone id now env store = true →
      (task.attempts id = true → (store.jobs.get id).isSome) → Turn id now env store task move)
    (fun _ _ hmove hcalm hleft _ => of_publish hcalm hleft hmove)
    (fun _ _ _ hmove hcalm hleft hheld => of_deliver hcalm hleft hheld hmove)
    (fun _ _ _ hmove hcalm hleft _ => of_reap hcalm hleft hmove)
    (fun _ _ _ hmove _ _ _ => of_schedule hmove)
    (fun _ _ hmove _ hleft _ => of_cancel hleft hmove)
    (fun _ _ _ _ _ _ _ => of_quiet (fun _ => rfl) (by simp) rfl rfl) hmove

end Turn

theorem starts_append_of_none {id : JobId} {events : List Event}
    (hevents : ∀ event ∈ events, event.startOf id = none) (thread : Nat)
    (log : List (Nat × Event)) :
    starts (events.map (thread, ·) ++ log) id = starts log id := by
  have hnone : (events.map (thread, ·)).filterMap (fun entry => entry.2.startOf id) = [] := by
    rw [List.filterMap_eq_nil_iff]
    intro entry hentry
    obtain ⟨event, hevent, rfl⟩ := List.mem_map.mp hentry
    exact hevents event hevent
  rw [starts, List.filterMap_append, hnone, List.nil_append, starts]

/-- How the attempt column stands to the starts of the handler, by the status of the row. -/
def Job.Books (row : Job) (started : Nat) : Prop :=
  match row.status with
  | .pending => started = row.attempt ∧ (row.attempt = 0 ∨ (row.attempt : Int) < row.maxRetries)
  | .running => 1 ≤ row.attempt ∧ (row.attempt = 1 ∨ (row.attempt : Int) ≤ row.maxRetries)
  | .failed => started = row.attempt ∧ 1 ≤ row.attempt ∧ row.maxRetries ≤ row.attempt ∧
      (row.attempt = 1 ∨ (row.attempt : Int) ≤ row.maxRetries)
  | .completed | .canceled | .expired => True

def DeliverPc.Knows (row : Job) (started : Nat) : DeliverPc → Prop
  | .refresh _ | .begin _ => started + 1 = row.attempt
  | .retrySave job _ => started = row.attempt ∧ job = row ∧ row.hasRetryLeft
  | .failSave _ _ => started = row.attempt ∧ ¬ row.hasRetryLeft
  | _ => started = row.attempt

/-- The row and the one open attempt, if there is one, agree with the starts. -/
structure Booked (id : JobId) (system : System) : Prop where
  calm : ∀ (index : Nat) (thread : Thread), system.threads[index]? = some thread →
    thread.task.disturbs id = false
  unpublished : system.store.jobs.get id = none → starts system.log id = []
  books : ∀ row, system.store.jobs.get id = some row → row.Books (starts system.log id).length
  open_knows : ∀ (index : Nat) (owner : Owner) (delivery : Delivery) (pc : DeliverPc),
    system.threads[index]? = some ⟨owner, .deliver delivery pc⟩ →
    delivery.id = id → pc.attempts = true → ∃ row, system.store.jobs.get id = some row ∧
      row.status = .running ∧ pc.Knows row (starts system.log id).length
  alone : ∀ (first second : Nat) (one other : Thread), system.threads[first]? = some one →
    system.threads[second]? = some other → one.task.attempts id = true →
    other.task.attempts id = true → first = second

namespace Booked

variable {id : JobId} {system : System}

theorem empty (id : JobId) : Booked id System.empty :=
  ⟨by simp [System.empty], fun _ => rfl, by simp [System.empty, Store.empty],
    by simp [System.empty], by simp [System.empty]⟩

/-- Steps that leave the row, its starts and its open attempt as they are. -/
theorem frame {next : System} (hbooked : Booked id system)
    (hrow : next.store.jobs.get id = system.store.jobs.get id)
    (hstarts : starts next.log id = starts system.log id)
    (hthreads : ∀ (index : Nat) (thread : Thread), next.threads[index]? = some thread →
      thread.task.attempts id = false ∧ thread.task.disturbs id = false ∨
        system.threads[index]? = some thread) : Booked id next where
  calm index thread hthread := by
    obtain ⟨_, hcalm⟩ | hold := hthreads index thread hthread
    · exact hcalm
    · exact hbooked.calm index thread hold
  unpublished hnone := by
    rw [hstarts]
    exact hbooked.unpublished (hrow ▸ hnone)
  books row hget := by
    rw [hstarts]
    exact hbooked.books row (hrow ▸ hget)
  open_knows index owner delivery pc hthread hid hattempts := by
    rw [hrow, hstarts]
    obtain ⟨hnot, _⟩ | hold := hthreads index _ hthread
    · simp [Task.attempts, hid, hattempts] at hnot
    · exact hbooked.open_knows index owner delivery pc hold hid hattempts
  alone first second one other hone hother hfirst hsecond := by
    obtain ⟨hnot, _⟩ | hold := hthreads first one hone
    · rw [hnot] at hfirst
      cases hfirst
    obtain ⟨hnot, _⟩ | hlast := hthreads second other hother
    · rw [hnot] at hsecond
      cases hsecond
    exact hbooked.alone first second one other hold hlast hfirst hsecond

theorem spawned (hbooked : Booked id system) (owner : Owner) {task : Task}
    (hattempts : task.attempts id = false) (hcalm : task.disturbs id = false) :
    Booked id (system.spawn owner task) := by
  refine hbooked.frame rfl rfl fun index thread hthread => ?_
  obtain hold | ⟨_, rfl⟩ := System.thread_spawn hthread
  · exact .inr hold
  · exact .inl ⟨hattempts, hcalm⟩

theorem popped (hbooked : Booked id system) (fault : Fault) (channel : Channel) :
    Booked id (system.popped fault channel) := by
  refine hbooked.frame ?_ rfl fun _ _ hthread => .inr hthread
  change (system.store.perform fault (.brpop channel)).jobs.get id = _
  rw [Store.get_perform]
  split <;> rfl

theorem crashed (hbooked : Booked id system) (owner : Owner) :
    Booked id (system.crashed owner) := by
  refine hbooked.frame rfl rfl fun index thread hthread => ?_
  obtain hdead | ⟨_, hold⟩ := System.thread_crashed hthread
  · exact .inl (by rw [hdead]; exact ⟨rfl, rfl⟩)
  · exact .inr hold

theorem none_open (hbooked : Booked id system)
    (hrow : ∀ row, system.store.jobs.get id = some row → row.status ≠ .running)
    (index : Nat) (thread : Thread) (hthread : system.threads[index]? = some thread) :
    thread.task.attempts id = false := by
  obtain ⟨owner, task⟩ := thread
  cases task with
  | deliver delivery pc =>
    refine Bool.eq_false_iff.mpr fun hattempts => ?_
    simp only [Task.attempts, Bool.and_eq_true, decide_eq_true_eq] at hattempts
    obtain ⟨row, hget, hrunning, _⟩ :=
      hbooked.open_knows index owner delivery pc hthread hattempts.1 hattempts.2
    exact hrow row hget hrunning
  | _ => rfl

/-- A step of one thread that sets the row, beside threads with no open attempt. -/
theorem turned {next : System} (hbooked : Booked id system) {index : Nat} {owner : Owner}
    {task : Task} (row : Job) (hrow : next.store.jobs.get id = some row)
    (hbooks : row.Books (starts next.log id).length)
    (hthreads : ∀ (other : Nat) (thread : Thread), next.threads[other]? = some thread →
      other = index ∧ thread = ⟨owner, task⟩ ∨
        other ≠ index ∧ system.threads[other]? = some thread)
    (hothers : ∀ (other : Nat) (thread : Thread), other ≠ index →
      system.threads[other]? = some thread → thread.task.attempts id = false)
    (hcalm : task.disturbs id = false)
    (hknows : ∀ delivery pc, task = .deliver delivery pc → pc.attempts = true →
      row.status = .running ∧ pc.Knows row (starts next.log id).length) : Booked id next where
  calm other thread hthread := by
    obtain ⟨_, rfl⟩ | ⟨_, hold⟩ := hthreads other thread hthread
    · exact hcalm
    · exact hbooked.calm other thread hold
  unpublished hnone := by
    rw [hrow] at hnone
    cases hnone
  books other hget := by
    cases hrow.symm.trans hget
    exact hbooks
  open_knows other opener delivery pc hthread hid hattempts := by
    obtain ⟨_, hsame⟩ | ⟨hne, hold⟩ := hthreads other _ hthread
    · cases hsame
      exact ⟨row, hrow, hknows delivery pc rfl hattempts⟩
    · have hnot := hothers other _ hne hold
      simp [Task.attempts, hid, hattempts] at hnot
  alone first second one other hone hother hfirst hsecond := by
    obtain ⟨rfl, _⟩ | ⟨hne, hold⟩ := hthreads first one hone
    · obtain ⟨rfl, _⟩ | ⟨hne, hold⟩ := hthreads second other hother
      · rfl
      · rw [hothers second other hne hold] at hsecond
        cases hsecond
    · rw [hothers first one hne hold] at hfirst
      cases hfirst

theorem moved (hbooked : Booked id system) {index : Nat} {owner : Owner} {env : Env}
    {task : Task} {move : Move Task} (hthread : system.threads[index]? = some ⟨owner, task⟩)
    (hturn : Turn id system.now env system.store task move) :
    Booked id (system.moved index owner env.fault move) := by
  have hget : (system.moved index owner env.fault move).store.jobs.get id =
      if move.command.lands env.fault then move.command.onRow id (system.store.jobs.get id)
      else system.store.jobs.get id := system.store.get_perform env.fault move.command id
  have hlog : (system.moved index owner env.fault move).log =
      move.events.map (index, ·) ++ system.log := rfl
  have hsame (events : List Event) (hevents : ∀ event ∈ events, event.startOf id = none)
      (hmove : move.events = events) :
      starts (system.moved index owner env.fault move).log id = starts system.log id := by
    rw [hlog, hmove]
    exact starts_append_of_none hevents index system.log
  have hone (hattempts : task.attempts id = true) (other : Nat) (thread : Thread)
      (hne : other ≠ index) (hother : system.threads[other]? = some thread) :
      thread.task.attempts id = false := by
    refine Bool.eq_false_iff.mpr fun hopen => hne ?_
    exact hbooked.alone other index thread _ hother hthread hopen hattempts
  have hnone (hrow : ∀ row, system.store.jobs.get id = some row → row.status ≠ .running)
      (other : Nat) (thread : Thread) (_ : other ≠ index)
      (hother : system.threads[other]? = some thread) : thread.task.attempts id = false :=
    hbooked.none_open hrow other thread hother
  have hcalm := hbooked.calm index _ hthread
  cases hturn with
  | aside _ _ hrow hstarts hnext hrest =>
    refine hbooked.frame ?_ (hsame move.events hstarts rfl) fun other thread hother => ?_
    · rw [hget, hrow]
      split <;> rfl
    · obtain ⟨_, rfl⟩ | ⟨_, hold⟩ := System.thread_moved hother
      · exact .inl ⟨hnext, hrest⟩
      · exact .inr hold
  | inserts request asked hfault habsent =>
    have hstarts := hsame _ (by simp [Event.startOf]) rfl
    refine hbooked.turned request.job ?_ ?_ (fun _ _ => System.thread_moved)
      (hnone fun row hrow => ?_) rfl (by rintro _ _ ⟨⟩)
    · rw [hget, hfault, habsent]
      simp [Command.onRow]
    · rw [hstarts, hbooked.unpublished habsent]
      exact ⟨rfl, .inl rfl⟩
    · rw [habsent] at hrow
      cases hrow
  | resumes key existing hrow hresume =>
    simp only [Job.canResume, Bool.and_eq_true, decide_eq_true_eq] at hresume
    have hbooks := hbooked.books existing hrow
    simp only [Job.Books, hresume.1.1] at hbooks
    omega
  | claims delivery job row hfault hid hrow hpending =>
    have hstarts := hsame _ (by simp [Event.startOf]) rfl
    have hbooks := hbooked.books row hrow
    simp only [Job.Books, hpending] at hbooks
    refine hbooked.turned (Command.claimRow system.now delivery.runner row) ?_ ?_
      (fun _ _ => System.thread_moved) (hnone fun other hother => ?_) ?_ ?_
    · rw [hget, hfault, hrow]
      simp [Command.onRow]
    · rw [hstarts, Command.claimRow, if_pos hpending]
      change 1 ≤ row.attempt + 1 ∧
        (row.attempt + 1 = 1 ∨ ((row.attempt + 1 : Nat) : Int) ≤ row.maxRetries)
      omega
    · cases hrow.symm.trans hother
      rw [hpending]
      decide
    · simp [Task.disturbs, DeliverPc.ends]
    · rintro _ _ ⟨⟩ _
      rw [hstarts, Command.claimRow, if_pos hpending]
      exact ⟨rfl, congrArg (· + 1) hbooks.1⟩
  | refreshes delivery job row hid hrow =>
    have hstarts := hsame _ (by simp) rfl
    obtain ⟨old, hold, hrunning, hknows⟩ :=
      hbooked.open_knows index owner delivery _ hthread hid rfl
    cases hrow.symm.trans hold
    refine hbooked.turned row ?_ ?_ (fun _ _ => System.thread_moved)
      (hone (by simp [Task.attempts, DeliverPc.attempts, hid])) ?_ ?_
    · rw [hget, hrow]
      exact ite_self _
    · rw [hstarts]
      exact hbooked.books row hrow
    · simp [Task.disturbs, DeliverPc.ends]
    · rintro _ _ ⟨⟩ _
      rw [hstarts]
      exact ⟨hrunning, hknows⟩
  | starts delivery job hid =>
    obtain ⟨row, hrow, hrunning, hknows⟩ :=
      hbooked.open_knows index owner delivery _ hthread hid rfl
    have hstarts : (starts (system.moved index owner env.fault
        ⟨.deliver delivery (.running job), .read, [.started id job.attempt]⟩).log id).length =
        row.attempt := by
      rw [hlog, ← hknows]
      simp
    have hbooks := hbooked.books row hrow
    simp only [Job.Books, hrunning] at hbooks
    refine hbooked.turned row ?_ ?_ (fun _ _ => System.thread_moved)
      (hone (by simp [Task.attempts, DeliverPc.attempts, hid])) ?_ ?_
    · rw [hget, hrow]
      exact ite_self _
    · simpa only [Job.Books, hrunning] using hbooks
    · simp [Task.disturbs, DeliverPc.ends]
    · rintro _ _ ⟨⟩ _
      exact ⟨hrunning, hstarts⟩
  | raises delivery job hid =>
    have hstarts := hsame _ (by simp) rfl
    obtain ⟨row, hrow, hrunning, hknows⟩ :=
      hbooked.open_knows index owner delivery _ hthread hid rfl
    refine hbooked.turned row ?_ ?_ (fun _ _ => System.thread_moved)
      (hone (by simp [Task.attempts, DeliverPc.attempts, hid])) ?_ ?_
    · rw [hget, hrow]
      exact ite_self _
    · rw [hstarts]
      exact hbooked.books row hrow
    · simp [Task.disturbs, DeliverPc.ends]
    · rintro _ _ ⟨⟩ _
      rw [hstarts]
      exact ⟨hrunning, hknows⟩
  | reloads delivery error row hid hrow =>
    have hstarts := hsame _ (by simp) rfl
    obtain ⟨old, hold, hrunning, hknows⟩ :=
      hbooked.open_knows index owner delivery _ hthread hid rfl
    cases hrow.symm.trans hold
    refine hbooked.turned row ?_ ?_ (fun _ _ => System.thread_moved)
      (hone (by simp [Task.attempts, DeliverPc.attempts, hid])) ?_ ?_
    · rw [hget, hrow]
      exact ite_self _
    · rw [hstarts]
      exact hbooked.books row hrow
    · split <;> simp [Task.disturbs, DeliverPc.ends]
    · rintro _ _ ⟨⟩ _
      rw [hstarts]
      refine ⟨hrunning, ?_⟩
      split
      next hretry => exact ⟨hknows, rfl, hretry⟩
      next hretry => exact ⟨hknows, hretry⟩
  | retries delivery job error hfault hid =>
    have hstarts := hsame _ (by simp) rfl
    obtain ⟨row, hrow, hrunning, hknows, rfl, hretry⟩ :=
      hbooked.open_knows index owner delivery _ hthread hid rfl
    refine hbooked.turned
      ((Write.retry (job.retryAt system.now env.random) error env.text).apply job) ?_ ?_
      (fun _ _ => System.thread_moved) (hone (by simp [Task.attempts, DeliverPc.attempts, hid]))
      ?_ ?_
    · rw [hget, hfault, hrow]
      simp [Command.onRow]
    · rw [hstarts]
      exact ⟨hknows, .inr (by simpa [Job.hasRetryLeft] using hretry)⟩
    · simp [Task.disturbs, DeliverPc.ends]
    · rintro _ _ ⟨⟩ ⟨⟩
  | fails delivery job error hfault hid =>
    have hstarts := hsame _ (by simp) rfl
    obtain ⟨row, hrow, hrunning, hknows, hretry⟩ :=
      hbooked.open_knows index owner delivery _ hthread hid rfl
    have hbooks := hbooked.books row hrow
    simp only [Job.Books, hrunning] at hbooks
    refine hbooked.turned ((Write.failed system.now error env.text).apply row) ?_ ?_
      (fun _ _ => System.thread_moved) (hone (by simp [Task.attempts, DeliverPc.attempts, hid]))
      ?_ ?_
    · rw [hget, hfault, hrow]
      simp [Command.onRow]
    · rw [hstarts]
      have hle : row.maxRetries ≤ row.attempt := by simpa [Job.hasRetryLeft] using hretry
      exact ⟨hknows, hbooks.1, hle, hbooks.2⟩
    · simp [Task.disturbs, DeliverPc.ends]
    · rintro _ _ ⟨⟩ ⟨⟩

/-- Only the retry of an open attempt returns a running row to pending. -/
theorem backsOff (hbooked : Booked id system) {index : Nat} {owner : Owner} {env : Env}
    {task : Task} {move : Move Task} (hthread : system.threads[index]? = some ⟨owner, task⟩)
    (hturn : Turn id system.now env system.store task move) {row after : Job}
    (hrow : system.store.jobs.get id = some row)
    (hafter : (system.moved index owner env.fault move).store.jobs.get id = some after)
    (hrunning : row.status = .running) (hpending : after.status = .pending) :
    after.runAt = some
      (jittered system.now (row.retryBase (starts system.log id).length) env.random) := by
  change (system.store.perform env.fault move.command).jobs.get id = some after at hafter
  rw [Store.get_perform, hrow] at hafter
  have hkept (hkeeps : move.command.onRow id (some row) = some row) : False := by
    rw [hkeeps, ite_self] at hafter
    cases hafter
    rw [hrunning] at hpending
    cases hpending
  cases hturn with
  | aside _ _ hrest => exact (hkept (hrest _)).elim
  | inserts request asked hfault habsent =>
    rw [hrow] at habsent
    cases habsent
  | resumes key existing hexisting hresume =>
    cases hrow.symm.trans hexisting
    simp [Job.canResume, hrunning] at hresume
  | claims delivery job other hfault hid hother hclaimable =>
    cases hrow.symm.trans hother
    rw [hrunning] at hclaimable
    cases hclaimable
  | refreshes | starts | raises | reloads => exact (hkept rfl).elim
  | retries delivery job error hfault hid =>
    obtain ⟨old, hold, _, hknows, rfl, _⟩ :=
      hbooked.open_knows index owner delivery _ hthread hid rfl
    cases hrow.symm.trans hold
    simp only [hfault, Command.lands_none, if_true, Command.onRow, Option.map_some,
      Option.some.injEq] at hafter
    rw [← hafter, hknows]
    rfl
  | fails delivery job error hfault hid =>
    simp only [hfault, Command.lands_none, if_true, Command.onRow, Option.map_some,
      Option.some.injEq] at hafter
    rw [← hafter] at hpending
    cases hpending

theorem opens_quiet (id : JobId) {action : Action} {owner : Owner} {task : Task}
    (hopens : system.opens action = some (owner, task)) :
    task.attempts id = false ∧ task.disturbs id = false := by
  cases action with
  | beat opener entries =>
    simp only [System.opens] at hopens
    split at hopens <;> cases hopens
    exact ⟨rfl, rfl⟩
  | tick | claim | advance | crash => cases hopens
  | reap opener channels =>
    cases hopens
    refine ⟨rfl, ?_⟩
    rw [Task.disturbs, Turn.taken_nextChannel]
    rfl
  | publish | schedule | cancel =>
    cases hopens
    exact ⟨rfl, rfl⟩

/-- A step of an undisturbed job keeps its books and backs off as it should. -/
theorem step {action : Action} {next : System} (hbooked : Booked id system)
    (hleft : leftToHandler id system action = true) (hstep : system.step action = some next) :
    Booked id next ∧ BacksOff id system action next := by
  cases System.step_cases hstep with
  | tick elapsed =>
    exact ⟨hbooked.frame rfl rfl fun _ _ hthread => .inr hthread, by rintro _ _ _ _ ⟨⟩⟩
  | opened _ owner task hopens =>
    obtain ⟨hattempts, hcalm⟩ := opens_quiet id hopens
    refine ⟨hbooked.spawned owner hattempts hcalm, ?_⟩
    rintro _ _ _ _ rfl
    cases hopens
  | lostPop _ _ fault channel =>
    exact ⟨hbooked.popped fault channel, by rintro _ _ _ _ ⟨⟩⟩
  | claimed owner _ fault channel =>
    refine ⟨(hbooked.popped fault channel).spawned owner ?_ ?_, by rintro _ _ _ _ ⟨⟩⟩ <;>
      simp [Task.attempts, Task.disturbs, DeliverPc.attempts, DeliverPc.ends]
  | crashed owner => exact ⟨hbooked.crashed owner, by rintro _ _ _ _ ⟨⟩⟩
  | moved index env owner task move hthread hmove =>
    simp only [leftToHandler, hthread, Option.all_some] at hleft
    have hheld (hattempts : task.attempts id = true) :
        (system.store.jobs.get id).isSome := by
      cases task with
      | deliver delivery pc =>
        simp only [Task.attempts, Bool.and_eq_true, decide_eq_true_eq] at hattempts
        obtain ⟨row, hrow, _⟩ :=
          hbooked.open_knows index owner delivery pc hthread hattempts.1 hattempts.2
        rw [hrow]
        rfl
      | _ => cases hattempts
    have hturn := Turn.of_move (hbooked.calm index _ hthread) hleft hheld hmove
    refine ⟨hbooked.moved hthread hturn, ?_⟩
    rintro _ _ row after ⟨⟩ hrow hafter hrunning hpending
    exact hbooked.backsOff hthread hturn hrow hafter hrunning hpending

theorem starts_of_failed (hbooked : Booked id system) {row : Job}
    (hrow : system.store.jobs.get id = some row) (hfailed : row.status = .failed) :
    ((starts system.log id).length : Int) = max 1 row.maxRetries := by
  have hbooks := hbooked.books row hrow
  simp only [Job.Books, hfailed] at hbooks
  omega

end Booked

/-- In every run that leaves a job to its handler, a failed row has had its one start and
its retries exactly when no retry was allowed, and each retry backs off by its number. -/
theorem startedOnceMoreThanRetried_iff_noRetries (id : JobId) (actions : List Action)
    (hleft : EachStep System.step (fun system action _ => leftToHandler id system action)
      System.empty actions) :
    Always System.step (fun system => ∀ row, system.store.jobs.get id = some row →
        row.status = .failed → 0 ≤ row.maxRetries →
        (((starts system.log id).length : Int) = 1 + row.maxRetries ↔ row.maxRetries = 0))
      System.empty actions ∧
    EachStep System.step (BacksOff id) System.empty actions := by
  refine ⟨?_, ?_⟩
  · refine Always.imp (fun system (hbooked : Booked id system) row hrow hfailed hlimit => ?_) ?_
    · rw [hbooked.starts_of_failed hrow hfailed]
      omega
    exact always_of_eachStep (fun _ _ _ hbooked hleft hstep => (hbooked.step hleft hstep).1)
      (Booked.empty id) hleft
  · exact EachStep.of_invariant (fun _ _ _ hbooked hleft hstep => hbooked.step hleft hstep)
      (Booked.empty id) hleft

def retriedUpTo (maxRetries : Int) : Request :=
  { channel := "default", func := "app.tasks.send", payload := "\x7b\x7d"
    expiresAt := 900000000, maxRetries }

/-- The job is published and delivered, and its handler raises. -/
def raisedOnce (maxRetries : Int) : List Action :=
  [.publish "api" 1 (retriedUpTo maxRetries)] ++ steps 0 2 ++
  [.claim "a-engine" ["default"] .none] ++ steps 1 5 ++
  [.advance 1 { raises := true, text := "refused" }] ++ steps 1 4

theorem startedOnceMoreThanRetried_raisedOnce :
    Always System.step (fun system => ∀ row, system.store.jobs.get 1 = some row →
        row.status = .failed → 0 ≤ row.maxRetries →
        (((starts system.log 1).length : Int) = 1 + row.maxRetries ↔ row.maxRetries = 0))
      System.empty (raisedOnce 0) ∧
    EachStep System.step (BacksOff 1) System.empty (raisedOnce 0) :=
  startedOnceMoreThanRetried_iff_noRetries 1 (raisedOnce 0) (by decide +kernel)

/-- A job that may be retried once is failed by its first run. -/
theorem not_startedOnceMoreThanRetried_retriedOnce :
    EachStep System.step (fun system action _ => leftToHandler 1 system action)
      System.empty (raisedOnce 1) ∧
    ¬ Always System.step (StartedOnceMoreThanRetried 1) System.empty (raisedOnce 1) :=
  ⟨by decide +kernel, not_always_of_run
    (fun system => (system.store.jobs.get 1).all fun row => row.status ≠ .failed ||
      ((starts system.log 1).length : Int) = 1 + row.maxRetries)
    (fun system hstarted => by
      rw [Option.all_eq_true]
      intro row hrow
      have hrun := hstarted row hrow
      simp only [Bool.or_eq_true, decide_eq_true_eq]
      by_cases hfailed : row.status = .failed
      · exact .inr (hrun hfailed)
      · exact .inl hfailed) (by decide +kernel)⟩

end DjangoMojo.Jobs
