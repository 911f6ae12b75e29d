import DjangoMojo.Jobs.System

/-! # Attempt numbers

The attempt column is raised by the claim and by nothing else, and a handler
start is the third step after a claim. Every other step is quiet: it neither
claims a row nor starts a handler.
-/

namespace DjangoMojo.Jobs

open Foundation

/-- The attempt column of a row, zero for a row that does not exist. -/
def Store.attempt (store : Store) (id : JobId) : Nat :=
  ((store.jobs.get id).map Job.attempt).getD 0

/-- A command that leaves the attempt column of every row alone. -/
def Command.keepsAttempt : Command → Bool
  | .claim .. => false
  | .insert _ job => job.attempt = 0
  | _ => true

theorem Job.mirror_keepsAttempt (job : Job) (id : JobId) (asked : Time) :
    (job.mirror id asked).keepsAttempt = true := by
  rw [Job.mirror]
  split
  · split <;> rfl
  · rfl

theorem Store.attempt_perform (store : Store) (fault : Fault) {command : Command}
    (hkeeps : command.keepsAttempt = true) (id : JobId) :
    (store.perform fault command).attempt id = store.attempt id := by
  rw [attempt, attempt, get_perform]
  split
  case isFalse => rfl
  cases command with
  | claim => cases hkeeps
  | insert other job =>
    have hzero : job.attempt = 0 := by simpa [Command.keepsAttempt] using hkeeps
    rw [Command.onRow]
    split
    · cases store.jobs.get id <;> simp [hzero]
    · rfl
  | save other write =>
    rw [Command.onRow]
    split
    · cases store.jobs.get id <;> simp
    · rfl
  | reset other =>
    rw [Command.onRow]
    split
    · cases store.jobs.get id with
      | none => rfl
      | some row =>
        rw [Option.map_some, Command.resetRow]
        split <;> rfl
    · rfl
  | _ => rfl

theorem Store.attempt_claim {store : Store} {id : JobId} {row : Job} (startedAt : Time)
    (runner : String) (hrow : store.jobs.get id = some row) (hpending : row.status = .pending)
    (other : JobId) :
    (store.perform .none (.claim id startedAt runner)).attempt other =
      if other = id then store.attempt other + 1 else store.attempt other := by
  have hlands : (Command.claim id startedAt runner).lands .none = true := rfl
  rw [attempt, attempt, get_perform, if_pos hlands, Command.onRow]
  split
  next heq => simp [heq, hrow, Command.claimRow, hpending]
  next => rfl

namespace Event

/-- The attempt number with which an event starts the handler of a job. -/
def startOf (id : JobId) : Event → Option Nat
  | .started other attempt => if other = id then some attempt else none
  | _ => none

def isQuiet : Event → Bool
  | .claimed _ | .started .. => false
  | .created _ | .queued _ | .resumed _ => true

theorem startOf_of_isQuiet {event : Event} (hquiet : event.isQuiet = true) (id : JobId) :
    event.startOf id = none := by
  cases event <;> first | rfl | cases hquiet

end Event

/-- The attempt numbers of a job's handler starts, newest first. -/
def starts (log : List (Nat × Event)) (id : JobId) : List Nat :=
  log.filterMap fun entry => entry.2.startOf id

def lastClaim (log : List (Nat × Event)) (id : JobId) : Option Nat :=
  (log.find? fun entry => entry.2 = .claimed id).map Prod.fst

theorem starts_append_quiet {events : List Event} (hquiet : ∀ event ∈ events, event.isQuiet)
    (thread : Nat) (log : List (Nat × Event)) (id : JobId) :
    starts (events.map (thread, ·) ++ log) id = starts log id := by
  have hnone : (events.map (thread, ·)).filterMap (fun entry => entry.2.startOf id) = [] := by
    rw [List.filterMap_eq_nil_iff]
    rintro _ hentry
    obtain ⟨event, hevent, rfl⟩ := List.mem_map.mp hentry
    exact Event.startOf_of_isQuiet (hquiet event hevent) id
  rw [starts, List.filterMap_append, hnone, List.nil_append, starts]

theorem lastClaim_append_quiet {events : List Event} (hquiet : ∀ event ∈ events, event.isQuiet)
    (thread : Nat) (log : List (Nat × Event)) (id : JobId) :
    lastClaim (events.map (thread, ·) ++ log) id = lastClaim log id := by
  have hnone : (events.map (thread, ·)).find? (fun entry => entry.2 = .claimed id) = none := by
    rw [List.find?_eq_none]
    rintro _ hentry
    obtain ⟨event, hevent, rfl⟩ := List.mem_map.mp hentry
    have := hquiet event hevent
    simp only [decide_eq_true_eq]
    rintro rfl
    cases this
  rw [lastClaim, List.find?_append, hnone, Option.none_or, lastClaim]

@[simp] theorem starts_started (thread : Nat) (other : JobId) (attempt : Nat)
    (log : List (Nat × Event)) (id : JobId) :
    starts ((thread, .started other attempt) :: log) id =
      if other = id then attempt :: starts log id else starts log id := by
  by_cases heq : other = id <;> simp [starts, Event.startOf, heq]

@[simp] theorem lastClaim_claimed (thread : Nat) (other : JobId) (log : List (Nat × Event))
    (id : JobId) :
    lastClaim ((thread, .claimed other) :: log) id =
      if other = id then some thread else lastClaim log id := by
  by_cases heq : other = id <;> simp [lastClaim, heq]

@[simp] theorem lastClaim_started (thread : Nat) (other : JobId) (attempt : Nat)
    (log : List (Nat × Event)) (id : JobId) :
    lastClaim ((thread, .started other attempt) :: log) id = lastClaim log id := by
  simp [lastClaim]

def DeliverPc.awaits : DeliverPc → Bool
  | .refresh _ | .begin _ => true
  | _ => false

/-- The job a delivery has claimed and whose handler it has not started. -/
def Task.awaiting : Task → Option JobId
  | .deliver delivery pc => if pc.awaits then some delivery.id else none
  | _ => none

theorem System.opens_awaiting {system : System} {action : Action} {owner : Owner} {task : Task}
    (hopens : system.opens action = some (owner, task)) : task.awaiting = none := by
  cases action with
  | beat opener entries =>
    simp only [System.opens] at hopens
    split at hopens <;> cases hopens
    rfl
  | tick | claim | advance | crash => cases hopens
  | publish | reap | schedule | cancel =>
    cases hopens
    rfl

/-- What one move does to the attempt column, to the log and to the deliveries
between claim and start. -/
inductive AttemptMove (now : Time) (env : Env) (store : Store) : Task → Move Task → Prop where
  | quiet (task : Task) (move : Move Task) (hnext : move.next.awaiting = none)
      (hevents : ∀ event ∈ move.events, event.isQuiet = true)
      (hcommand : move.command.keepsAttempt = true) :
      AttemptMove now env store task move
  | claims (delivery : Delivery) (job row : Job)
      (hrow : store.jobs.get delivery.id = some row) (hpending : row.status = .pending)
      (hfault : env.fault = .none) :
      AttemptMove now env store (.deliver delivery (.claim job))
        ⟨.deliver delivery (.refresh job), .claim delivery.id now delivery.runner,
          [.claimed delivery.id]⟩
  | refreshes (delivery : Delivery) (job row : Job)
      (hrow : store.jobs.get delivery.id = some row) :
      AttemptMove now env store (.deliver delivery (.refresh job))
        ⟨.deliver delivery (.begin row), .read, []⟩
  | starts (delivery : Delivery) (job : Job) (hraises : env.raises = false) :
      AttemptMove now env store (.deliver delivery (.begin job))
        ⟨.deliver delivery (.running job), .read, [.started delivery.id job.attempt]⟩

namespace AttemptMove

variable {now : Time} {env : Env} {store : Store}

theorem of_publish {pc : PublishPc} {move : Move PublishPc}
    (hmove : pc.move now env store = some move) :
    AttemptMove now env store (.publish pc) (move.map .publish) := by
  refine .quiet _ _ rfl ?_ ?_ <;> revert hmove <;>
    fun_cases PublishPc.move now env store pc <;> rintro ⟨⟩ <;>
    first | rfl | simp [Event.isQuiet, Job.mirror_keepsAttempt]

theorem of_reap {cutoff : Int} {pc : ReapPc} {move : Move ReapPc}
    (hmove : pc.move now env store cutoff = some move) :
    AttemptMove now env store (.reap cutoff pc) (move.map (.reap cutoff)) := by
  refine .quiet _ _ rfl ?_ ?_ <;> revert hmove <;>
    fun_cases ReapPc.move now env store cutoff pc <;> rintro ⟨⟩ <;> first | rfl | simp

theorem of_schedule {moment : Time} {pc : SchedulePc} {move : Move SchedulePc}
    (hmove : pc.move env store moment = some move) :
    AttemptMove now env store (.schedule moment pc) (move.map (.schedule moment)) := by
  refine .quiet _ _ rfl ?_ ?_ <;> revert hmove <;>
    fun_cases SchedulePc.move env store moment pc <;> rintro ⟨⟩ <;> first | rfl | simp

theorem of_cancel {pc : CancelPc} {move : Move CancelPc}
    (hmove : pc.move now env store = some move) :
    AttemptMove now env store (.cancel pc) (move.map .cancel) := by
  refine .quiet _ _ rfl ?_ ?_ <;> revert hmove <;>
    fun_cases CancelPc.move now env store pc <;> rintro ⟨⟩ <;> first | rfl | simp

theorem awaits_afterLoad (job : Job) : (DeliverPc.afterLoad now job).awaits = false := by
  rw [DeliverPc.afterLoad]
  split
  · rfl
  · split <;> rfl

theorem awaits_afterRelease (recordMetrics : Bool) :
    (DeliverPc.afterRelease recordMetrics).awaits = false := by
  cases recordMetrics <;> rfl

theorem of_deliver {delivery : Delivery} {pc : DeliverPc} {move : Move DeliverPc}
    (hmove : pc.move now env store delivery = some move) :
    AttemptMove now env store (.deliver delivery pc) (move.map (.deliver delivery)) := by
  cases pc with
  | claim job =>
    simp only [DeliverPc.move] at hmove
    split at hmove
    · cases hmove
      exact .quiet _ _ rfl (by simp) rfl
    split at hmove
    next hraised hpending =>
      cases hmove
      obtain ⟨row, hrow, hstatus⟩ := (Option.any_eq_true ..).mp hpending
      have hfault : env.fault = .none := by
        cases hfault : env.fault <;> simp_all [Fault.raised]
      exact .claims delivery job row hrow (by simpa using hstatus) hfault
    next =>
      cases hmove
      exact .quiet _ _ rfl (by simp) rfl
  | refresh job =>
    simp only [DeliverPc.move] at hmove
    split at hmove
    · cases hmove
      exact .quiet _ _ rfl (by simp) rfl
    split at hmove
    next =>
      cases hmove
      exact .quiet _ _ rfl (by simp) rfl
    next row hrow =>
      cases hmove
      exact .refreshes delivery job row hrow
  | begin job =>
    simp only [DeliverPc.move] at hmove
    split at hmove
    next =>
      cases hmove
      exact .quiet _ _ rfl (by simp) rfl
    next hraises =>
      cases hmove
      exact .starts delivery job (by simpa using hraises)
  | _ =>
    refine .quiet _ _ ?_ ?_ ?_ <;> revert hmove <;> simp only [DeliverPc.move] <;>
      (repeat' split) <;> rintro ⟨⟩ <;>
      first | rfl | simp [Task.awaiting, awaits_afterLoad, awaits_afterRelease]

theorem of_move {task : Task} {move : Move Task}
    (hmove : task.move now env store = some move) : AttemptMove now env store task move :=
  Task.move_cases (fun _ _ => of_publish) (fun _ _ _ => of_deliver) (fun _ _ _ => of_reap)
    (fun _ _ _ => of_schedule) (fun _ _ => of_cancel)
    (fun _ _ _ _ => .quiet _ _ rfl (by simp) rfl) hmove

end AttemptMove

end DjangoMojo.Jobs
