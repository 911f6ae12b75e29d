import DjangoMojo.Jobs.Publish

/-! # Delivering one job

What an engine does with an id it popped from a queue: `_main_loop` tracks it
in the processing ZSET and submits `execute_job`, which claims the row, runs
the job function and records the outcome, through `_handle_job_failure` when
anything raised.
-/

namespace DjangoMojo.Jobs

structure Delivery where
  channel : Channel
  id : JobId
  runner : String
  deriving DecidableEq

inductive DeliverPc where
  | track
  | load
  | dropLease
  | expire (job : Job)
  | claim (job : Job)
  /-- `job.refresh_from_db()` after the claim. -/
  | refresh (job : Job)
  /-- The running event, `load_job_function` and entering `execution`. -/
  | begin (job : Job)
  | running (job : Job)
  | complete (job : Job) (metadata : Metadata)
  /-- `_remove_from_processing` with that many further tries. -/
  | release (left : Nat) (recordMetrics : Bool)
  | metrics
  | failLoad (error : String)
  | retrySave (job : Job) (error : String)
  | retryAdd (job : Job) (runAt : Time)
  | failSave (job : Job) (error : String)
  | failMetrics
  | done

namespace DeliverPc

def afterRelease (recordMetrics : Bool) : DeliverPc :=
  if recordMetrics then .metrics else .done

def afterLoad (now : Time) (job : Job) : DeliverPc :=
  if job.status ≠ .pending then .release releaseRetries false
  else if job.isExpired now then .expire job
  else .claim job

def move (now : Time) (env : Env) (store : Store) (delivery : Delivery) :
    DeliverPc → Option (Move DeliverPc)
  | .track =>
    some { next := if env.raises then .done else .load
           command := .zadd .processing delivery.channel [(milliseconds now, delivery.id)] }
  | .load =>
    if env.fault.raised then some { next := .dropLease }
    else
      match store.jobs.get delivery.id with
      | none => some { next := .dropLease }
      | some job => some { next := afterLoad now job }
  | .dropLease => some { next := .done, command := .zrem .processing delivery.channel delivery.id }
  | .expire _ =>
    some { next := if env.fault.raised then .failLoad env.text else .release releaseRetries true
           command := .save delivery.id (.expired now) }
  | .claim job =>
    if env.fault.raised then some { next := .failLoad env.text }
    else if (store.jobs.get delivery.id).any fun row => row.status = .pending then
      some { next := .refresh job
             command := .claim delivery.id now delivery.runner
             events := [.claimed delivery.id] }
    else some { next := .release releaseRetries false }
  | .refresh _ =>
    if env.fault.raised then some { next := .failLoad env.text }
    else
      match store.jobs.get delivery.id with
      | none => some { next := .failLoad env.text }
      | some job => some { next := .begin job }
  | .begin job =>
    if env.raises then some { next := .failLoad env.text }
    else some { next := .running job, events := [.started delivery.id job.attempt] }
  | .running job =>
    if env.raises then some { next := .failLoad env.text }
    else some { next := .complete job env.metadata }
  | .complete _ metadata =>
    some { next := if env.fault.raised then .failLoad env.text else .release releaseRetries true
           command := .save delivery.id (.completed now metadata) }
  | .release left recordMetrics =>
    let released := !env.fault.raised &&
      decide (delivery.id ∈ store.redis.zset .processing delivery.channel)
    some { next := match left with
             | 0 => afterRelease recordMetrics
             | left + 1 =>
               if released then afterRelease recordMetrics
               else .release left recordMetrics
           command := .zrem .processing delivery.channel delivery.id }
  | .metrics =>
    some { next := if env.raises then .failLoad env.text else .done }
  | .failLoad error =>
    if env.fault.raised then some { next := .done }
    else
      match store.jobs.get delivery.id with
      | none => some { next := .done }
      | some job =>
        if job.hasRetryLeft then some { next := .retrySave job error }
        else some { next := .failSave job error }
  | .retrySave job error =>
    -- computing the backoff may overflow before the save is issued
    if env.raises then some { next := .done }
    else
      let runAt := job.retryAt now env.random
      some { next := if env.fault.raised then .done else .retryAdd job runAt
             command := .save delivery.id (.retry runAt error env.text) }
  | .retryAdd job runAt =>
    some { next := if env.fault.raised then .done else .failMetrics
           command := .zadd job.schedZset job.channel [(runAt, delivery.id)] }
  | .failSave _ error =>
    some { next := if env.fault.raised then .done else .failMetrics
           command := .save delivery.id (.failed now error env.text) }
  | .failMetrics =>
    some { next := if env.raises then .done else .release releaseRetries false }
  | .done => none

end DeliverPc

end DjangoMojo.Jobs
