import DjangoMojo.Jobs.Publish

/-! # Operator recovery

The six ways an operator puts a job back to work. Three publish the job again
under a new id, two append its id to a stream of the earlier design, and one
pushes the id onto the queue list. Engines read the queue lists and the
scheduler reads the sched ZSETs.
-/

namespace DjangoMojo.Jobs

namespace Call

def saveRow (call : Call) (id : JobId) (change : Job → Job) : Call :=
  { call with
    store :=
      if call.env.fault.raised then call.store
      else { call.store with jobs := call.store.jobs.modify id change }
    envs := call.envs.tail }

def xadd (call : Call) (channel : Channel) (broadcast : Bool) (id : JobId) : Call :=
  { call with
    stream := fun other kind =>
      if other = channel ∧ kind = broadcast ∧ call.env.fault ≠ .lost
      then call.stream other kind ++ [id] else call.stream other kind
    envs := call.envs.tail }

def raised (call : Call) : Bool := call.env.fault.raised

end Call

/-- Whether a recovery call reports success, and for which jobs. -/
structure Report where
  success : Bool
  handled : List JobId
  deriving DecidableEq

def Report.failure : Report := ⟨false, []⟩

namespace Job

def delayedUntil (now : Time) (delay : Option Int) : Option Time :=
  (delay.filter (· ≠ 0)).map fun delay => now + seconds delay

/-- The reset of `JobActionsService.retry_job`. -/
def resetForRetry (now : Time) (delay : Option Int) (job : Job) : Job :=
  { job with
    status := .pending, attempt := 0, lastError := "", stackTrace := ""
    cancelRequested := false, runnerId := none, startedAt := none, finishedAt := none
    runAt := delayedUntil now delay }

/-- The reset of `JobManager.retry_job`. -/
def resetByManager (now : Time) (delay : Option Int) (job : Job) : Job :=
  { job with
    status := .pending, attempt := 0, lastError := "", stackTrace := ""
    runAt := delayedUntil now delay }

def resumePaused (resumedAt : String) (job : Job) : Job :=
  { job with
    status := .pending
    metadata := ((job.metadata.pop "paused").pop "paused_at").set "resumed_at" resumedAt }

/-- The reset of `recover_stale_running`. -/
def resetStale (job : Job) : Job :=
  { job with
    status := .pending, runnerId := none, cancelRequested := false, startedAt := none
    finishedAt := none }

def republishArgs (job : Job) : PublishArgs where
  func := job.func
  payload := job.payload
  channel := job.channel
  runAt := job.runAt
  broadcast := job.broadcast
  maxRetries := some job.maxRetries
  backoffBase := some job.backoffBase
  backoffMax := some job.backoffMaxSec
  expiresAt := job.expiresAt
  maxExecSeconds := job.maxExecSeconds

end Job

namespace Call

/-- Save the reset row, publish the job again and record an event, which the
manager does without. -/
def republish (call : Call) (id : JobId) (change : Job → Job)
    (args : PublishArgs) (recordsEvent : Bool) : Report × Call :=
  if call.raised then (.failure, call.saveRow id change)
  else
    match (call.saveRow id change).publish args with
    | (none, call) => (.failure, call)
    | (some ids, call) =>
      if recordsEvent && call.env.raises then (.failure, call)
      else (⟨true, id :: ids⟩, call)

/-- `JobActionsService.retry_job` on an instance just read. -/
def retryJob (call : Call) (id : JobId) (delay : Option Int) : Report × Call :=
  match call.store.jobs.get id with
  | none => (.failure, call)
  | some job =>
    if job.status ∈ [.failed, .canceled, .expired] then
      call.republish id (Job.resetForRetry call.now delay)
        (Job.resetForRetry call.now delay job).republishArgs true
    else (.failure, call)

def resumeJob (call : Call) (id : JobId) : Report × Call :=
  match call.store.jobs.get id with
  | none => (.failure, call)
  | some job =>
    if job.status = .canceled && job.metadata.isSet "paused" then
      call.republish id (Job.resumePaused call.env.text)
        (Job.resumePaused call.env.text job).republishArgs true
    else (.failure, call)

/-- `JobManager.retry_job`, which leaves the backoff to the defaults. -/
def managerRetryJob (call : Call) (id : JobId) (delay : Option Int) : Report × Call :=
  match call.store.jobs.get id with
  | none => (.failure, call)
  | some job =>
    if job.status ∈ [.failed, .canceled] then
      call.republish id (Job.resetByManager call.now delay)
        { (Job.resetByManager call.now delay job).republishArgs with
          backoffBase := none, backoffMax := none } false
    else (.failure, call)

def requeueEach (channel : Channel) : List (JobId × Job) → Call → List JobId × Call
  | [], call => ([], call)
  | (id, job) :: rest, call =>
    let (ids, after) := requeueEach channel rest (call.xadd channel job.broadcast id)
    (if call.raised then ids else id :: ids, after)

def select (call : Call) (condition : Job → Bool) : List (JobId × Job) :=
  (call.store.jobs.select fun _ job => condition job).filterMap fun id =>
    (call.store.jobs.get id).map fun job => (id, job)

/-- `requeue_db_pending`. The query may fail, and a negative limit is a slicing
error. -/
def requeueDbPending (call : Call) (channel : Channel) (limit : Option Int) : Report × Call :=
  if limit.any (· < 0) || call.raised then (.failure, call.issue .read)
  else
    let rows := call.select fun job => job.channel = channel && job.status = .pending
    let rows := rows.take (limit.elim rows.length Int.toNat)
    let (ids, after) := requeueEach channel rows (call.issue .read)
    (⟨true, ids⟩, after)

/-- Reset each selected row and XADD its id. A failed save skips the row, a
failed XADD is only reported. -/
def recoverEach : List (JobId × Job) → Call → List JobId × Call
  | [], call => ([], call)
  | (id, job) :: rest, call =>
    if call.raised then recoverEach rest (call.saveRow id Job.resetStale)
    else
      let (ids, after) := recoverEach rest
        ((call.saveRow id Job.resetStale).xadd job.channel job.broadcast id)
      (id :: ids, after)

/-- The running rows of a channel, restricted to those started long enough ago. -/
def staleRunning (call : Call) (channel : Channel) (maxAgeSeconds : Option Int) :
    List (JobId × Job) :=
  call.select fun job =>
    job.channel = channel && job.status = .running &&
      (maxAgeSeconds.filter (0 < ·)).all fun age =>
        job.startedAt.any (· < call.now - seconds age)

/-- `order_by('started_at')`. -/
def byStartedAt (rows : List (JobId × Job)) : List (JobId × Job) :=
  rows.insertionSort fun first second => first.2.startedAt.getD 0 ≤ second.2.startedAt.getD 0

/-- `recover_stale_running` over the channels it resolves. A channel with jobs
in flight is skipped; a failed read of their number counts as none. A failed
query skips the channel too. -/
def recoverStaleRunning (maxAgeSeconds : Option Int) : List Channel → Call → Report × Call
  | [], call => (⟨true, []⟩, call)
  | channel :: rest, call =>
    let busy := !call.raised && !(call.store.redis.zset .processing channel).entries.isEmpty
    let call := call.issue .read
    if busy then recoverStaleRunning maxAgeSeconds rest call
    else if call.raised then recoverStaleRunning maxAgeSeconds rest (call.issue .read)
    else
      let (ids, call) := recoverEach (byStartedAt (call.staleRunning channel maxAgeSeconds))
        (call.issue .read)
      let (report, call) := recoverStaleRunning maxAgeSeconds rest call
      (⟨true, ids ++ report.handled⟩, call)

/-- Remove each candidate from the processing ZSET and push it onto the queue. -/
def requeueStuck (channel : Channel) : List JobId → Call → List JobId × Call
  | [], call => ([], call)
  | id :: rest, call =>
    let removed := call.issue (.zrem .processing channel id)
    if call.raised then requeueStuck channel rest removed
    else
      let (ids, after) := requeueStuck channel rest (removed.issue (.rpush channel id))
      (if removed.raised then ids else id :: ids, after)

/-- `clear_stuck_jobs`: the candidates older than the threshold, or all. -/
def clearStuckJobs (call : Call) (channel : Channel) (idleThresholdMs : Int) : Report × Call :=
  if call.raised then (.failure, call.issue .read)
  else
    let processing := call.store.redis.zset .processing channel
    let candidates :=
      if 0 < idleThresholdMs then
        (processing.entries.filter fun entry =>
          entry.1 ≤ milliseconds call.now - idleThresholdMs).map Prod.snd
      else processing.entries.map Prod.snd
    let (ids, after) := requeueStuck channel candidates (call.issue .read)
    (⟨true, ids⟩, after)

end Call

inductive Recovery where
  | retryJob (id : JobId) (delay : Option Int)
  | resumeJob (id : JobId)
  | managerRetryJob (id : JobId) (delay : Option Int)
  | requeueDbPending (channel : Channel) (limit : Option Int)
  | recoverStaleRunning (channels : List Channel) (maxAgeSeconds : Option Int)
  | clearStuckJobs (channel : Channel) (idleThresholdMs : Int)

namespace Recovery

def run (call : Call) : Recovery → Report × Call
  | .retryJob id delay => call.retryJob id delay
  | .resumeJob id => call.resumeJob id
  | .managerRetryJob id delay => call.managerRetryJob id delay
  | .requeueDbPending channel limit => call.requeueDbPending channel limit
  | .recoverStaleRunning channels maxAgeSeconds =>
    Call.recoverStaleRunning maxAgeSeconds channels call
  | .clearStuckJobs channel idleThresholdMs => call.clearStuckJobs channel idleThresholdMs

def pushesQueue : Recovery → Bool
  | .clearStuckJobs .. => true
  | _ => false

end Recovery

end DjangoMojo.Jobs
