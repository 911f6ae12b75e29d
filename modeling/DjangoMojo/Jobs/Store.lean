import Mathlib.Data.Rat.Floor
import DjangoMojo.Foundation.RedisData
import DjangoMojo.Foundation.Table

/-! # The Job row

One row of the jobs table. The primary key is not a column here: it is the
key under which the table holds the row, and every in-memory instance travels
with it. Instants are microseconds since the epoch.
-/

namespace DjangoMojo.Jobs

abbrev Time := Int

/-- `uuid4().hex`: 32 hexadecimal digits, ordered as the number they denote. -/
abbrev JobId := Nat

abbrev Channel := String

inductive Status where
  | pending | running | completed | failed | canceled | expired
  deriving DecidableEq, Repr

def Status.isTerminal : Status → Bool
  | .completed | .failed | .canceled | .expired => true
  | .pending | .running => false

/-- A JSON object, each value as the text `json.dumps` gives it. -/
abbrev Metadata := List (String × String)

namespace Metadata

/-- The texts of the JSON values that Python counts as false. -/
def falsy : List String := ["null", "false", "0", "0.0", "-0.0", "\"\"", "[]", "\x7b\x7d"]

/-- `bool(metadata.get(key))`. -/
def isSet (metadata : Metadata) (key : String) : Bool :=
  (metadata.lookup key).any fun value => value ∉ falsy

def pop (metadata : Metadata) (key : String) : Metadata :=
  metadata.filter fun entry => entry.1 ≠ key

def set (metadata : Metadata) (key value : String) : Metadata :=
  metadata.pop key ++ [(key, value)]

end Metadata

structure Job where
  channel : Channel
  func : String
  payload : String
  status : Status := .pending
  runAt : Option Time := none
  expiresAt : Option Time := none
  attempt : Nat := 0
  maxRetries : Int := 0
  backoffBase : ℚ := 2
  backoffMaxSec : Int := 3600
  broadcast : Bool := false
  cancelRequested : Bool := false
  maxExecSeconds : Option Int := none
  runnerId : Option String := none
  lastError : String := ""
  stackTrace : String := ""
  metadata : Metadata := []
  startedAt : Option Time := none
  finishedAt : Option Time := none
  idempotencyKey : Option String := none

namespace Job

def isTerminal (job : Job) : Bool := job.status.isTerminal

def isExpired (job : Job) (now : Time) : Bool := job.expiresAt.any (· < now)

/-- The attempt counter is below the limit: a failure or a lost lease retries. -/
def hasRetryLeft (job : Job) : Bool := (job.attempt : Int) < job.maxRetries

def failedToQueue : String := "Failed to queue:"

/-- A row whose publisher could not mirror it and which no engine ever started:
`publish` resumes it for a later call with the same idempotency key. -/
def canResume (job : Job) : Bool :=
  job.status = .failed && job.attempt = 0 &&
    failedToQueue.toList.isPrefixOf job.lastError.toList

/-- The fields that tell one publication from another under one key. -/
def sameContent (first second : Job) : Bool :=
  first.func = second.func && first.payload = second.payload &&
    first.channel = second.channel && first.broadcast = second.broadcast

def backoff (job : Job) : ℚ := min (job.backoffBase ^ job.attempt) job.backoffMaxSec

/-- The next run of a failed attempt: the backoff scaled by the jitter factor
`0.8 + random() * 0.4`, rounded to a microsecond. -/
def retryAt (job : Job) (now : Time) (random : ℚ) : Time :=
  now + (job.backoff * (4 / 5 + random * (2 / 5)) * 1000000 + 1 / 2).floor

end Job

/-- What a status column is set to, with the other columns of the same
`save(update_fields=...)`. -/
inductive Write where
  | failedToQueue (error : String)
  | resumed
  | expired (finishedAt : Time)
  | completed (finishedAt : Time) (metadata : Metadata)
  | retry (runAt : Time) (error trace : String)
  | failed (finishedAt : Time) (error trace : String)
  | leaseExpired (finishedAt : Time)
  | cancelRequested
  | canceled (finishedAt : Time)
  deriving DecidableEq

namespace Write

/-- The new status, or `none` when the save leaves the column alone. -/
def status? : Write → Option Status
  | .failedToQueue _ | .failed .. | .leaseExpired _ => some .failed
  | .resumed | .retry .. => some .pending
  | .expired _ => some .expired
  | .completed .. => some .completed
  | .canceled _ => some .canceled
  | .cancelRequested => none

def leaseError : String := "in-flight lease expired and the job is not retryable"

def apply (row : Job) : Write → Job
  | .failedToQueue error =>
    { row with status := .failed, lastError := Job.failedToQueue ++ " " ++ error }
  | .resumed =>
    { row with status := .pending, lastError := "", stackTrace := "", finishedAt := none }
  | .expired finishedAt => { row with status := .expired, finishedAt := some finishedAt }
  | .completed finishedAt metadata =>
    { row with status := .completed, finishedAt := some finishedAt, metadata := metadata }
  | .retry runAt error trace =>
    { row with status := .pending, runAt := some runAt, lastError := error, stackTrace := trace }
  | .failed finishedAt error trace =>
    { row with status := .failed, finishedAt := some finishedAt, lastError := error,
               stackTrace := trace }
  | .leaseExpired finishedAt =>
    { row with status := .failed, finishedAt := some finishedAt, lastError := leaseError }
  | .cancelRequested => { row with cancelRequested := true }
  | .canceled finishedAt =>
    { row with status := .canceled, finishedAt := some finishedAt, cancelRequested := true,
               runnerId := none }

@[simp] theorem apply_status (row : Job) (write : Write) :
    (write.apply row).status = write.status?.getD row.status := by
  cases write <;> rfl

@[simp] theorem apply_attempt (row : Job) (write : Write) :
    (write.apply row).attempt = row.attempt := by
  cases write <;> rfl

@[simp] theorem apply_channel (row : Job) (write : Write) :
    (write.apply row).channel = row.channel := by
  cases write <;> rfl

@[simp] theorem apply_maxRetries (row : Job) (write : Write) :
    (write.apply row).maxRetries = row.maxRetries := by
  cases write <;> rfl

end Write

/-! ## The job store and its atomic commands

The durable rows, and per channel the queue list and the three sorted sets.
A command is one database statement or one Redis command: processes interleave
between commands and never inside one.
-/

open Foundation

inductive Zset where
  | sched | schedBroadcast | processing
  deriving DecidableEq, Repr

structure Redis where
  queue : Channel → List JobId
  zset : Zset → Channel → SortedSet JobId
  reaperLock : Channel → Option Time

def Redis.empty : Redis := ⟨fun _ => [], fun _ _ => .empty, fun _ => none⟩

structure Store where
  jobs : Table JobId Job
  redis : Redis

namespace Store

def empty : Store := ⟨.empty, .empty⟩

/-- `Job.objects.get(idempotency_key=key)`, a unique column. -/
def getByKey (store : Store) (key : String) : Option (JobId × Job) :=
  store.jobs.keys.findSome? fun id =>
    (store.jobs.get id).bind fun job =>
      if job.idempotencyKey = some key then some (id, job) else none

theorem get_of_getByKey {store : Store} {key : String} {id : JobId} {job : Job}
    (hget : store.getByKey key = some (id, job)) : store.jobs.get id = some job := by
  obtain ⟨other, _, hother⟩ := List.exists_of_findSome?_eq_some hget
  simp only [Option.bind_eq_some_iff, Option.ite_none_right_eq_some, Option.some.injEq,
    Prod.mk.injEq] at hother
  obtain ⟨row, hrow, _, rfl, rfl⟩ := hother
  exact hrow

/-- The INSERT passes the primary-key and the unique-key constraint. -/
def accepts (store : Store) (id : JobId) (job : Job) : Bool :=
  (store.jobs.get id).isNone && job.idempotencyKey.all fun key => (store.getByKey key).isNone

def isLocked (store : Store) (channel : Channel) (now : Time) : Bool :=
  (store.redis.reaperLock channel).any (now < ·)

/-- The first non-empty queue among the given channels, in order. -/
def firstQueued (store : Store) (channels : List Channel) : Option Channel :=
  channels.find? fun channel => !(store.redis.queue channel).isEmpty

/-- The job a right pop of the channel's list would return. -/
def queueLast (store : Store) (channel : Channel) : Option JobId :=
  (store.redis.queue channel).getLast?

end Store

/-- How a command ends for its caller. A raised command may have been applied
by the server before the reply was lost. -/
inductive Fault where
  | none | lost | ambiguous
  deriving DecidableEq, Repr

def Fault.raised : Fault → Bool
  | .none => false
  | .lost | .ambiguous => true

inductive Command where
  /-- No effect on rows, lists or sorted sets: a read, an event row, a metric. -/
  | read
  | insert (id : JobId) (job : Job)
  | save (id : JobId) (write : Write)
  /-- The compare-and-set claim: `filter(pk, status='pending').update(...)`. -/
  | claim (id : JobId) (startedAt : Time) (runner : String)
  /-- The reaper's `filter(pk, status='running').update(status='pending')`. -/
  | reset (id : JobId)
  | rpush (channel : Channel) (id : JobId)
  | brpop (channel : Channel)
  | zadd (zset : Zset) (channel : Channel) (entries : List (Int × JobId))
  | zrem (zset : Zset) (channel : Channel) (id : JobId)
  | zpopmin (zset : Zset) (channel : Channel) (count : Nat)
  /-- `SET key value NX PX`: taken only when free. -/
  | lock (channel : Channel) (now expiry : Time)

namespace Command

def isDatabase : Command → Bool
  | .insert .. | .save .. | .claim .. | .reset .. => true
  | _ => false

/-- Whether the command reaches the store. A failed database statement rolls
back, a failed Redis command may have been applied all the same. -/
def lands (command : Command) : Fault → Bool
  | .none => true
  | .lost => false
  | .ambiguous => !command.isDatabase

@[simp] theorem lands_none (command : Command) : command.lands .none = true := rfl

def claimRow (startedAt : Time) (runner : String) (row : Job) : Job :=
  if row.status = .pending then
    { row with status := .running, startedAt := some startedAt, runnerId := some runner,
               attempt := row.attempt + 1 }
  else row

def resetRow (row : Job) : Job :=
  if row.status = .running then { row with status := .pending, runnerId := none } else row

def execRows (jobs : Table JobId Job) : Command → Table JobId Job
  | .insert id job => jobs.insert id job
  | .save id write => jobs.modify id write.apply
  | .claim id startedAt runner => jobs.modify id (claimRow startedAt runner)
  | .reset id => jobs.modify id resetRow
  | _ => jobs

def execRedis (redis : Redis) : Command → Redis
  | .rpush channel id =>
    { redis with queue := fun other =>
        if other = channel then redis.queue other ++ [id] else redis.queue other }
  | .brpop channel =>
    { redis with queue := fun other =>
        if other = channel then (redis.queue other).dropLast else redis.queue other }
  | .zadd zset channel entries =>
    { redis with zset := fun kind other =>
        if kind = zset ∧ other = channel then (redis.zset kind other).addAll entries
        else redis.zset kind other }
  | .zrem zset channel id =>
    { redis with zset := fun kind other =>
        if kind = zset ∧ other = channel then (redis.zset kind other).remove id
        else redis.zset kind other }
  | .zpopmin zset channel count =>
    { redis with zset := fun kind other =>
        if kind = zset ∧ other = channel then (redis.zset kind other).dropLowest count
        else redis.zset kind other }
  | .lock channel now expiry =>
    { redis with reaperLock := fun other =>
        if other = channel ∧ !(redis.reaperLock other).any (now < ·) then some expiry
        else redis.reaperLock other }
  | _ => redis

def onRow (id : JobId) (row : Option Job) : Command → Option Job
  | .insert other job => if id = other then some (row.getD job) else row
  | .save other write => if id = other then row.map write.apply else row
  | .claim other startedAt runner =>
    if id = other then row.map (claimRow startedAt runner) else row
  | .reset other => if id = other then row.map resetRow else row
  | _ => row

theorem get_execRows (jobs : Table JobId Job) (command : Command) (id : JobId) :
    (command.execRows jobs).get id = command.onRow id (jobs.get id) := by
  cases command with
  | insert other job =>
    rw [execRows, Table.get_insert, onRow]
    split
    next heq => rw [heq]
    next => rfl
  | save | claim | reset => simp only [execRows, onRow, Table.get_modify]
  | _ => rfl

end Command

def Store.perform (store : Store) (fault : Fault) (command : Command) : Store :=
  if command.lands fault then
    ⟨command.execRows store.jobs, command.execRedis store.redis⟩
  else store

theorem Store.get_perform (store : Store) (fault : Fault) (command : Command) (id : JobId) :
    (store.perform fault command).jobs.get id =
      if command.lands fault then command.onRow id (store.jobs.get id)
      else store.jobs.get id := by
  rw [perform]
  split
  · exact command.get_execRows store.jobs id
  · rfl

end DjangoMojo.Jobs
