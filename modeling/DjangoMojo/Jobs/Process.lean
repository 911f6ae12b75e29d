import DjangoMojo.Jobs.Store

/-! # Steps of a process

Every operation of the jobs system is a program counter that moves from one
command to the next. A move reads the store, issues one command and says where
the operation continues. Everything the code cannot foresee about the step is
in its environment.
-/

namespace DjangoMojo.Jobs

/-- The outcome of one step that the code does not decide: how its command
ends, whether the job function, an event row or a metric raises, what an
external flag reads, the random number drawn, the text of the error and the
metadata the job function leaves. -/
structure Env where
  fault : Fault := .none
  raises : Bool := false
  flag : Bool := false
  random : ℚ := 0
  text : String := ""
  metadata : Metadata := []

inductive Event where
  | created (id : JobId)
  | queued (id : JobId)
  | resumed (id : JobId)
  | claimed (id : JobId)
  | started (id : JobId) (attempt : Nat)
  deriving DecidableEq

structure Move (Pc : Type) where
  next : Pc
  command : Command := .read
  events : List Event := []

namespace Move

variable {Pc Task : Type}

def map (embed : Pc → Task) (move : Move Pc) : Move Task :=
  ⟨embed move.next, move.command, move.events⟩

@[simp] theorem map_next (embed : Pc → Task) (move : Move Pc) :
    (move.map embed).next = embed move.next := rfl

@[simp] theorem map_command (embed : Pc → Task) (move : Move Pc) :
    (move.map embed).command = move.command := rfl

@[simp] theorem map_events (embed : Pc → Task) (move : Move Pc) :
    (move.map embed).events = move.events := rfl

end Move

/-- The tries `_remove_from_processing` has after its first. -/
def releaseRetries : Nat := 2

/-- Milliseconds since the epoch, as scores and lock times count them. -/
def milliseconds (time : Time) : Int := time / 1000

/-! ## Cancellation

`jobs.cancel` asks for a cooperative stop; `JobActionsService.cancel_job`
cancels at once a row that no live runner is executing. Both decide on an
instance loaded before.
-/

inductive CancelPc where
  /-- `operator` tells `cancel_job` from `jobs.cancel`. -/
  | load (id : JobId) (operator : Bool)
  | heartbeat (id : JobId) (asked : Time)
  | request (id : JobId)
  | force (id : JobId) (asked : Time)
  | cancel (id : JobId) (channel : Channel) (asked : Time)
  | zrem (zset : Zset) (id : JobId) (channel : Channel)
  | done
  deriving DecidableEq

namespace CancelPc

def afterLoad (now : Time) (id : JobId) (operator : Bool) (job : Job) : CancelPc :=
  if job.isTerminal then .done
  else if !operator then .request id
  else if job.status = .running then
    if job.runnerId.any (· ≠ "") then .heartbeat id now else .force id now
  else .cancel id job.channel now

def move (now : Time) (env : Env) (store : Store) : CancelPc → Option (Move CancelPc)
  | .load id operator =>
    if env.fault.raised then some { next := .done }
    else
      match store.jobs.get id with
      | none => some { next := .done }
      | some job => some { next := afterLoad now id operator job }
  | .heartbeat id asked =>
    some { next := if env.fault.raised then .done
             else if env.flag then .request id else .force id asked }
  | .request id => some { next := .done, command := .save id .cancelRequested }
  | .force id asked => some { next := .done, command := .save id (.canceled asked) }
  | .cancel id channel asked =>
    some { next := if env.fault.raised then .done else .zrem .sched id channel
           command := .save id (.canceled asked) }
  | .zrem zset id channel =>
    some { next := match zset with
             | .sched => if env.fault.raised then .done else .zrem .schedBroadcast id channel
             | .schedBroadcast | .processing => .done
           command := .zrem zset channel id }
  | .done => none

end CancelPc

/-! ## The scheduler

One pass of `_process_scheduled_jobs`: per channel, due entries of the two
sched ZSETs are popped in batches and pushed onto the channel's queue, and
entries that are not due are put back.
-/

def schedulerBatch : Nat := 10

inductive SchedulePc where
  | pause (channel : Channel) (rest : List Channel)
  | pop (zset : Zset) (channel : Channel) (rest : List Channel)
  | route (zset : Zset) (channel : Channel) (rest : List Channel)
      (popped notDue : List (Int × JobId))
  | reinsert (zset : Zset) (channel : Channel) (rest : List Channel)
      (notDue : List (Int × JobId))
  | done
  deriving DecidableEq

namespace SchedulePc

def nextChannel : List Channel → SchedulePc
  | [] => .done
  | channel :: rest => .pause channel rest

def nextZset (channel : Channel) (rest : List Channel) : Zset → SchedulePc
  | .sched => .pop .schedBroadcast channel rest
  | .schedBroadcast | .processing => nextChannel rest

/-- A batch ends by putting the entries back that are not due, or, when all
were due, with the next pop. -/
def afterEntry (zset : Zset) (channel : Channel) (rest : List Channel) :
    (popped notDue : List (Int × JobId)) → SchedulePc
  | [], [] => .pop zset channel rest
  | [], notDue => .reinsert zset channel rest notDue
  | popped, notDue => .route zset channel rest popped notDue

/-- `moment` is the `now` of the pass. -/
def move (env : Env) (store : Store) (moment : Time) : SchedulePc → Option (Move SchedulePc)
  | .pause channel rest =>
    some { next := if !env.fault.raised && env.flag then nextChannel rest
                   else .pop .sched channel rest }
  | .pop zset channel rest =>
    some { next := if env.fault.raised then nextChannel rest
             else match (store.redis.zset zset channel).lowest schedulerBatch with
               | [] => nextZset channel rest zset
               | popped => .route zset channel rest popped []
           command := .zpopmin zset channel schedulerBatch }
  | .route zset channel rest popped notDue =>
    match popped with
    | [] => some { next := afterEntry zset channel rest [] notDue }
    | entry :: popped =>
      if moment < entry.1 then
        some { next := afterEntry zset channel rest popped (notDue ++ [entry]) }
      else
        some { next := afterEntry zset channel rest popped
                 (if env.fault.raised then notDue ++ [entry] else notDue)
               command := .rpush channel entry.2 }
  | .reinsert zset channel rest notDue =>
    some { next := if env.fault.raised then nextChannel rest else nextZset channel rest zset
           command := .zadd zset channel notDue }
  | .done => none

end SchedulePc

/-! ## The reaper

One pass of `_reaper_loop` over an engine's channels: entries of the processing
ZSET older than the visibility timeout are released, and their jobs expired,
failed or put back on the queue.
-/

def visibilityTimeoutMs : Int := 30000

/-- The lifetime of the per-channel lock, `px=2000`. -/
def reaperLockTtl : Time := 2000000

def reaperBatch : Nat := 100

/-- Where a pass stands: the stale id at hand, those still to come on its
channel, and the channels still to come. -/
structure Lease where
  channel : Channel
  id : JobId
  ids : List JobId
  rest : List Channel
  deriving DecidableEq

/-- What follows a `_remove_from_processing` of the reaper. -/
inductive AfterRelease where
  | skip
  | expire
  | fail
  | requeue
  deriving DecidableEq

inductive ReapPc where
  | lock (channel : Channel) (rest : List Channel)
  | fetch (channel : Channel) (rest : List Channel)
  | load (lease : Lease)
  | reset (lease : Lease)
  | release (lease : Lease) (left : Nat) (after : AfterRelease)
  | expire (lease : Lease)
  | fail (lease : Lease)
  | requeue (lease : Lease)
  | event (lease : Lease)
  | done
  deriving DecidableEq

namespace ReapPc

def nextChannel : List Channel → ReapPc
  | [] => .done
  | channel :: rest => .lock channel rest

def ofIds (channel : Channel) (rest : List Channel) : List JobId → ReapPc
  | [] => nextChannel rest
  | id :: ids => .load ⟨channel, id, ids, rest⟩

def nextEntry (lease : Lease) : ReapPc := ofIds lease.channel lease.rest lease.ids

def releaseThen (lease : Lease) (after : AfterRelease) : ReapPc :=
  .release lease releaseRetries after

def afterLoad (now : Time) (lease : Lease) (job : Job) : ReapPc :=
  if job.isTerminal then releaseThen lease .skip
  else if job.isExpired now then releaseThen lease .expire
  else if !job.hasRetryLeft then releaseThen lease .fail
  else if job.status = .running then .reset lease
  else releaseThen lease .requeue

def afterRelease (lease : Lease) : AfterRelease → ReapPc
  | .skip => nextEntry lease
  | .expire => .expire lease
  | .fail => .fail lease
  | .requeue => .requeue lease

/-- The `except` branch of one entry after a write: the lease is released
again; without an error the event row follows. -/
def afterWrite (env : Env) (lease : Lease) : ReapPc :=
  if env.fault.raised then releaseThen lease .skip else .event lease

def move (now : Time) (env : Env) (store : Store) (cutoff : Int) :
    ReapPc → Option (Move ReapPc)
  | .lock channel rest =>
    some { next := if env.fault.raised || store.isLocked channel now then nextChannel rest
                   else .fetch channel rest
           command := .lock channel now (now + reaperLockTtl) }
  | .fetch channel rest =>
    some { next := ofIds channel rest
             (if env.fault.raised then []
              else (store.redis.zset .processing channel).upTo cutoff reaperBatch) }
  | .load lease =>
    if env.fault.raised then some { next := releaseThen lease .skip }
    else
      match store.jobs.get lease.id with
      | none => some { next := releaseThen lease .skip }
      | some job => some { next := afterLoad now lease job }
  | .reset lease =>
    if env.fault.raised then some { next := releaseThen lease .skip }
    else if (store.jobs.get lease.id).any fun row => row.status = .running then
      some { next := releaseThen lease .requeue, command := .reset lease.id }
    else some { next := releaseThen lease .skip }
  | .release lease left after =>
    let released := !env.fault.raised &&
      decide (lease.id ∈ store.redis.zset .processing lease.channel)
    some { next := match left with
             | 0 => afterRelease lease after
             | left + 1 =>
               if released then afterRelease lease after else .release lease left after
           command := .zrem .processing lease.channel lease.id }
  | .expire lease =>
    some { next := afterWrite env lease, command := .save lease.id (.expired now) }
  | .fail lease =>
    some { next := afterWrite env lease, command := .save lease.id (.leaseExpired now) }
  | .requeue lease =>
    some { next := afterWrite env lease, command := .rpush lease.channel lease.id }
  | .event lease =>
    some { next := if env.raises then releaseThen lease .skip else nextEntry lease }
  | .done => none

end ReapPc

end DjangoMojo.Jobs
