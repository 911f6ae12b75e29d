import DjangoMojo.Jobs.Process

/-! # Publishing one job

`publish` from the point where the channel has been accepted and the defaults
applied: the row is inserted, or an existing row with the same idempotency key
is found, and its id is mirrored to the queue or to a sched ZSET.
-/

namespace DjangoMojo.Jobs

structure Request where
  channel : Channel
  func : String
  payload : String
  runAt : Option Time := none
  expiresAt : Time
  maxRetries : Int := 0
  backoffBase : ℚ := 2
  backoffMaxSec : Int := 3600
  broadcast : Bool := false
  maxExecSeconds : Option Int := none
  idempotencyKey : Option String := none

def Request.job (request : Request) : Job where
  channel := request.channel
  func := request.func
  payload := request.payload
  runAt := request.runAt
  expiresAt := some request.expiresAt
  maxRetries := request.maxRetries
  backoffBase := request.backoffBase
  backoffMaxSec := request.backoffMaxSec
  broadcast := request.broadcast
  maxExecSeconds := request.maxExecSeconds
  idempotencyKey := request.idempotencyKey

namespace Job

def schedZset (job : Job) : Zset := if job.broadcast then .schedBroadcast else .sched

/-- The Redis command that queues or schedules a job. Scores of the sched
ZSETs keep the microseconds of `run_at`. -/
def mirror (job : Job) (id : JobId) (now : Time) : Command :=
  match job.runAt with
  | some runAt =>
    if now < runAt then .zadd job.schedZset job.channel [(runAt, id)]
    else .rpush job.channel id
  | none => .rpush job.channel id

end Job

inductive PublishPc where
  | insert (id : JobId) (request : Request) (asked : Time)
  /-- `Job.objects.get(idempotency_key=...)` after a unique violation. -/
  | lookup (key : String) (request : Request)
  /-- The same row again, under `select_for_update`. -/
  | relock (key : String)
  | mirror (id : JobId) (job : Job) (asked : Time)
  | markFailed (id : JobId) (error : String)
  | returned (id : JobId)
  | raised

namespace PublishPc

def move (now : Time) (env : Env) (store : Store) : PublishPc → Option (Move PublishPc)
  | .insert id request asked =>
    if env.fault.raised then some { next := .raised }
    else if store.accepts id request.job then
      some { next := .mirror id request.job asked
             command := .insert id request.job
             events := [.created id] }
    else
      match request.idempotencyKey with
      | some key => if key = "" then some { next := .raised }
                    else some { next := .lookup key request }
      | none => some { next := .raised }
  | .lookup key request =>
    if env.fault.raised then some { next := .raised }
    else
      match store.getByKey key with
      | none => some { next := .raised }
      | some (id, existing) =>
        if !existing.canResume && existing.status ≠ .pending then
          some { next := .returned id }
        else if existing.canResume && !existing.sameContent request.job then
          some { next := .raised }
        else some { next := .relock key }
  | .relock key =>
    if env.fault.raised then some { next := .raised }
    else
      match store.getByKey key with
      | none => some { next := .raised }
      | some (id, existing) =>
        if existing.canResume then
          some { next := .mirror id (Write.resumed.apply existing) now
                 command := .save id .resumed
                 events := [.resumed id] }
        else if existing.status ≠ .pending then some { next := .returned id }
        else some { next := .mirror id existing now }
  | .mirror id job asked =>
    if env.fault.raised then
      some { next := .markFailed id env.text, command := job.mirror id asked }
    else
      some { next := .returned id, command := job.mirror id asked, events := [.queued id] }
  | .markFailed id error =>
    some { next := .raised, command := .save id (.failedToQueue error) }
  | .returned _ | .raised => none

end PublishPc

/-! ## The publish function

The checks and defaults of `publish`, its fan-out of an immediate broadcast to
the live runners, and the call as one uninterrupted sequence of commands.
-/

namespace Channel

def isNameChar (char : Char) : Bool :=
  char.isAlphanum || char = '_' || char = '.' || char = '-'

/-- `CHANNEL_NAME_RE.match`: the `$` of the pattern also matches before a final
line feed. -/
def isValidName (channel : Channel) : Bool :=
  let chars := channel.toList
  let name := if chars.getLast? = some '\n' then chars.dropLast else chars
  0 < name.length && name.length ≤ 100 && name.all isNameChar

def engineSuffix : String := "-engine"

end Channel

def defaultChannels : List Channel :=
  ["default", "priority", "cleanup", "incident_handlers", "renditions", "certs", "webhooks",
    "webhook_fanout", "edge"]

structure Settings where
  jobChannels : List Channel := defaultChannels
  allowedChannels : Option (List Channel) := none
  payloadMaxBytes : Nat := 16384
  defaultExpiresSec : Int := 900
  defaultMaxRetries : Int := 0
  defaultBackoffBase : ℚ := 2
  defaultBackoffMax : Int := 3600

namespace Settings

def isChannelAllowed (settings : Settings) (channel : Channel) : Bool :=
  channel ∈ defaultChannels || channel ∈ settings.jobChannels ||
    channel ∈ settings.allowedChannels.getD [] ||
    Channel.engineSuffix.toList.isSuffixOf channel.toList

def channelsEnforced (settings : Settings) : Bool := settings.allowedChannels.isSome

end Settings

/-- An entry of the roster that `get_runners` reads. -/
structure Runner where
  runnerId : String
  alive : Bool

/-- The arguments of `publish`. The payload is the text `json.dumps` gives. -/
structure PublishArgs where
  func : String
  payload : String := "\x7b\x7d"
  channel : Channel := "default"
  delay : Option Int := none
  runAt : Option Time := none
  broadcast : Bool := false
  maxRetries : Option Int := none
  backoffBase : Option ℚ := none
  backoffMax : Option Int := none
  expiresIn : Option Int := none
  expiresAt : Option Time := none
  maxExecSeconds : Option Int := none
  idempotencyKey : Option String := none

def seconds (count : Int) : Time := count * 1000000

namespace PublishArgs

/-- A `delay` of zero counts as none. -/
def isDelayed (args : PublishArgs) : Bool := args.runAt.isSome || args.delay.any (· ≠ 0)

/-- The checks made before anything is written. Nothing unfolds them by
accident: no proof depends on how a text is checked. -/
@[irreducible] def isAccepted (settings : Settings) (args : PublishArgs) : Bool :=
  args.channel.isValidName &&
    (settings.isChannelAllowed args.channel || !settings.channelsEnforced) &&
    args.payload.utf8ByteSize ≤ settings.payloadMaxBytes

def request (settings : Settings) (args : PublishArgs) (now : Time) : Request where
  channel := args.channel
  func := args.func
  payload := args.payload
  runAt :=
    match args.runAt with
    | some runAt => some runAt
    | none => (args.delay.filter (· ≠ 0)).map fun delay => now + seconds delay
  expiresAt :=
    match args.expiresAt with
    | some expiresAt => expiresAt
    | none =>
      now + seconds ((args.expiresIn.filter (· ≠ 0)).getD settings.defaultExpiresSec)
  maxRetries := args.maxRetries.getD settings.defaultMaxRetries
  backoffBase := args.backoffBase.getD settings.defaultBackoffBase
  backoffMaxSec := args.backoffMax.getD settings.defaultBackoffMax
  broadcast := args.broadcast
  maxExecSeconds := args.maxExecSeconds
  idempotencyKey := args.idempotencyKey

/-- One job of a fan-out, addressed to a runner's own channel. -/
def forRunner (args : PublishArgs) (runnerId : String) : PublishArgs :=
  { args with
    channel := runnerId
    delay := none
    runAt := none
    broadcast := false
    idempotencyKey :=
      (args.idempotencyKey.filter (· ≠ "")).map fun key => key ++ ":" ++ runnerId }

end PublishArgs

/-- A call in progress with nothing interleaved: the store it sees, the streams
of the earlier design, the outcomes of its next commands and the ids `uuid4`
will draw. -/
structure Call where
  now : Time
  settings : Settings
  store : Store
  /-- Entries of the per-channel streams, the second for broadcasts. -/
  stream : Channel → Bool → List JobId
  runners : Channel → List Runner
  envs : List Env
  uuids : List JobId

def PublishPc.result : PublishPc → Option JobId
  | .returned id => some id
  | _ => none

namespace Call

def env (call : Call) : Env := call.envs.headD {}

def issue (call : Call) (command : Command) : Call :=
  { call with store := call.store.perform call.env.fault command, envs := call.envs.tail }

def finish : Nat → Call → PublishPc → PublishPc × Call
  | 0, call, pc => (pc, call)
  | fuel + 1, call, pc =>
    match pc.move call.now call.env call.store with
    | none => (pc, call)
    | some move => finish fuel (call.issue move.command) move.next

/-- The longest path inserts, finds the key taken, reads the row twice, fails to
mirror it and marks it failed. -/
def publishSteps : Nat := 5

def drawUuid (call : Call) : JobId × Call :=
  (call.uuids.headD 0, { call with uuids := call.uuids.tail })

/-- `publish` of one job: its id, or `none` when it raises. -/
def publishOne (call : Call) (args : PublishArgs) : Option JobId × Call :=
  if args.isAccepted call.settings then
    let (id, drawn) := call.drawUuid
    let ended := drawn.finish publishSteps
      (.insert id (args.request call.settings call.now) call.now)
    (ended.1.result, ended.2)
  else (none, call)

def publishEach (args : PublishArgs) : List String → Call → Option (List JobId) × Call
  | [], call => (some [], call)
  | runnerId :: rest, call =>
    let first := call.publishOne (args.forRunner runnerId)
    match first.1 with
    | none => (none, first.2)
    | some id =>
      let others := publishEach args rest first.2
      (others.1.map fun ids => id :: ids, others.2)

/-- `sorted` of the live runner ids. -/
def targets (call : Call) (channel : Channel) : List String :=
  (((call.runners channel).filter fun runner => runner.alive && runner.runnerId ≠ "").map
    Runner.runnerId).insertionSort (· ≤ ·)

/-- The ids `publish` returns, or `none` when it raises. -/
def publish (call : Call) (args : PublishArgs) : Option (List JobId) × Call :=
  if args.isAccepted call.settings && args.broadcast && !args.isDelayed &&
      !(call.targets args.channel).isEmpty then
    publishEach args (call.targets args.channel) call
  else
    let (id, call) := call.publishOne args
    (id.map fun id => [id], call)

end Call

end DjangoMojo.Jobs
