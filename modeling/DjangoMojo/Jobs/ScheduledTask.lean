import DjangoMojo.Foundation.CivilTime
import DjangoMojo.Foundation.PythonText
import DjangoMojo.Jobs.Publish

/-! # Scheduled tasks

A user's recurring task names up to two times of day and a set of weekdays. At
the top of every UTC hour the dispatcher publishes the runs of the user's
current local hour for their instants.
-/

namespace DjangoMojo.Jobs

open Foundation CivilTime

structure ScheduledTask where
  /-- `user.org.timezone`, or `none` for a user without an organisation. -/
  timezone : Option String
  enabled : Bool := true
  taskType : String
  runTimes : List String
  runDays : List Int
  notify : List String := []
  channel : Channel := "default"
  maxRetries : Int := 0

namespace ScheduledTask

def taskTypes : List String := ["job", "webhook", "llm"]

def notifyChannels : List String := ["email", "in_app", "sms", "push"]

variable (tables : TextTables)

/-- The hour and the minute of a run time, or `none` for a `ValueError`. -/
def parseTime (text : String) : Option (Int × Int) := do
  let hours ← tables.int (text.toList.take 2)
  let minutes ← tables.int (text.toList.drop 3)
  pure (hours, minutes)

def inRange (time : Int × Int) : Bool :=
  0 ≤ time.1 && time.1 ≤ 23 && 0 ≤ time.2 && time.2 ≤ 59

def validateTime (text : String) : Except String Unit :=
  if text.toList.length ≠ 5 || text.toList[2]? ≠ some ':' then
    .error s!"Invalid time format: {text}. Use HH:MM"
  else if (parseTime tables text).any inRange then .ok ()
  else .error s!"Invalid time value: {text}"

def validateTimes : List String → Except String Unit
  | [] => .ok ()
  | text :: rest =>
    match validateTime tables text with
    | .ok () => validateTimes rest
    | .error error => .error error

def validateDays : List Int → Except String Unit
  | [] => .ok ()
  | day :: rest =>
    if 0 ≤ day && day ≤ 6 then validateDays rest
    else .error s!"Invalid weekday: {day}. Must be 0-6 (Mon=0)"

def validateNotify : List String → Except String Unit
  | [] => .ok ()
  | name :: rest =>
    if name ∈ notifyChannels then validateNotify rest
    else .error s!"Invalid notify channel: {name}"

/-- `_validate`. `quoted` is the representation that `!r` prints, `pk` the key
of the row and `existing` the number of tasks its user has. -/
def validate (quoted : String → String) (settings : Settings) (maxPerUser : Int)
    (pk : Option JobId) (existing : Nat) (task : ScheduledTask) : Except String Unit := do
  if 2 < task.runTimes.length then
    throw "run_times cannot have more than 2 entries"
  validateTimes tables task.runTimes
  validateDays task.runDays
  if task.taskType ∉ taskTypes then
    throw s!"Invalid task_type: {task.taskType}"
  if task.channel = "" then
    throw s!"Job channel must be a non-empty string, got {quoted task.channel}"
  if !Channel.isValidName task.channel then
    throw (s!"Invalid job channel {quoted task.channel}: use only letters, digits, '_', '.' " ++
      "and '-' (max 100 chars). Channel names become Redis keys and log " ++
      "fields, so ':' and whitespace are not allowed.")
  if settings.channelsEnforced && !settings.isChannelAllowed task.channel then
    throw (s!"Channel {quoted task.channel} is not a declared publish target — " ++
      "use an existing channel or add it to JOBS_ALLOWED_CHANNELS.")
  validateNotify task.notify
  if pk.isNone && maxPerUser ≤ existing then
    throw s!"Maximum of {maxPerUser} scheduled tasks per user"

/-- `get_run_times_for_hour`: a text that `int` refuses raises. -/
def runTimesForHour (task : ScheduledTask) (hour : Int) : Option (List (Int × Int)) :=
  (task.runTimes.mapM (parseTime tables)).map fun times => times.filter fun time => time.1 = hour

def matchesDay (task : ScheduledTask) (weekday : Int) : Bool :=
  task.runDays.isEmpty || weekday ∈ task.runDays

end ScheduledTask

/-- The offsets of the time zones from UTC, in quarters of an hour. -/
structure Zones where
  /-- `none` when `pytz.timezone` does not know the name. -/
  lookup : String → Option Int
  losAngeles : Int

namespace ScheduledTask

def offset (zones : Zones) (task : ScheduledTask) : Time :=
  ((task.timezone.bind zones.lookup).getD zones.losAngeles) * (15 * minute)

/-- The instants that one dispatch publishes for a task: those of the current
local hour that are not past, on a day chosen by the UTC weekday. -/
def due (tables : TextTables) (zones : Zones) (task : ScheduledTask) (now : Time) :
    Option (List Time) :=
  if task.matchesDay (weekdayOf now) then
    let userNow := now + task.offset zones
    (task.runTimesForHour tables (hourOf userNow)).map fun times =>
      (times.map fun time => atClock userNow time.1 time.2 - task.offset zones).filter fun runAt =>
        !(runAt < now)
  else some []

end ScheduledTask

structure TaskRun where
  taskId : JobId
  runAt : Time
  channel : Channel
  maxRetries : Int
  deriving DecidableEq

/-- The idempotency key `schtask:<task id>:<whole seconds of run_at>`. -/
def TaskRun.key (run : TaskRun) : JobId × Int := (run.taskId, run.runAt / 1000000)

/-- `publish` of one run, unless it raises: a known key publishes nothing new. -/
def publishRun (fails : JobId → Time → Bool) (published : List TaskRun) (run : TaskRun) :
    List TaskRun :=
  if fails run.taskId run.runAt then published
  else if published.any fun other => other.key = run.key then published
  else published ++ [run]

def ScheduledTask.run (id : JobId) (task : ScheduledTask) (runAt : Time) : TaskRun :=
  ⟨id, runAt, task.channel, task.maxRetries⟩

/-- One call of `dispatch_scheduled_tasks`, made late by less than a minute
after the top of its hour, with the publications that raise in it. -/
structure HourlyCall where
  late : Time
  within : 0 ≤ late ∧ late < minute
  fails : JobId → Time → Bool := fun _ _ => false

section Dispatch

variable (tables : TextTables) (zones : Zones)

/-- The loop over the enabled tasks. A text that `int` refuses ends it. -/
def dispatchEach (fails : JobId → Time → Bool) (now : Time) :
    List (JobId × ScheduledTask) → List TaskRun → List TaskRun
  | [], published => published
  | (id, task) :: rest, published =>
    match task.due tables zones now with
    | none => published
    | some due =>
      dispatchEach fails now rest
        ((due.map (task.run id)).foldl (publishRun fails) published)

def enabledTasks (tasks : Table JobId ScheduledTask) : List (JobId × ScheduledTask) :=
  (tasks.select fun _ task => task.enabled).reverse.filterMap fun id =>
    (tasks.get id).map fun task => (id, task)

def dispatchScheduledTasks (tasks : Table JobId ScheduledTask) (fails : JobId → Time → Bool)
    (now : Time) (published : List TaskRun) : List TaskRun :=
  dispatchEach tables zones fails now (enabledTasks tasks) published

/-- One call an hour, beginning with the hour numbered `first`. -/
def dispatchHourly (tasks : Table JobId ScheduledTask) :
    Int → List HourlyCall → List TaskRun → List TaskRun
  | _, [], published => published
  | first, call :: rest, published =>
    dispatchHourly tasks (first + 1) rest
      (dispatchScheduledTasks tables zones tasks call.fails (first * hour + call.late) published)

end Dispatch

end DjangoMojo.Jobs
