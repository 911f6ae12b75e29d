import DjangoMojo.Cases.Markers
import DjangoMojo.Foundation.PythonText

/-! # Dispatching the handlers of promotions

A projection commits its Event first. The handlers of the Event are then published one by one,
and a last write confirms that all of them are. A sweep looks for cases that were never
confirmed. Processes are threads over one database, and each of them may die between any two
commands.
-/

namespace DjangoMojo.Cases

open Foundation

/-! ### The handler chain of a rule set -/

def handlerSchemes : List String :=
  ["job", "email", "sms", "notify", "ticket", "maestro", "block", "llm", "resolve"]

/-- A text that starts with a scheme of a handler and `://`. -/
def startsSpec (text : List Char) : Bool :=
  handlerSchemes.any fun scheme => (scheme ++ "://").toList.isPrefixOf text

def splitSpecs : List Char → List (List Char)
  | [] => [[]]
  | char :: rest =>
    if char = ',' && startsSpec rest then [] :: splitSpecs rest
    else match splitSpecs rest with
      | [] => [[char]]
      | piece :: pieces => (char :: piece) :: pieces

/-- `urlparse(spec).scheme`. -/
def urlScheme (spec : List Char) : String :=
  let cleaned := (spec.dropWhile fun char => char.toNat ≤ 32).filter fun char =>
    char ∉ ['\t', '\r', '\n']
  let scheme := cleaned.takeWhile (· ≠ ':')
  let isScheme := scheme.length < cleaned.length && (scheme.head?.any Char.isAlpha) &&
    scheme.all fun char => char.isAlphanum || char ∈ ['+', '-', '.']
  if isScheme then String.ofList (scheme.map Char.toLower) else ""

structure Jobs where
  tables : TextTables
  digest : String → String

/-- The handlers that `run_handler` publishes, each with its place in the chain. -/
def Jobs.chain (jobs : Jobs) (handler : String) : List (Nat × String) :=
  let specs := ((splitSpecs (jobs.tables.strip handler.toList)).map jobs.tables.strip).filter
    (· ≠ [])
  specs.zipIdx.filterMap fun (spec, index) =>
    if urlScheme spec ∈ handlerSchemes then some (index, String.ofList spec) else none

/-! ### Processes -/

/-- An idempotency key; its text joins the fields with colons. -/
structure JobKey where
  case : Nat
  urgency : Urgency
  index : Nat
  digest : String
  deriving DecidableEq

/-- A job row of `execute_handler`. -/
structure HandlerJob where
  key : JobKey
  event : Nat
  index : Nat
  spec : String

/-- A call of `publish` that returned. -/
structure PublishCall where
  event : Nat
  index : Nat
  key : JobKey

inductive Thread where
  /-- `_dispatch_projection`, with the urgency of the case object that it was given. -/
  | dispatching (case : Nat) (urgency : Urgency) (event : ProjectedEvent)
      (rest : List (Nat × String)) (published : Bool)
  /-- The write of `projection_dispatched_at` comes next, for an Event. -/
  | confirming (case event : Nat)
  /-- The sweep holds a case object and reads its latest projection next. -/
  | redispatching (case : Nat) (urgency : Urgency)

structure Dispatcher where
  system : System
  threads : List Thread := []
  jobs : List HandlerJob := []
  log : List PublishCall := []
  /-- The Events whose rows are deleted; transitions refer to them no longer. -/
  pruned : List Nat := []

namespace Dispatcher

def db (state : Dispatcher) : Database := state.system.db

/-- The latest transition of a case that projected an Event. -/
def latestProjection (state : Dispatcher) (case : Nat) : Option Transition :=
  ((state.db.transitions.filter Database.isProjection).filter fun transition =>
    transition.case = case).getLast?

/-- The Event that a transition refers to, while it has a row. -/
def eventOf (state : Dispatcher) (transition : Transition) : Option ProjectedEvent :=
  transition.projectedEvent.bind fun id =>
    if id ∈ state.pruned then none else state.db.events.find? fun event => event.id = id

def withThread (state : Dispatcher) (thread : Thread) : Dispatcher :=
  { state with threads := state.threads ++ [thread] }

def setThread (state : Dispatcher) (number : Nat) (thread : Thread) : Dispatcher :=
  { state with threads := state.threads.set number thread }

def endThread (state : Dispatcher) (number : Nat) : Dispatcher :=
  { state with threads := state.threads.eraseIdx number }

/-- `_dispatch_projection` after it has read the handler of the Event. -/
def startDispatch (jobs : Jobs) (case : Nat) (urgency : Urgency) (event : ProjectedEvent) :
    Thread :=
  .dispatching case urgency event (jobs.chain event.publication.handler) false

/-- `jobs.publish` with a key: a job that has the key is returned instead of a new one. -/
def publish (state : Dispatcher) (job : HandlerJob) : Dispatcher :=
  { state with
    jobs := if state.jobs.any fun other => other.key = job.key then state.jobs
      else state.jobs ++ [job]
    log := state.log ++ [⟨job.event, job.index, job.key⟩] }

end Dispatcher

inductive Command where
  /-- The sweep reads the latest projection of a case it has loaded. -/
  | read
  | publish
  | finish
  | confirm (now : Time)
  | die

inductive DispatchAction where
  | record (action : Action)
  | project (settings : Settings) (case : Nat) (publication : Publication)
  | load (settings : Settings) (case : Nat)
  | thread (number : Nat) (command : Command)
  | prune (event : Nat)

/-- The rows that `settle_sweep` dispatches again. -/
def CaseRow.isUnconfirmed (settings : Settings) (row : CaseRow) : Bool :=
  settings.isAuthoritative row.installationKey && row.state = .elevated &&
    row.projectedUrgency = some row.urgency && row.projectionDispatchedAt.isNone

namespace Dispatcher

variable (jobs : Jobs)

def afterProjection (case : Nat) (row : CaseRow) (event : ProjectedEvent) : Thread :=
  if event.publication.shouldDispatch then startDispatch jobs case row.urgency event
  else .confirming case event.id

/-- What the sweep goes on with, once it has read the latest projection of a case. -/
def afterRead (state : Dispatcher) (case : Nat) (urgency : Urgency) : Option Thread :=
  (state.latestProjection case).bind fun transition =>
    match state.eventOf transition with
    | some event => some (startDispatch jobs case urgency event)
    | none => transition.projectedEvent.map fun event => .confirming case event

/-- A command of one thread; `none` where the thread is not at such a command. -/
def threadStep (state : Dispatcher) (number : Nat) : Command → Thread → Option Dispatcher
  | .read, .redispatching case urgency =>
    some <| match state.afterRead jobs case urgency with
      | some thread => state.setThread number thread
      | none => state.endThread number
  | .publish, .dispatching case urgency event ((index, spec) :: rest) _ =>
    some ((state.publish ⟨⟨case, urgency, index, jobs.digest spec⟩, event.id, index, spec⟩).setThread
      number (.dispatching case urgency event rest true))
  | .finish, .dispatching case _ event [] published =>
    some <| if published || event.publication.handler = "" then
        state.setThread number (.confirming case event.id)
      else state.endThread number
  | .confirm now, .confirming case _ =>
    some { state.endThread number with
      system := { state.system with db := state.db.confirmDispatch now case } }
  | .die, _ => some (state.endThread number)
  | _, _ => none

def step (state : Dispatcher) : DispatchAction → Option Dispatcher
  | .record action =>
    if action.isRecord then
      (Cases.step state.system action).map fun system => { state with system := system }
    else none
  | .project settings case publication =>
    let calls := state.system.calls.erase (.project case)
    match state.db.projectCase settings case publication with
    | none => some { state with system := ⟨state.db, calls⟩ }
    | some (db, row, event) =>
      some ({ state with system := ⟨db, calls⟩ }.withThread
        (afterProjection jobs case row event))
  | .load settings case =>
    (state.db.cases.get case).bind fun row =>
      if row.isUnconfirmed settings then some (state.withThread (.redispatching case row.urgency))
      else none
  | .thread number command =>
    (state.threads[number]?).bind (state.threadStep jobs number command)
  | .prune event => some { state with pruned := event :: state.pruned }

def start (receipts : Table Nat ReceiptRow) : Dispatcher := { system := System.start receipts }

end Dispatcher

end DjangoMojo.Cases
