import Mathlib.Data.List.Basic
import DjangoMojo.Foundation.Json
import DjangoMojo.Foundation.Checks

/-! # Pending actions

A mutating tool that the model calls leaves one row: who may approve it, the arguments that
will be executed, and the instant at which it lapses. Before a handler runs, the gates are read
again from the live system.
-/

namespace DjangoMojo.Assistant

open Foundation

abbrev Time := Int

def second : Time := 1000000

inductive ActionState where
  | pending | executing | completed | failed | canceled | expired | superseded
  deriving DecidableEq

namespace ActionState

def terminalStates : List ActionState := [.completed, .failed, .canceled, .expired, .superseded]

def isTerminal (state : ActionState) : Bool := state ∈ terminalStates

/-- The states of a row that will never run, and never has. -/
def isLapsed (state : ActionState) : Bool := state ∈ [.canceled, .expired, .superseded]

end ActionState

structure Preview where
  summary : String
  details : Option Json
  revision : String

structure ToolEntry where
  inputSchema : Json
  mutates : Bool
  permission : Option String
  hasPreview : Bool
  freshAuthSeconds : Option Int
  requiresSuperuser : Bool
  requiresManagedInfrastructure : Bool

structure PendingAction where
  uuid : Nat
  user : Nat
  conversation : Nat
  group : Option Nat
  toolName : String
  permission : String
  args : JsonFields
  argsFingerprint : String
  summary : String
  preview : Option Preview
  freshAuthSeconds : Option Int
  requiresSuperuser : Bool
  requiresManagedInfrastructure : Bool
  revision : String
  state : ActionState
  expiresAt : Time
  resolvedAt : Option Time
  result : Option Json
  failureCode : String
  modified : Time

def executingTimeout : Time := 900 * second

namespace PendingAction

/-- The state that a reader acts on, without waiting for the sweep. -/
def effectiveState (row : PendingAction) (now : Time) : ActionState :=
  match row.state with
  | .pending => if row.expiresAt ≤ now then .expired else .pending
  | .executing => if executingTimeout < now - row.modified then .failed else .executing
  | state => state

/-- The columns that no statement writes after the row's creation. -/
structure SameProposal (original row : PendingAction) : Prop where
  user : row.user = original.user
  conversation : row.conversation = original.conversation
  toolName : row.toolName = original.toolName
  args : row.args = original.args
  argsFingerprint : row.argsFingerprint = original.argsFingerprint
  expiresAt : row.expiresAt = original.expiresAt

end PendingAction

/-! ### Helpers and tunables -/

/-- The helpers of the module that no decision about a row's state rests on. -/
structure Site where
  normalizeArgs : Json → Json → Except String JsonFields
  fingerprint : String → JsonFields → String
  redactArgs : JsonFields → JsonFields
  safeSummary : ToolEntry → JsonFields → Nat → String
  refusalMessage : String → String
  boundedText : Json → String
  boundedResult : Json → Json

def maxLivePerConversation : Nat := 20

def ttlSeconds (setting : Option Int) : Int := max 60 (min 3600 (setting.getD 600))

def handlerErrorMessage : String := "The operation failed. Check the incident log for details."

def unknownOutcomeMessage : String :=
  "This operation started but its outcome is unknown. Reconcile the target " ++
    "system before retrying — it was NOT retried automatically."

/-! ### Refusals and cards -/

inductive RefusalCode where
  | unavailable | reauth | permission | infrastructure | precondition
  deriving DecidableEq

def RefusalCode.message : RefusalCode → String
  | .unavailable => "This action is no longer available."
  | .reauth => "reauth_required"
  | .permission => "You are no longer allowed to run this action."
  | .infrastructure => ""
  | .precondition =>
    "The system changed since this action was proposed. Reload and try again."

structure Block where
  actionId : Nat
  conversation : Nat
  tool : String
  description : String
  args : JsonFields
  preview : Option Preview
  requiresFreshAuth : Bool
  requiresSuperuser : Bool
  expiresAt : Time
  state : ActionState
  result : Option Json
  failureCode : String

def Site.renderBlock (site : Site) (row : PendingAction) (now : Time) : Block :=
  let state := row.effectiveState now
  let terminal := state.isTerminal
  -- aged out of `executing`, and the sweep has not written it yet
  let aged := state = .failed && row.state = .executing
  { actionId := row.uuid
    conversation := row.conversation
    tool := row.toolName
    description := row.summary
    args := site.redactArgs row.args
    preview := row.preview
    requiresFreshAuth := row.freshAuthSeconds.any (· ≠ 0)
    requiresSuperuser := row.requiresSuperuser
    expiresAt := row.expiresAt
    state
    result :=
      if aged then some (.obj [("error", .str unknownOutcomeMessage)])
      else if terminal then row.result else none
    failureCode := if aged then "unknown_outcome" else if terminal then row.failureCode else "" }

structure SweepStats where
  expired : Nat
  unknownOutcome : Nat
  deleted : Nat

inductive Reply where
  | toolError (message : String)
  | approvalRequired (block : Block)
  | resolved (block : Block)
  | refused (code : RefusalCode) (message : String)
  | doesNotExist
  | swept (stats : SweepStats)

/-- `ApprovalRefused(code, message)`. -/
def refusal (code : RefusalCode) (message : String) : Reply :=
  .refused code <|
    if message ≠ "" then message
    else if code.message ≠ "" then code.message
    else RefusalCode.unavailable.message

/-! ### Proposal -/

/-- A call of `propose`, with what the live system answers to it. -/
structure ProposeRequest where
  user : Nat
  conversation : Nat
  group : Option Nat
  toolName : String
  entry : ToolEntry
  rawArgs : Json
  isExternal : Bool
  preview : Except String (Option Preview)
  ttlSetting : Option Int

structure Proposal where
  request : ProposeRequest
  args : JsonFields
  preview : Option Preview
  argsFingerprint : String
  now : Time

namespace ProposeRequest

variable (request : ProposeRequest)

/-- `run_preview`, where the tool declares one. -/
def runPreview : Except String (Option Preview) :=
  if request.entry.hasPreview then request.preview else .ok none

def prepare (site : Site) (now : Time) : Except String Proposal := do
  check (!(request.entry.requiresManagedInfrastructure && request.isExternal))
    (site.refusalMessage request.toolName)
  let args ← site.normalizeArgs request.entry.inputSchema request.rawArgs
  let preview ← request.runPreview
  return { request, args, preview, argsFingerprint := site.fingerprint request.toolName args, now }

end ProposeRequest

def Proposal.row (site : Site) (proposal : Proposal) (uuid : Nat) (created : Time) :
    PendingAction where
  uuid
  user := proposal.request.user
  conversation := proposal.request.conversation
  group := proposal.request.group
  toolName := proposal.request.toolName
  permission := proposal.request.entry.permission.getD ""
  args := proposal.args
  argsFingerprint := proposal.argsFingerprint
  summary := site.safeSummary proposal.request.entry proposal.args proposal.request.user
  preview := proposal.preview
  freshAuthSeconds := proposal.request.entry.freshAuthSeconds
  requiresSuperuser := proposal.request.entry.requiresSuperuser
  requiresManagedInfrastructure := proposal.request.entry.requiresManagedInfrastructure
  revision := proposal.preview.elim "" Preview.revision
  state := .pending
  expiresAt := proposal.now + ttlSeconds proposal.request.ttlSetting * second
  resolvedAt := none
  result := none
  failureCode := ""
  modified := created

/-! ### The gates of an approval -/

structure LiveUser where
  isSuperuser : Bool
  /-- `user_can_use_tool`, of the live entry. -/
  canUseTool : Bool

/-- What an approval finds in the live system, and in the request it came with. -/
structure Gates where
  isExternal : Bool
  liveUser : Option LiveUser
  groupActive : Bool
  bearer : Bool
  /-- Whether the credential's authentication lies within the window. -/
  fresh : Int → Bool
  preview : Except String (Option Preview)

inductive Verdict where
  | refuse (code : RefusalCode) (message : String)
  /-- `_fail_permission`: the row fails. -/
  | fail (failureCode : String)
  | claim
  deriving DecidableEq

/-- The stricter of the windows that ask for a recent authentication. -/
def freshWindow (first second : Option Int) : Option Int :=
  ([first, second].filterMap fun window => window.filter (· ≠ 0)).min?

namespace Gates

variable (gates : Gates)

def requireFreshAuth (entry : ToolEntry) (row : PendingAction) : Bool :=
  match freshWindow row.freshAuthSeconds entry.freshAuthSeconds with
  | none => true
  | some window => gates.bearer && gates.fresh window

/-- `_require_bound_revision`; the message of a refusal. -/
def requireBoundRevision (entry : ToolEntry) (row : PendingAction) : Except String Unit :=
  if !entry.hasPreview then .ok ()
  else do
    let fresh ← gates.preview
    check (row.revision = "" || fresh.elim "" Preview.revision = row.revision) ""

def verdict (site : Site) (entry : ToolEntry) (row : PendingAction) : Verdict :=
  if (entry.requiresManagedInfrastructure || row.requiresManagedInfrastructure) &&
      gates.isExternal then
    .refuse .infrastructure (site.refusalMessage row.toolName)
  else
    match gates.liveUser with
    | none => .fail "user_inactive"
    | some live =>
      if (entry.requiresSuperuser || row.requiresSuperuser) && !live.isSuperuser then
        .fail "superuser_required"
      else if !live.canUseTool then .fail "permission_lost"
      else if row.group.isSome && !gates.groupActive then .fail "group_inactive"
      else if !gates.requireFreshAuth entry row then .refuse .reauth ""
      else
        match gates.requireBoundRevision entry row with
        | .error message => .refuse .precondition message
        | .ok () => .claim

end Gates

/-! ### The outcome of a handler -/

inductive HandlerResult where
  | raised
  /-- A dictionary with an `error`, and its `error_code`. -/
  | refused (error : Json) (errorCode : Option Json)
  | returned (value : Json)

structure Outcome where
  state : ActionState
  failureCode : String
  result : Json

/-- `^[a-z_]{1,32}$`; a final line break is let through. -/
def matchesFailureCode (code : String) : Bool :=
  let chars := code.toList
  let body := if chars.getLast? = some '\n' then chars.dropLast else chars
  1 ≤ body.length && body.length ≤ 32 &&
    body.all fun char => ('a' ≤ char && char ≤ 'z') || char = '_'

def failureCodeOf : Option Json → String
  | some (.str code) => if matchesFailureCode code then code else "handler_error"
  | _ => "handler_error"

/-- `_dispatch`, once the handler is back. -/
def Site.dispatched (site : Site) : HandlerResult → Outcome
  | .raised => ⟨.failed, "handler_error", .obj [("error", .str handlerErrorMessage)]⟩
  | .refused error code =>
    ⟨.failed, failureCodeOf code, .obj [("error", .str (site.boundedText error))]⟩
  | .returned value => ⟨.completed, "", site.boundedResult value⟩

theorem Site.dispatched_state (site : Site) (result : HandlerResult) :
    (site.dispatched result).state = .completed ∨ (site.dispatched result).state = .failed := by
  cases result with
  | raised => exact .inr rfl
  | refused error code => exact .inr rfl
  | returned value => exact .inl rfl

end DjangoMojo.Assistant
