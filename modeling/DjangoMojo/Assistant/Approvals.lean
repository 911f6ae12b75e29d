import Mathlib.Data.List.Sort
import Mathlib.Logic.Function.Basic
import DjangoMojo.Assistant.PendingAction
import DjangoMojo.Foundation.Table
import DjangoMojo.Foundation.Trace

/-! # Proposals, resolutions and sweeps

Any number of calls work on one table of pending actions. A call goes from statement to
statement; what it has read, and the instant it took for the present, it carries along. Between
two of its statements every other call may run, and time may pass.
-/

namespace DjangoMojo.Assistant

open Foundation

inductive Decision where
  | approve | cancel
  deriving DecidableEq

/-- A call of `resolve`. The id is missing when it is no uuid, the decision when it is
neither of the two. -/
structure Resolution where
  user : Nat
  actionId : Option Nat
  decision : Option Decision
  conversation : Option Nat
  madeAt : Time

structure Claim where
  request : Resolution
  pk : Nat
  claimedAt : Time

structure SweepRun where
  now : Time
  retentionDays : Int
  stats : SweepStats

/-- Where a call stands: the statement that it executes next, and what it knows. -/
inductive Call where
  | seeking (proposal : Proposal)
  | inserting (proposal : Proposal)
  | superseding (proposal : Proposal) (pk : Nat) (row : PendingAction)
  | capping (proposal : Proposal) (pk : Nat) (row : PendingAction)
  | trimming (proposal : Proposal) (row : PendingAction) (doomed : List Nat)
  | loading (request : Resolution)
  | judging (request : Resolution) (pk : Nat) (row : PendingAction)
  | gating (request : Resolution) (pk : Nat) (row : PendingAction) (entry : ToolEntry) (now : Time)
  | canceling (pk : Nat) (now : Time)
  | failing (pk : Nat) (code : String) (now : Time)
  | claiming (claim : Claim)
  | refreshing (claim : Claim)
  | calling (claim : Claim) (row : PendingAction)
  | running (claim : Claim)
  | recording (claim : Claim) (outcome : Outcome) (now : Time)
  | rereading (pk : Nat) (now : Option Time)
  | expiring (sweep : SweepRun)
  | aging (sweep : SweepRun)
  | deleting (sweep : SweepRun)
  | answered (reply : Reply)

structure HandlerCall where
  request : Resolution
  pk : Nat
  args : JsonFields

structure World where
  clock : Time
  rows : Table Nat PendingAction
  nextPk : Nat
  calls : Nat → Option Call
  proposed : Nat → Option PendingAction
  handled : List HandlerCall

def World.start (clock : Time) (nextPk : Nat) : World :=
  ⟨clock, .empty, nextPk, fun _ => none, fun _ => none, []⟩

inductive Input where
  | none
  | uuid (value : Nat)
  | entry (found : Option ToolEntry)
  | gates (gates : Gates)
  | result (result : HandlerResult)

inductive Label where
  | tick (elapsed : Nat)
  | propose (id : Nat) (request : ProposeRequest)
  | resolve (id user : Nat) (actionId : Option Nat) (decision : Option Decision)
      (conversation : Option Nat)
  | sweep (id : Nat) (retentionDays : Int)
  | proceed (id : Nat) (input : Input)

/-! ### Conditions of the statements -/

namespace PendingAction

/-- `state=pending, expires_at__gt=now`. -/
def isOpen (row : PendingAction) (now : Time) : Bool :=
  row.state = .pending && now < row.expiresAt

def isOperation (row : PendingAction) (proposal : Proposal) : Bool :=
  row.conversation = proposal.request.conversation &&
    row.toolName = proposal.request.toolName &&
    row.argsFingerprint = proposal.argsFingerprint

def moved (row : PendingAction) (state : ActionState) (now : Time) : PendingAction :=
  { row with state, resolvedAt := some now, modified := now }

end PendingAction

/-- `order_by("-pk")`. -/
def newestFirst (keys : List Nat) : List Nat := keys.insertionSort (· ≥ ·)

namespace World

variable (world : World)

/-- The pending action of the same operation that a proposal returns instead of a new one. -/
def existing (proposal : Proposal) : Option PendingAction :=
  (newestFirst (world.rows.select fun _ row =>
    row.isOperation proposal && row.isOpen proposal.now)).head?.bind world.rows.get

def liveKeys (conversation : Nat) (now : Time) : List Nat :=
  newestFirst (world.rows.select fun _ row =>
    row.conversation = conversation && row.isOpen now)

/-- `_load`: by uuid and bound user, within the conversation when the caller names one. -/
def load (request : Resolution) : Option (Nat × PendingAction) :=
  (request.actionId.bind fun uuid =>
    world.rows.rows.find? fun entry => entry.2.uuid = uuid && entry.2.user = request.user).filter
      fun entry => request.conversation.all (entry.2.conversation = ·)

def put (id : Nat) (call : Call) : World :=
  { world with calls := Function.update world.calls id (some call) }

@[simp] theorem put_self (id : Nat) (call : Call) : (world.put id call).calls id = some call :=
  Function.update_self ..

theorem put_of_ne {id other : Nat} (hne : other ≠ id) (call : Call) :
    (world.put id call).calls other = world.calls other := Function.update_of_ne hne ..

/-- `UPDATE … WHERE` on the pending actions. -/
def update (condition : Nat → PendingAction → Bool) (change : PendingAction → PendingAction) :
    World :=
  { world with rows := world.rows.updateWhere condition change }

end World

/-- The entry of a pending action that may still be resolved; every other case is one
refusal. -/
def judge (site : Site) (row : PendingAction) (now : Time) (found : Option ToolEntry) :
    Option ToolEntry :=
  if row.effectiveState now ≠ .pending then none
  else if site.fingerprint row.toolName row.args ≠ row.argsFingerprint then none
  else found.filter ToolEntry.mutates

variable (site : Site)

namespace World

def proceed (world : World) (id : Nat) : Call → Input → Option World
  | .seeking proposal, .none =>
    match world.existing proposal with
    | some row =>
      some (world.put id (.answered (.approvalRequired (site.renderBlock row proposal.now))))
    | none => some (world.put id (.inserting proposal))
  | .inserting proposal, .uuid uuid =>
    if world.rows.select (fun _ row => row.uuid = uuid) ≠ [] then none
    else
      let row := proposal.row site uuid world.clock
      some (({ world with
        rows := world.rows.insert world.nextPk row
        nextPk := world.nextPk + 1
        proposed := Function.update world.proposed world.nextPk (some row) } : World).put id
          (.superseding proposal world.nextPk row))
  | .superseding proposal pk row, .none =>
    some ((world.update
      (fun key other => key < pk && other.state = .pending && other.isOperation proposal)
      (·.moved .superseded proposal.now)).put id (.capping proposal pk row))
  | .capping proposal _ row, .none =>
    let live := world.liveKeys proposal.request.conversation proposal.now
    some (world.put id (.trimming proposal row (live.drop maxLivePerConversation)))
  | .trimming proposal row doomed, .none =>
    some ((world.update (fun key other => key ∈ doomed && other.state = .pending)
      (·.moved .superseded proposal.now)).put id
        (.answered (.approvalRequired (site.renderBlock row proposal.now))))
  | .loading request, .none =>
    match world.load request with
    | some (pk, row) => some (world.put id (.judging request pk row))
    | none => some (world.put id (.answered (refusal .unavailable "")))
  | .judging request pk row, .entry found =>
    match judge site row world.clock found, request.decision with
    | some _, some .cancel => some (world.put id (.canceling pk world.clock))
    | some entry, some .approve =>
      some (world.put id (.gating request pk row entry world.clock))
    | _, _ => some (world.put id (.answered (refusal .unavailable "")))
  | .gating request pk row entry now, .gates gates =>
    match gates.verdict site entry row with
    | .refuse code message => some (world.put id (.answered (refusal code message)))
    | .fail code => some (world.put id (.failing pk code world.clock))
    | .claim => some (world.put id (.claiming ⟨request, pk, now⟩))
  | .canceling pk now, .none =>
    some ((world.update (fun key row => key = pk && row.isOpen now)
      (·.moved .canceled now)).put id (.rereading pk (some now)))
  | .failing pk code now, .none =>
    some ((world.update (fun key row => key = pk && row.state = .pending)
      fun row => { row.moved .failed now with failureCode := code }).put id
        (.answered (refusal .permission "")))
  | .claiming claim, .none =>
    if (world.rows.get claim.pk).any (·.isOpen claim.claimedAt) then
      some ((world.update (fun key row => key = claim.pk && row.isOpen claim.claimedAt)
        fun row => { row with state := .executing, modified := claim.claimedAt }).put id
          (.refreshing claim))
    else some (world.put id (.rereading claim.pk none))
  | .refreshing claim, .none =>
    match world.rows.get claim.pk with
    | some row => some (world.put id (.calling claim row))
    | none => some (world.put id (.answered .doesNotExist))
  | .calling claim row, .none =>
    let call : HandlerCall := ⟨claim.request, claim.pk, row.args⟩
    some (({ world with handled := world.handled ++ [call] } : World).put id (.running claim))
  | .running claim, .result result =>
    some (world.put id (.recording claim (site.dispatched result) world.clock))
  | .recording claim outcome now, .none =>
    some ((world.update (fun key _ => key = claim.pk)
      fun row => { row.moved outcome.state now with
        failureCode := outcome.failureCode
        result := some outcome.result }).put id (.rereading claim.pk (some now)))
  | .rereading pk now, .none =>
    match world.rows.get pk with
    | some row =>
      some (world.put id
        (.answered (.resolved (site.renderBlock row (now.getD world.clock)))))
    | none => some (world.put id (.answered .doesNotExist))
  | .expiring sweep, .none =>
    let condition := fun (_ : Nat) (row : PendingAction) =>
      decide (row.state = .pending) && decide (row.expiresAt ≤ sweep.now)
    some ((world.update condition (·.moved .expired sweep.now)).put id
      (.aging { sweep with
        stats := { sweep.stats with expired := world.rows.countWhere condition } }))
  | .aging sweep, .none =>
    let condition := fun (_ : Nat) (row : PendingAction) =>
      decide (row.state = .executing) && decide (row.modified < sweep.now - executingTimeout)
    some ((world.update condition fun row => { row.moved .failed sweep.now with
        failureCode := "unknown_outcome"
        result := some (.obj [("error", .str unknownOutcomeMessage)]) }).put id
      (.deleting { sweep with
        stats := { sweep.stats with unknownOutcome := world.rows.countWhere condition } }))
  | .deleting sweep, .none =>
    let cutoff := sweep.now - sweep.retentionDays * (24 * 60 * 60 * second)
    let condition := fun (_ : Nat) (row : PendingAction) =>
      row.state.isTerminal && decide (row.modified < cutoff)
    some (({ world with rows := world.rows.deleteWhere condition } : World).put id
      (.answered (.swept { sweep.stats with deleted := world.rows.countWhere condition })))
  | _, _ => none

end World

/-- A call begins under a new id; a call under way goes on; time passes. -/
def step (world : World) : Label → Option World
  | .tick elapsed => some { world with clock := world.clock + elapsed }
  | .propose id request =>
    if (world.calls id).isSome then none
    else
      match request.prepare site world.clock with
      | .ok proposal => some (world.put id (.seeking proposal))
      | .error message => some (world.put id (.answered (.toolError message)))
  | .resolve id user actionId decision conversation =>
    if (world.calls id).isSome then none
    else if decision = none then some (world.put id (.answered (refusal .unavailable "")))
    else some (world.put id (.loading ⟨user, actionId, decision, conversation, world.clock⟩))
  | .sweep id retentionDays =>
    if (world.calls id).isSome then none
    else some (world.put id (.expiring ⟨world.clock, retentionDays, ⟨0, 0, 0⟩⟩))
  | .proceed id input => (world.calls id).bind fun call => world.proceed site id call input

def World.IsQuiet (world : World) : Prop :=
  ∀ id call, world.calls id = some call → ∃ reply, call = .answered reply

end DjangoMojo.Assistant
