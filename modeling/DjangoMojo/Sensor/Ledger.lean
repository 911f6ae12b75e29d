import Mathlib.Algebra.Ring.Int.Defs
import DjangoMojo.Sensor.Transactions

/-! # Delivery of the spool

One delivery flushes the due windows, takes a batch, posts it and marks what the
acknowledgement says of each event. Whatever goes wrong after the batch is
posted marks all of it for another attempt.
-/

namespace DjangoMojo.Sensor

open Foundation

variable (rules : Rules) (config : Config)

inductive Response where
  | raised (message : String)
  /-- A status and the body, as JSON or as the error of its decoding. -/
  | answered (status : Int) (body : Except String Json)

structure Exchange where
  flushNow : Time
  batchNow : Time
  sentAt : String
  markNow : Time
  diagnosticActive : Bool := false
  flushCommits : Bool := true
  batchCommits : Bool := true
  markCommits : Bool := true
  retryCommits : Bool := true
  /-- `read_credential` does not raise. -/
  credential : Bool := true
  response : Response
  /-- The text of the error when the transaction of the results fails. -/
  markError : String := ""

/-- The validated acknowledgement of a batch, or the text of the error. -/
def Exchange.acknowledged (exchange : Exchange) (sentIds : List String) :
    Except String (List AckResult) :=
  match exchange.response with
  | .raised message => .error message
  | .answered status body =>
    if status < 200 ∨ 300 ≤ status then .error s!"receiver returned HTTP {status}"
    else do validateAck (← body) sentIds

/-- The loop of `send_once` that drops events from the end until the batch fits. -/
def Rules.sizedBatch (sentAt : String) : Nat → List Event → Except String (List Event)
  | 0, _ => throw "configured batch_bytes cannot hold one valid event"
  | turns + 1, events => do
      let batch ← rules.makeBatch config sentAt events
      if batch.size ≤ config.delivery.batchBytes then return events
      else sizedBatch sentAt turns events.dropLast

structure Sent where
  store : Store
  sentIds : List String
  accepted : Nat := 0
  retry : Nat := 0
  error : String := ""

/-- The end of `send_once`, from the answer on. -/
def Exchange.settle (exchange : Exchange) (sentIds : List String) (store : Store) : Sent :=
  let mark (results : List AckResult) (error : String) : Call :=
    .markDelivery { now := exchange.markNow, sentIds := sentIds, results := results,
                    error := error }
  let failed (error : String) (commits : Bool) : Sent :=
    { store := ((mark [] (shortened error)).attempt rules config commits store).1
      sentIds := sentIds
      retry := sentIds.length
      error := shortened error }
  match exchange.acknowledged sentIds with
  | .error message => failed message exchange.markCommits
  | .ok results =>
    let (marked, committed) :=
      (mark results "").attempt rules config exchange.markCommits store
    if committed then
      { store := marked
        sentIds := sentIds
        accepted := results.countP fun result => result.status.isTerminal &&
          result.status ≠ .rejected
        retry := sentIds.length - results.countP fun result => result.status.isTerminal }
    else failed exchange.markError exchange.retryCommits

/-- The part of `send_once` before the batch is posted: the store it leaves and the
identities of the batch, of which there are none when it ends or raises before. -/
def Rules.prepare (exchange : Exchange) (store : Store) : Store × List String :=
  let (flushed, flushDone) :=
    (Call.flushDue exchange.flushNow).attempt rules config exchange.flushCommits store
  if !flushDone then (flushed, [])
  else
    let batch : BatchCall :=
      { now := exchange.batchNow
        maxEvents := config.delivery.batchEvents
        maxBytes := config.delivery.batchBytes
        diagnosticActive := exchange.diagnosticActive }
    let (reconciled, batchDone) :=
      (Call.pendingBatch batch).attempt rules config exchange.batchCommits flushed
    let events := batch.events reconciled
    if !batchDone || events.isEmpty || !exchange.credential then (reconciled, [])
    else
      match rules.sizedBatch config exchange.sentAt events.length events with
      | .error _ => (reconciled, [])
      | .ok sized => (reconciled, sized.map Event.id)

/-- `send_once`. -/
def Rules.sendOnce (exchange : Exchange) (store : Store) : Sent :=
  let (prepared, sentIds) := rules.prepare config exchange store
  if sentIds.isEmpty then { store := prepared, sentIds := [] }
  else exchange.settle rules config sentIds prepared

/-! ### Runs of the store -/

inductive Action where
  | call (call : Call) (commits : Bool)
  | send (exchange : Exchange)

def step (store : Store) : Action → Option Store
  | .call call commits => some (call.attempt rules config commits store).1
  | .send exchange => some (rules.sendOnce config exchange store).store

end DjangoMojo.Sensor

/-! ## What the ledger says

Three readings of the ledger. The surplus weighs the observations received
against the places where they are now. The account ties the counters and the
spool to the entries. The capacity ties every decision to the rows it found.
-/

namespace DjangoMojo.Sensor

open Foundation

/-! ### Occurrences -/

/-- An observation that is to be aggregated is one occurrence. -/
def Observation.occurrences (observation : Observation) : Nat :=
  if observation.aggregate then 1 else 0

namespace Entry

/-- The occurrences that an entry leaves outside the tables, negative for those that
come in. -/
def weight : Entry → Int
  | .received observation => -observation.occurrences
  | .offered .window event _ _ => event.count
  | .offered .observation _ _ _ | .offered .diagnostic _ _ _ => 0
  | .refused observation _ _ => observation.occurrences
  | .held _ observation inserted => if inserted then 0 else observation.occurrences
  | .handed _ _ | .recorded _ _ => 0

def enqueuedId : Entry → Option String
  | .offered _ event _ .enqueued => some event.id
  | _ => none

/-- The event that an entry says was discarded as a duplicate. -/
def discardedId : Entry → Option String
  | .offered _ event _ .deduped => some event.id
  | _ => none

def isOffered (wanted : Outcome) : Entry → Bool
  | .offered _ _ _ outcome => outcome = wanted
  | _ => false

def isDroppedOf (severity : Severity) : Entry → Bool
  | .offered _ event _ .dropped => event.severity = severity
  | _ => false

def isRefused : Entry → Bool
  | .refused _ _ _ => true
  | _ => false

def isRefusedOf (severity : Severity) : Entry → Bool
  | .refused observation _ _ => observation.severity = severity
  | _ => false

/-- The entry is about the holding of a firewall observation. -/
def isHolding : Entry → Bool
  | .held _ _ _ | .handed _ _ | .recorded _ _ => true
  | .received _ | .offered _ _ _ _ | .refused _ _ _ => false

def Respects (config : Config) : Entry → Prop
  | .offered _ event rows .enqueued => (rows : Int) < config.delivery.spoolLimit event.severity
  | .offered _ event rows .dropped => config.delivery.spoolLimit event.severity ≤ rows
  | .refused observation aggregates evictable =>
    config.aggregation.aggregateLimit observation.severity ≤ aggregates ∧
      (observation.severity.isHighPriority = true → evictable = false)
  | _ => True

end Entry

/-- The counters that count entries, with the entries they count. -/
def Counter.tally : Counter → Option (Entry → Bool)
  | .dedupedEvents => some (Entry.isOffered .deduped)
  | .droppedCapacity => some (Entry.isOffered .dropped)
  | .droppedCapacityOf severity => some (Entry.isDroppedOf severity)
  | .droppedAggregateCapacity => some Entry.isRefused
  | .droppedAggregateCapacityOf severity => some (Entry.isRefusedOf severity)
  | _ => none

/-- Every discarded event repeats the identity of one that was spooled before. -/
def Justified : List Entry → Prop
  | [] => True
  | entry :: older =>
    (∀ id, entry.discardedId = some id → ∃ first ∈ older, first.enqueuedId = some id) ∧
      Justified older

namespace Store

def openOccurrences (store : Store) : Nat := store.aggregates.total AggregateRow.count

def heldOccurrences (store : Store) : Nat :=
  store.pendingFirewall.total fun row => row.payload.occurrences

/-- The occurrences that the tables and the ledger place, less those received. -/
def surplus (store : Store) : Int :=
  store.openOccurrences + store.heldOccurrences + (store.ledger.map Entry.weight).sum

structure Accounted (store : Store) : Prop where
  spooled : ∀ id row, store.events.get id = some row →
    ∃ entry ∈ store.ledger, entry.enqueuedId = some id
  justified : Justified store.ledger
  tallied : ∀ counter counted, counter.tally = some counted →
    store.counters counter = store.ledger.countP counted

structure WithinCapacity (config : Config) (store : Store) : Prop where
  events : (store.events.count : Int) ≤ config.delivery.maxSpoolEvents
  aggregates : (store.aggregates.count : Int) ≤ config.aggregation.maxAggregates
  entries : ∀ entry ∈ store.ledger, entry.Respects config

def HasOrdinary (store : Store) (id : String) : Prop :=
  ∃ row, store.events.get id = some row ∧ row.deliveryClass = .ordinary

end Store

end DjangoMojo.Sensor
