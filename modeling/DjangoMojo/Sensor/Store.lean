import DjangoMojo.Foundation.PythonText
import DjangoMojo.Foundation.Table
import DjangoMojo.Foundation.Trace
import DjangoMojo.Sensor.Protocol

/-! # The spool of the sensor

Events that wait for delivery, windows of observations that are still open, and
firewall observations held until they are proven local or expire. A function
that may raise returns an option: `none` makes the transaction around it roll
back. The ledger records what became of every observation and event; no
function reads it.
-/

namespace DjangoMojo.Sensor

open Foundation

def annotationGraceSeconds : Int := 120
def saturatingCounterMax : Nat := 2 ^ 63 - 1

inductive DeliveryClass where
  | ordinary | localOnlyDiagnostic | legacy
  deriving DecidableEq, Repr

/-- The fixed classifiers of an observation that is local to the host. -/
inductive Classifier where
  | systemdUserPam | jobmanFirewallOperation
  deriving DecidableEq, Repr

structure EventRow where
  payload : Event
  severity : Severity
  created : Time
  attempts : Nat := 0
  nextAttempt : Time := 0
  annotationDeadline : Time := 0
  lastError : String := ""
  deliveryClass : DeliveryClass := .ordinary

structure AggregateRow where
  observation : Observation
  severity : Severity
  count : Nat
  firstSeen : String
  lastSeen : String
  flushAt : Time

structure PendingRow where
  payload : Observation
  operationId : String := ""
  created : Time
  expires : Time
  number : Nat

structure FimScan where
  at_ : Time
  entries : Nat

/-- The counters of the `meta` table. -/
inductive Counter where
  | dedupedEvents
  | droppedCapacity
  | droppedCapacityOf (severity : Severity)
  | aggregateEvictedForPriority
  | droppedAggregateCapacity
  | droppedAggregateCapacityOf (severity : Severity)
  | localOnlyObserved
  | localOnlyObservedOf (classifier : Classifier)
  | localOnlySuppressed
  | localOnlySuppressedOf (classifier : Classifier)
  | localOnlyDiagnosticDelivered
  | localOnlyDiagnosticDeliveredOf (classifier : Classifier)
  | provenancePendingCapFlush
  | provenancePendingExpired
  | provenanceHealthFailOpen
  | provenanceProofConflict
  | delivery (status : AckStatus)
  deriving DecidableEq, Repr

/-- What `_enqueue` did with an event: its false result is either of the last two. -/
inductive Outcome where
  | enqueued | deduped | dropped
  deriving DecidableEq, Repr

inductive Origin where
  | observation | window | diagnostic
  deriving DecidableEq, Repr

inductive Entry where
  | received (observation : Observation)
  /-- An event given to `_enqueue`, with the number of rows it found. -/
  | offered (origin : Origin) (event : Event) (rows : Nat) (outcome : Outcome)
  /-- An observation for which no window was opened, with the number of windows
  and whether one of them might have made room. -/
  | refused (observation : Observation) (aggregates : Nat) (evictable : Bool)
  /-- A firewall observation given to `hold_firewall_observation`, and whether a row
  was inserted for it. -/
  | held (number : Nat) (observation : Observation) (inserted : Bool)
  /-- A held observation given to `_ingest_one`. -/
  | handed (number : Nat) (observation : Observation)
  /-- A held observation given to `_record_local_only`. -/
  | recorded (number : Nat) (observation : Observation)

structure Store where
  events : Table String EventRow := .empty
  aggregates : Table String AggregateRow := .empty
  pendingFirewall : Table String PendingRow := .empty
  counters : Counter → Nat := fun _ => 0
  localOnlyLastSeen : Option String := none
  cursors : String → Option Json := fun _ => none
  fimBaseline : String → List (List Char × JsonFields) := fun _ => []
  fimScans : String → Option FimScan := fun _ => none
  diagnosticActive : Bool := false
  ledger : List Entry := []

structure Rules extends Library where
  /-- `build_evidence`, or `none` when it raises. -/
  buildEvidence : String → JsonFields → Option JsonFields
  /-- `classify_local_only` of an observation that is not to be aggregated. -/
  classify : Observation → Option Classifier
  /-- `is_local_only` of a spooled event. -/
  eventLocalOnly : Event → Bool
  /-- A timestamp in UTC, as `observed_timestamp` writes it. -/
  normalized : String → String

variable (rules : Rules) (config : Config)

namespace Store

def increment (store : Store) (counter : Counter) (amount : Nat) : Store :=
  { store with counters := Function.update store.counters counter (store.counters counter + amount) }

/-- `_increment_saturating`. -/
def incrementSaturating (store : Store) (counter : Counter) (amount : Nat) : Store :=
  { store with
    counters := Function.update store.counters counter
      (min saturatingCounterMax (store.counters counter + amount)) }

def note (store : Store) (entry : Entry) : Store := { store with ledger := entry :: store.ledger }

end Store

/-! ### Events -/

/-- The rows of the spool beyond which an event of the severity is dropped. -/
def DeliveryConfig.spoolLimit (delivery : DeliveryConfig) (severity : Severity) : Int :=
  if severity.isHighPriority then delivery.maxSpoolEvents
  else delivery.maxSpoolEvents - delivery.criticalReserveEvents

/-- The seconds that a change of a file waits for its annotation. -/
def Event.graceSeconds (event : Event) : Int :=
  if event.kind = "fim.change" && !event.attributes.isSet "expected_change" then
    annotationGraceSeconds
  else 0

def Event.spooled (event : Event) (now : Time) (deliveryClass : DeliveryClass) : EventRow :=
  let grace := event.graceSeconds
  { payload := event
    severity := event.severity
    created := now
    nextAttempt := now + seconds grace
    annotationDeadline := if grace = 0 then 0 else now + seconds grace
    deliveryClass := deliveryClass }

/-- `_enqueue`. -/
def enqueue (event : Event) (now : Time) (deliveryClass : DeliveryClass) (origin : Origin)
    (store : Store) : Store × Outcome :=
  let rows := store.events.count
  if (store.events.get event.id).isSome then
    ((store.increment .dedupedEvents 1).note (.offered origin event rows .deduped), .deduped)
  else if config.delivery.spoolLimit event.severity ≤ rows then
    (((store.increment .droppedCapacity 1).increment (.droppedCapacityOf event.severity) 1).note
      (.offered origin event rows .dropped), .dropped)
  else
    ({ store with events := store.events.insert event.id (event.spooled now deliveryClass) }.note
      (.offered origin event rows .enqueued), .enqueued)

section

variable {config} {event : Event} {now : Time} {deliveryClass : DeliveryClass} {origin : Origin}
  {store : Store}

theorem enqueue_deduped (hspooled : (store.events.get event.id).isSome = true) :
    enqueue config event now deliveryClass origin store =
      ((store.increment .dedupedEvents 1).note
        (.offered origin event store.events.count .deduped), .deduped) :=
  if_pos hspooled

theorem enqueue_dropped (hfresh : ¬ (store.events.get event.id).isSome = true)
    (hfull : config.delivery.spoolLimit event.severity ≤ store.events.count) :
    enqueue config event now deliveryClass origin store =
      (((store.increment .droppedCapacity 1).increment (.droppedCapacityOf event.severity) 1).note
        (.offered origin event store.events.count .dropped), .dropped) :=
  (if_neg hfresh).trans (if_pos hfull)

theorem enqueue_enqueued (hfresh : ¬ (store.events.get event.id).isSome = true)
    (hroom : ¬ config.delivery.spoolLimit event.severity ≤ store.events.count) :
    enqueue config event now deliveryClass origin store =
      ({ store with
          events := store.events.insert event.id (event.spooled now deliveryClass) }.note
        (.offered origin event store.events.count .enqueued), .enqueued) :=
  (if_neg hfresh).trans (if_neg hroom)

theorem enqueue_aggregates :
    (enqueue config event now deliveryClass origin store).1.aggregates = store.aggregates := by
  by_cases hspooled : (store.events.get event.id).isSome = true
  · rw [enqueue_deduped hspooled]
    rfl
  · by_cases hfull : config.delivery.spoolLimit event.severity ≤ store.events.count
    · rw [enqueue_dropped hspooled hfull]
      rfl
    · rw [enqueue_enqueued hspooled hfull]
      rfl

end

namespace Rules

/-- `classify_local_only`: an observation to be aggregated is never local. -/
def classifier (observation : Observation) : Option Classifier :=
  if observation.aggregate then none else rules.classify observation

/-- The update of `local_only_last_seen`, which keeps the later of two instants. -/
def noteLastSeen (found : Observation) (store : Store) : Option Store :=
  let seen := rules.normalized found.observedAt
  match rules.instant seen with
  | none => none
  | some seenTime =>
    match store.localOnlyLastSeen.bind rules.instant with
    | none => some { store with localOnlyLastSeen := some seen }
    | some currentTime =>
      some (if currentTime < seenTime then { store with localOnlyLastSeen := some seen }
        else store)

/-- `_record_local_only`, which raises without a classifier. -/
def recordLocalOnly (found : Observation) (now : Time) (store : Store) : Option Store := do
  let classifier ← rules.classifier found
  let observed := (store.incrementSaturating .localOnlyObserved 1).incrementSaturating
    (.localOnlyObservedOf classifier) 1
  let store ← rules.noteLastSeen found observed
  if store.diagnosticActive then
    let event ← (rules.makeSingleEvent config.sensorId found).toOption
    let (store, outcome) := enqueue config event now .localOnlyDiagnostic .diagnostic store
    return if outcome = .enqueued then
        (store.incrementSaturating .localOnlyDiagnosticDelivered 1).incrementSaturating
          (.localOnlyDiagnosticDeliveredOf classifier) 1
      else store
  else
    return (store.incrementSaturating .localOnlySuppressed 1).incrementSaturating
      (.localOnlySuppressedOf classifier) 1

end Rules

/-! ### Windows -/

/-- A window as the code holds it in memory, `flushAt` being absent for a new one. -/
structure Aggregate where
  fingerprint : String
  observation : Observation
  count : Nat
  firstSeen : String
  lastSeen : String
  flushAt : Option Time

/-- `min` and `max` of two timestamps, as texts. -/
def earlierText (first second : String) : String := if second < first then second else first
def laterText (first second : String) : String := if first < second then second else first

/-- `merge`. -/
def merge (existing : Option Aggregate) (observation : Observation) : Aggregate :=
  match existing with
  | none =>
    { fingerprint := observation.fingerprint
      observation := observation
      count := 1
      firstSeen := observation.observedAt
      lastSeen := observation.observedAt
      flushAt := none }
  | some aggregate =>
    { aggregate with
      observation :=
        if observation.observedAt < aggregate.lastSeen then aggregate.observation
        else observation
      count := aggregate.count + 1
      firstSeen := earlierText aggregate.firstSeen observation.observedAt
      lastSeen := laterText aggregate.lastSeen observation.observedAt }

/-- `should_flush`. -/
def shouldFlush (aggregate : Aggregate) (flushCount : Int) (due : Bool) : Bool :=
  due || flushCount ≤ aggregate.count

/-- `_aggregate_row`. -/
def Store.aggregateRow (store : Store) (fingerprint : String) : Option Aggregate :=
  (store.aggregates.get fingerprint).map fun row =>
    { fingerprint := fingerprint
      observation := row.observation
      count := row.count
      firstSeen := row.firstSeen
      lastSeen := row.lastSeen
      flushAt := some row.flushAt }

/-- The row that `_save_aggregate` leaves: on a conflict the first instant and the
time of the flush stay as they are. -/
def Config.savedRow (config : Config) (aggregate : Aggregate) (now : Time)
    (old : Option AggregateRow) : AggregateRow :=
  { observation := aggregate.observation
    severity := aggregate.observation.severity
    count := aggregate.count
    firstSeen := (old.map AggregateRow.firstSeen).getD aggregate.firstSeen
    lastSeen := aggregate.lastSeen
    flushAt := (old.map AggregateRow.flushAt).getD
      (aggregate.flushAt.getD (now + seconds config.aggregation.windowSeconds)) }

/-- `_save_aggregate`. -/
def saveAggregate (aggregate : Aggregate) (now : Time) (store : Store) : Store :=
  { store with
    aggregates := store.aggregates.put aggregate.fingerprint
      (config.savedRow aggregate now (store.aggregates.get aggregate.fingerprint)) }

/-- `_flush_aggregate`: the window is gone whatever became of its event. -/
def Rules.flushAggregate (aggregate : Aggregate) (now : Time) (store : Store) : Option Store := do
  let event ← (rules.makeEvent config.sensorId aggregate.observation aggregate.count
    aggregate.firstSeen aggregate.lastSeen).toOption
  let offered := (enqueue config event now .ordinary .window store).1
  return { offered with aggregates := offered.aggregates.delete aggregate.fingerprint }

/-- The number of windows beyond which no new one is opened for the severity. -/
def AggregationConfig.aggregateLimit (aggregation : AggregationConfig) (severity : Severity) : Int :=
  if severity.isHighPriority then aggregation.maxAggregates
  else aggregation.maxAggregates - aggregation.criticalReserveAggregates

/-- The windows that give way to one of high priority, the first due first. -/
def Store.evictable (store : Store) : List String :=
  store.aggregates.orderedBy AggregateRow.flushAt
    (store.aggregates.select fun _ row => !row.severity.isHighPriority)

/-- The eviction that precedes a new window of high priority. -/
def Rules.evict (now : Time) (store : Store) : Option Store :=
  match store.evictable.head?.bind store.aggregateRow with
  | none => some store
  | some victim =>
    (rules.flushAggregate config victim now store).map fun flushed =>
      flushed.increment .aggregateEvictedForPriority 1

/-- The block of `_ingest_one` that precedes a new window: the store, and whether
the window may be opened. -/
def Rules.makeRoom (observation : Observation) (now : Time) (store : Store) :
    Option (Store × Bool) :=
  let count := store.aggregates.count
  let limit := config.aggregation.aggregateLimit observation.severity
  if limit ≤ count then
    if observation.severity.isHighPriority && !store.evictable.isEmpty then
      (rules.evict config now store).map fun evicted =>
        if limit ≤ (count : Int) - 1 then
          (((evicted.increment .droppedAggregateCapacity 1).increment
            (.droppedAggregateCapacityOf observation.severity) 1).note
              (.refused observation count true), false)
        else (evicted, true)
    else
      some (((store.increment .droppedAggregateCapacity 1).increment
        (.droppedAggregateCapacityOf observation.severity) 1).note
          (.refused observation count (!store.evictable.isEmpty)), false)
  else some (store, true)

/-- The merge of an observation into its window, and the flush of a full window. -/
def Rules.extendWindow (observation : Observation) (now : Time) (store : Store) : Option Store :=
  let aggregate := merge (store.aggregateRow observation.fingerprint) observation
  let saved := saveAggregate config aggregate now store
  if shouldFlush aggregate config.aggregation.flushCount false then
    rules.flushAggregate config aggregate now saved
  else some saved

def sudoCommand : String := "auth.sudo_command"

/-- The projection that a sudo command goes through before it is ingested. -/
def Rules.projected (observation : Observation) : Option Observation :=
  if observation.kind = sudoCommand then
    (rules.buildEvidence observation.kind observation.attributes).map fun attributes =>
      { observation with attributes := attributes }
  else some observation

/-- `_ingest_one`. -/
def Rules.ingestOne (observation : Observation) (now : Time) (store : Store) : Option Store := do
  let found ← rules.projected observation
  if (rules.classifier found).isSome then
    rules.recordLocalOnly config found now store
  else if !found.aggregate then
    let event ← (rules.makeSingleEvent config.sensorId found).toOption
    return (enqueue config event now .ordinary .observation store).1
  else if (store.aggregates.get found.fingerprint).isSome then
    rules.extendWindow config found now store
  else
    let (store, admitted) ← rules.makeRoom config found now store
    if admitted then rules.extendWindow config found now store else return store

/-- The turn of `_flush_due` for one window. -/
def Rules.flushDueOne (now : Time) (store : Store) (fingerprint : String) : Option Store :=
  match store.aggregateRow fingerprint with
  | none => some store
  | some aggregate => rules.flushAggregate config aggregate now store

/-- `_flush_due`. -/
def Rules.flushDueRows (now : Time) (store : Store) : Option Store :=
  run (rules.flushDueOne config now) store
    ((store.aggregates.orderedBy AggregateRow.flushAt
      (store.aggregates.select fun _ row => row.flushAt ≤ now)).take 1000)

end DjangoMojo.Sensor
