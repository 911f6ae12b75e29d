import DjangoMojo.Sensor.Store

/-! # The calls of the store

Each call is one transaction over the tables: its body either ends and commits,
or raises and leaves the tables as they were. What a call reads outside the
modelled tables (the clock, the diagnostic override, the health of the audit,
the process provenance, the manifest of expected changes) comes with the call.
-/

namespace DjangoMojo.Sensor

open Foundation

def annotationMaxGraceSeconds : Int := 20 * 60
def localOnlyReconcileLimit : Nat := 256
def pendingOperationCap : Nat := 4096
def pendingOperationMaxBytes : Nat := 32 * 1024 * 1024

variable (rules : Rules) (config : Config)

/-! ### Held firewall observations -/

def Store.holdings (store : Store) : Nat :=
  store.ledger.countP fun entry =>
    match entry with
    | .held _ _ _ => true
    | _ => false

def Store.deletePending (store : Store) (id : String) : Store :=
  { store with pendingFirewall := store.pendingFirewall.delete id }

/-- A held observation goes to `_ingest_one` and its row goes; the counter of the
branch, if it has one, goes up in between. -/
def Rules.handOver (observation : Observation) (counter : Option Counter) (now : Time)
    (id : String) (number : Nat) (store : Store) : Option Store := do
  let ingested ← rules.ingestOne config observation now store
  let counted := match counter with
    | some counter => ingested.incrementSaturating counter 1
    | none => ingested
  return (counted.note (.handed number observation)).deletePending id

def Rules.release (counter : Option Counter) (now : Time) (store : Store) (id : String) :
    Option Store :=
  match store.pendingFirewall.get id with
  | none => some store
  | some row => rules.handOver config row.payload counter now id row.number store

def Store.heldByAge (store : Store) : List String :=
  store.pendingFirewall.orderedBy PendingRow.created store.pendingFirewall.keys

def Store.heldBytes (store : Store) : Nat :=
  store.pendingFirewall.total fun row => row.payload.json.size

/-- The loop that brings the held payloads under their byte budget; every turn
removes a row, so that the number of rows bounds the turns. -/
def Rules.shrinkHeld (now : Time) : Nat → Store → Option Store
  | 0, store => some store
  | turns + 1, store =>
    if store.heldBytes ≤ pendingOperationMaxBytes then some store
    else
      (run (rules.release config (some .provenancePendingCapFlush) now) store
        (store.heldByAge.take 128)).bind (shrinkHeld now turns)

/-- The insertion of `hold_firewall_observation`: a fingerprint that is held already
keeps its row. -/
def insertHeld (observation : Observation) (now : Time) (store : Store) : Store :=
  let number := store.holdings
  let row : PendingRow :=
    { payload := observation, created := now, expires := now + seconds 30, number := number }
  { store with
    pendingFirewall := store.pendingFirewall.insert observation.fingerprint row }.note
      (.held number observation (store.pendingFirewall.get observation.fingerprint).isNone)

/-- `hold_firewall_observation`. -/
def Rules.holdFirewallObservation (observation : Observation) (now : Time) (store : Store) :
    Option Store := do
  if 65536 < observation.json.size then none
  let inserted := insertHeld observation now store
  let capped ← run (rules.release config (some .provenancePendingCapFlush) now) inserted
    (inserted.heldByAge.drop pendingOperationCap)
  rules.shrinkHeld config now capped.pendingFirewall.count capped

/-- `_flush_expired_firewall`. -/
def Rules.flushExpiredFirewall (now : Time) (store : Store) : Option Store :=
  run (rules.release config (some .provenancePendingExpired) now) store
    ((store.pendingFirewall.orderedBy PendingRow.expires
      (store.pendingFirewall.select fun _ row => row.expires ≤ now)).take 512)

/-- What the health epochs, receipts, process nodes and origins say of a held
observation. -/
inductive Verdict where
  | keep
  | unhealthy
  | ambiguousOrigin
  | conflict
  | proven (proof : JsonFields)

/-- The turn of `_resolve_pending_firewall` for one row. -/
def Rules.resolveOne (currentHealth : Option Bool) (verdict : Observation → Verdict) (now : Time)
    (store : Store) (id : String) : Option Store :=
  match store.pendingFirewall.get id with
  | none => some store
  | some row =>
    match currentHealth with
    | none => some store
    | some false => rules.release config (some .provenanceHealthFailOpen) now store id
    | some true =>
      match verdict row.payload with
      | .keep => some store
      | .unhealthy => rules.release config (some .provenanceHealthFailOpen) now store id
      | .ambiguousOrigin => rules.release config none now store id
      | .conflict =>
        rules.handOver config
          { row.payload with
            attributes := row.payload.attributes.set "proof_status" (.str "conflict") }
          (some .provenanceProofConflict) now id row.number store
      | .proven proof => do
          let attributes ← rules.buildEvidence row.payload.kind
            (proof.foldl (fun fields entry => fields.set entry.1 entry.2)
              row.payload.attributes)
          let observation := { row.payload with attributes := attributes }
          let recorded ← rules.recordLocalOnly config observation now store
          return (recorded.note (.recorded row.number observation)).deletePending id

/-- `_resolve_pending_firewall`. -/
def Rules.resolvePendingFirewall (currentHealth : Option Bool) (verdict : Observation → Verdict)
    (now : Time) (store : Store) : Option Store :=
  run (rules.resolveOne config currentHealth verdict now) store (store.heldByAge.take 512)

/-! ### Ingestion -/

structure IngestCall where
  now : Time
  observations : List Observation
  cursor : Option (String × Json) := none
  diagnosticActive : Bool := false
  currentHealth : Option Bool := none
  /-- The attributes that `_enrich_sudo` leaves on a sudo command. -/
  enrich : Observation → JsonFields := Observation.attributes
  /-- The newest health epoch of the observation's boot is healthy. -/
  healthy : Observation → Bool := fun _ => false
  verdict : Observation → Verdict := fun _ => .keep

/-- `_broker_candidate`. -/
def brokerCandidate (observation : Observation) : Bool :=
  let attributes := observation.attributes
  observation.kind = sudoCommand &&
    (attributes.field "command").any (Json.isText "/usr/local/sbin/mojo-firewall-broker") &&
    (attributes.field "attribution_provenance").any (Json.isText "none") &&
    !attributes.isSet "source_ip" && !attributes.isSet "tty" && attributes.isSet "boot_id" &&
    (attributes.field "audit_session").any Json.isInt &&
    (attributes.field "producer_pid").any Json.isInt &&
    (attributes.field "monotonic").any Json.isInt

/-- The sudo command with the attributes that `_enrich_sudo` and `build_evidence` give it;
another observation is left as it is. -/
def Rules.enriched (call : IngestCall) (observation : Observation) : Option Observation :=
  if observation.kind = sudoCommand then
    rules.projected { observation with attributes := call.enrich observation }
  else some observation

/-- The turn of `ingest` for one observation. -/
def Rules.ingestFound (call : IngestCall) (store : Store) (observation : Observation) :
    Option Store := do
  let found ← rules.enriched call observation
  let received := store.note (.received found)
  if brokerCandidate found && call.healthy found then
    rules.holdFirewallObservation config found call.now received
  else
    rules.ingestOne config found call.now received

/-- The body of `ingest`. -/
def Rules.ingest (call : IngestCall) (store : Store) : Option Store := do
  let ingested ← run (rules.ingestFound config call) store call.observations
  let resolved ← rules.resolvePendingFirewall config call.currentHealth call.verdict call.now
    ingested
  let expired ← rules.flushExpiredFirewall config call.now resolved
  let flushed ← rules.flushDueRows config call.now expired
  return match call.cursor with
    | some (key, cursor) =>
      { flushed with cursors := Function.update flushed.cursors key (some cursor) }
    | none => flushed

structure FimScanCall where
  now : Time
  profile : String
  snapshot : List (RawText × JsonFields)
  observations : List Observation
  complete : Bool

/-- The rows of a snapshot; a path that cannot be encoded makes the statement raise. -/
def baselineRows : List (RawText × JsonFields) → Option (List (List Char × JsonFields))
  | [] => some []
  | (path, entry) :: rest => do
      let encoded ← path.encoded
      let others ← baselineRows rest
      return (encoded, entry) :: others

def recordBaseline (call : FimScanCall) (store : Store) : Option Store :=
  if call.complete then
    (baselineRows call.snapshot).map fun rows =>
      { store with
        fimBaseline := Function.update store.fimBaseline call.profile rows
        fimScans := Function.update store.fimScans call.profile
          (some { at_ := call.now, entries := call.snapshot.length }) }
  else some store

/-- The body of `record_fim_scan`. -/
def Rules.recordFimScan (call : FimScanCall) (store : Store) : Option Store := do
  let ingested ← run (fun store observation =>
    rules.ingestOne config observation call.now (store.note (.received observation))) store
      call.observations
  let recorded ← recordBaseline call ingested
  rules.flushDueRows config call.now recorded

/-! ### Annotation -/

structure AnnotateCall where
  now : Time
  entries : Bool
  activePaths : List String
  /-- `annotation` of an event by the time it was spooled. -/
  annotation : Event → Time → Option JsonFields

/-- The longer wait of a change on a path that an operation has not left yet. -/
def AnnotateCall.extendedDeadline (call : AnnotateCall) (row : EventRow) : Time :=
  let ceiling := row.created + seconds annotationMaxGraceSeconds
  let active := (row.payload.attributes.field "path").any fun path =>
    call.activePaths.any fun text => path.isText text
  if active && call.now < ceiling then
    min ceiling (max row.annotationDeadline (call.now + seconds annotationGraceSeconds))
  else row.annotationDeadline

def EventRow.extendedTo (deadline : Time) (row : EventRow) : EventRow :=
  if row.annotationDeadline < deadline then
    { row with nextAttempt := deadline, annotationDeadline := deadline }
  else row

def EventRow.annotated (value : JsonFields) (now : Time) (row : EventRow) : EventRow :=
  { row with
    payload := { row.payload with
      attributes := row.payload.attributes.set "expected_change" (.obj value) }
    nextAttempt := now
    annotationDeadline := 0 }

/-- The row that one turn of `annotate_pending_fim` leaves. -/
def AnnotateCall.changedRow (call : AnnotateCall) (row : EventRow) : EventRow :=
  if row.payload.kind ≠ "fim.change" || row.payload.attributes.isSet "expected_change" then row
  else
    let deadline := call.extendedDeadline row
    let waiting := row.extendedTo deadline
    if deadline ≤ call.now || !call.entries then waiting
    else
      match call.annotation row.payload row.created with
      | none => waiting
      | some value => waiting.annotated value call.now

/-- The rows that `annotate_pending_fim` looks at. -/
def Store.awaitingAnnotation (store : Store) : List String :=
  (store.events.orderedBy EventRow.created
    (store.events.select fun _ row =>
      0 < row.annotationDeadline && row.attempts = 0 && row.lastError = "")).take 4096

/-- The body of `annotate_pending_fim`. -/
def annotatePendingFim (call : AnnotateCall) (store : Store) : Store :=
  { store with
    events := store.awaitingAnnotation.foldl
      (fun events id => events.modify id call.changedRow) store.events }

/-! ### Delivery -/

/-- Rows of a class in the order of their delivery, by creation and then by identity. -/
def Store.classRows (store : Store) (deliveryClass : DeliveryClass) : List String :=
  store.events.orderedBy EventRow.created
    (sortedNames (store.events.select fun _ row => row.deliveryClass = deliveryClass))

def deleteAll (events : Table String EventRow) (ids : List String) : Table String EventRow :=
  ids.foldl Table.delete events

def reclassify (deliveryClass : DeliveryClass) (events : Table String EventRow)
    (ids : List String) : Table String EventRow :=
  ids.foldl (fun events id =>
    events.modify id fun row => { row with deliveryClass := deliveryClass }) events

/-- The queued diagnostics that go when the override is off. -/
def Store.staleDiagnostics (store : Store) : List String :=
  if store.diagnosticActive then []
  else (store.classRows .localOnlyDiagnostic).take localOnlyReconcileLimit

/-- The rows of an older version that are looked at, after the diagnostics are gone. -/
def Store.legacyRows (store : Store) : List String :=
  (store.classRows .legacy).take localOnlyReconcileLimit

def Rules.localOnlyRows (store : Store) : List String :=
  store.legacyRows.filter fun id =>
    (store.events.get id).any fun row => rules.eventLocalOnly row.payload

/-- The events after the rows of an older version got their class. -/
def Rules.classifiedEvents (store : Store) : Table String EventRow :=
  let localOnly := rules.localOnlyRows store
  let ordinary := store.legacyRows.filter fun id => !localOnly.contains id
  let classified := reclassify .ordinary store.events ordinary
  if store.diagnosticActive then reclassify .localOnlyDiagnostic classified localOnly
  else deleteAll classified localOnly

/-- `_reconcile_local_only`. -/
def Rules.reconcileLocalOnly (store : Store) : Store :=
  let stale := store.staleDiagnostics
  let remaining := { store with events := deleteAll store.events stale }
  let reconciled := { remaining with events := rules.classifiedEvents remaining }
  let suppressed := stale.length +
    if store.diagnosticActive then 0 else (rules.localOnlyRows remaining).length
  if suppressed = 0 then reconciled
  else reconciled.incrementSaturating .localOnlySuppressed suppressed

def privateFields : List String :=
  ["mtime_ns", "ctime_ns", "device", "inode", "sha256", "target_sha256"]

def Event.withoutPrivateFields (event : Event) : Event :=
  if event.kind = "fim.change" then
    { event with attributes := privateFields.foldl JsonFields.pop event.attributes }
  else event

/-- The events that fit into a batch, of which the first always does. -/
def fitBatch (maxBytes : Int) : Int → Bool → List Event → List Event
  | _, _, [] => []
  | used, taken, event :: rest =>
    let size : Int := event.json.size + 1
    if taken && maxBytes < used + size then []
    else event :: fitBatch maxBytes (used + size) true rest

structure BatchCall where
  now : Time
  maxEvents : Int
  maxBytes : Int
  diagnosticActive : Bool := false

def Store.dueRows (store : Store) (now : Time) (deliveryClass : DeliveryClass) : List String :=
  (store.classRows deliveryClass).filter fun id =>
    (store.events.get id).any fun row => row.nextAttempt ≤ now

/-- The events that `pending_batch` returns, of the reconciled store. -/
def BatchCall.events (call : BatchCall) (store : Store) : List Event :=
  let ordinary := (store.dueRows call.now .ordinary).take call.maxEvents.toNat
  let diagnostic := if call.diagnosticActive then
      (store.dueRows call.now .localOnlyDiagnostic).take (call.maxEvents.toNat - ordinary.length)
    else []
  fitBatch call.maxBytes 1024 false
    ((ordinary ++ diagnostic).filterMap fun id =>
      (store.events.get id).map fun row => row.payload.withoutPrivateFields)

structure MarkCall where
  now : Time
  sentIds : List String
  results : List AckResult
  error : String := ""

/-- The result for an event: the last one of its identity, or the default. -/
def MarkCall.result (call : MarkCall) (id : String) : AckResult :=
  (call.results.reverse.find? fun result => result.id = id).getD
    { id := id, status := .retry,
      reason := some (if call.error = "" then "missing ack" else call.error) }

def shortened (text : String) : String := String.ofList (text.toList.take 256)

/-- The delay before attempt number `attempts + 1`, in seconds. -/
def DeliveryConfig.retryDelay (delivery : DeliveryConfig) (attempts : Nat) : Int :=
  min delivery.retryMaxSeconds (delivery.retryMinSeconds * 2 ^ min (attempts - 1) 16)

def MarkCall.retried (call : MarkCall) (result : AckResult) (row : EventRow) : EventRow :=
  let reason := result.reason.getD ""
  { row with
    attempts := row.attempts + 1
    nextAttempt := call.now + seconds (config.delivery.retryDelay (row.attempts + 1))
    annotationDeadline := 0
    lastError := shortened (if reason ≠ "" then reason
      else if call.error ≠ "" then call.error else "retry") }

/-- The turn of `mark_delivery` for one event. -/
def MarkCall.markOne (call : MarkCall) (store : Store) (id : String) : Store :=
  let result := call.result id
  if result.status.isTerminal then
    { store with events := store.events.delete id }.increment (.delivery result.status) 1
  else if (store.events.get id).isSome then
    { store with events := store.events.modify id (call.retried config result) }.increment
      (.delivery .retry) 1
  else store

/-- The body of `mark_delivery`. -/
def markDelivery (call : MarkCall) (store : Store) : Store :=
  call.sentIds.foldl (call.markOne config) store

/-! ### Calls as transactions -/

inductive Call where
  | ingest (call : IngestCall)
  | flushDue (now : Time)
  | reconcilePendingFirewall (now : Time)
  | recordFimScan (call : FimScanCall)
  | annotatePendingFim (call : AnnotateCall)
  | pendingBatch (call : BatchCall)
  | markDelivery (call : MarkCall)

/-- What a call assigns to the process before its transaction begins. -/
def Call.begun (store : Store) : Call → Store
  | .ingest call => { store with diagnosticActive := call.diagnosticActive }
  | .pendingBatch call => { store with diagnosticActive := call.diagnosticActive }
  | _ => store

def Call.body (store : Store) : Call → Option Store
  | .ingest call => rules.ingest config call store
  | .flushDue now => rules.flushDueRows config now store
  | .reconcilePendingFirewall now => rules.flushExpiredFirewall config now store
  | .recordFimScan call => rules.recordFimScan config call store
  | .annotatePendingFim call => some (Sensor.annotatePendingFim call store)
  | .pendingBatch _ => some (rules.reconcileLocalOnly store)
  | .markDelivery call => some (Sensor.markDelivery config call store)

/-- A call whose transaction commits, unless its body raises, or rolls back: the store
it leaves, and whether it committed. -/
def Call.attempt (call : Call) (commits : Bool) (store : Store) : Store × Bool :=
  let begun := call.begun store
  match if commits then call.body rules config begun else none with
  | some committed => (committed, true)
  | none => (begun, false)

end DjangoMojo.Sensor
