import DjangoMojo.Receiver.Receipt

/-! # Transactions of the receiver

Each definition is one transaction. One that raises is rolled back, which is
`none` here: the caller goes on with the database it had.
-/

namespace DjangoMojo.Receiver

open Foundation Sensor

/-- An event as it arrives, with the key and the batch that brought it. -/
structure Delivery where
  apiKey : Nat
  batch : Batch
  event : Event

def Delivery.key (delivery : Delivery) : ReceiptKey := (delivery.apiKey, delivery.event.id)

structure Settings where
  /-- `_payload_digest`: the SHA-256 of the canonical JSON of the event. -/
  payloadDigest : Event → String
  /-- `MOJOSEC_CASE_ROUTE_MAX_ATTEMPTS`. -/
  caseRouteMaxAttempts : Nat := 100

namespace Settings

variable (settings : Settings)

/-- What every new receipt is given of the delivery that creates it. -/
def receipt (now : Time) (delivery : Delivery) (schema : String)
    (disposition : Option String) : Receipt where
  apiKey := delivery.apiKey
  wireEventId := delivery.event.id
  sensorId := delivery.batch.sensorId
  payloadDigest := settings.payloadDigest delivery.event
  protocolVersion := delivery.batch.version
  sensorPolicyRevision := delivery.batch.policyRevision
  replay := ⟨schema, disposition, some delivery.event⟩
  modified := now

end Settings

namespace Receipt

/-- The update of `_accept_local_only` to a receipt that is not published. -/
def terminalized (now : Time) (receipt : Receipt) : Receipt :=
  { receipt with
    publishState := .published
    publishedAt := some now
    lastError := ""
    replay := { receipt.replay with
      featureSchema := localOnlySchema, disposition := some "local_only" }
    modified := now }

def contributed (now : Time) (case : Nat) (receipt : Receipt) : Receipt :=
  { receipt with mojosecCase := some case, caseContributedAt := some now, modified := now }

/-- `_mark_case_routed_published`, which excludes a published row. -/
def marked (now : Time) (receipt : Receipt) : Receipt :=
  if receipt.publishState = .published then receipt else
  { receipt with
    publishState := .published, publishedAt := some now
    publishAttempts := receipt.publishAttempts + 1, lastError := "", modified := now }

def dead (now : Time) (error : String) (receipt : Receipt) : Receipt :=
  { receipt with
    publishState := .dead, lastError := error
    publishAttempts := receipt.publishAttempts + 1, modified := now }

def converted (now : Time) (event : Nat) (receipt : Receipt) : Receipt :=
  { receipt with event := some event, caseRouted := false, modified := now }

def published (now : Time) (receipt : Receipt) : Receipt :=
  { receipt with
    publishState := .published, publishedAt := some now
    publishAttempts := receipt.publishAttempts + 1, lastError := "", modified := now }

/-- The attempt that a failed contribution or publication leaves on the row. -/
def attempted (now : Time) (error : String) (receipt : Receipt) : Receipt :=
  { receipt with
    publishAttempts := receipt.publishAttempts + 1
    lastError := String.ofList (error.toList.take 256), modified := now }

/-- The fields a projection of the row's evidence takes from the row. -/
def batch (receipt : Receipt) : Batch :=
  ⟨receipt.sensorId, receipt.protocolVersion, receipt.sensorPolicyRevision⟩

end Receipt

/-- How `_convert_case_routed` leaves its transaction. -/
inductive Conversion where
  | duplicate
  | lost
  | event (locked : Loaded)

namespace Database

variable (settings : Settings) (now : Time) (db : Database)

/-- The transaction of `_create_receipt`; a refused receipt takes its Event along. -/
def createReceipt (delivery : Delivery) : Option (Loaded × Database) :=
  let (event, projected) :=
    db.project delivery.key (eventProjection delivery.apiKey delivery.batch delivery.event)
  projected.create
    { settings.receipt now delivery "replay_features_v1" none with event := some event }

/-- The first transaction of `_accept_local_only`. -/
def acceptLocalOnly (delivery : Delivery) : Option (Loaded × Database) :=
  db.create
    { settings.receipt now delivery localOnlySchema (some "local_only") with
      publishState := .published, publishedAt := some now }

/-- The transaction of `_accept_case_routed`. -/
def acceptCaseRouted (delivery : Delivery) : Option (Loaded × Database) :=
  db.create
    { settings.receipt now delivery caseRoutedSchema (some "case_routed") with
      caseRouted := true }

/-- The transaction of `contribute`, once the binding and the normalization have
resolved to a case. The contribution of a case-routed receipt is its publication. -/
def contribute (case pk : Nat) : Option ((Option Nat × Bool) × Database) :=
  (db.receipts.get pk).map fun row =>
    if row.caseContributedAt.isSome then ((row.mojosecCase, false), db)
    else
      let changed := db.update pk (.contributed now case)
      ((some case, true),
        if row.caseRouted then changed.publish row.key .contribution else changed)

/-- The transaction of `_convert_case_routed`. -/
def convertCaseRouted (given : Option Event) (pk : Nat) : Option (Conversion × Database) :=
  (db.receipts.get pk).map fun row =>
    if !row.caseRouted || row.publishState ≠ .pending then (.duplicate, db)
    else
      match given <|> row.replay.event with
      | none => (.lost, db.update pk (.dead now "case-routed receipt lost its replay evidence"))
      | some payload =>
        let (event, projected) := db.project row.key (eventProjection row.apiKey row.batch payload)
        (.event ⟨pk, row.converted now event⟩, projected.update pk (.converted now event))

/-- The transaction of `_publish_receipt`: the locked row and whether it published. -/
def publishReceipt (pk : Nat) : Option ((Loaded × Bool) × Database) :=
  (db.receipts.get pk).map fun row =>
    if row.publishState = .published || row.caseRouted then ((⟨pk, row⟩, false), db)
    else if row.event.isNone then
      if row.publishState = .dead then ((⟨pk, row⟩, false), db)
      else
        let error := "event was pruned before publication"
        ((⟨pk, row.dead now error⟩, false), db.update pk (.dead now error))
    else
      ((⟨pk, row.published now⟩, true), (db.update pk (.published now)).publish row.key .event)

end Database

/-! ## Handling one delivered event

`ingest_batch` handles its events one after the other; `retry_case_routed` takes
up case-routed receipts where an earlier delivery left them. Both are program
counters that move from one transaction to the next, until they come to the
answer for the event. What a process has read of a receipt it keeps, while
other processes change the row.
-/

/-! ### Text that cannot be stored -/

mutual

/-- `has_unstorable_text`; decoded text has no lone surrogates. -/
def hasUnstorableText : Json → Bool
  | .str text => text.toList.contains '\x00'
  | .arr items => anyUnstorable items
  | .obj fields => anyFieldUnstorable fields
  | _ => false

def anyUnstorable : List Json → Bool
  | [] => false
  | item :: rest => hasUnstorableText item || anyUnstorable rest

def anyFieldUnstorable : List (String × Json) → Bool
  | [] => false
  | (key, value) :: rest =>
    key.toList.contains '\x00' || hasUnstorableText value || anyFieldUnstorable rest

end

/-! ### Program counters -/

/-- An exception that a transaction raises after it is rolled back. -/
inductive Fault where
  /-- `DataError` or `UnicodeEncodeError`. -/
  | storage
  | other
  deriving DecidableEq

structure Env where
  fault : Option Fault := none
  /-- `is_local_only` of the event. -/
  localOnly : Bool := false
  /-- The binding is authoritative and the evidence is of the digest tier. -/
  routeNew : Bool := false
  resolves : Bool := false
  case : Nat := 0
  /-- `_queue_handler` has durably queued the handler. -/
  queued : Bool := true
  error : String := ""

/-- Who waits for `_publish_receipt`. -/
inductive Caller where
  | delivery (wasPublished : Bool)
  | conversion

/-- The transactions that follow the acceptance of a receipt. -/
inductive HandlePc where
  | contribute (receipt : Loaded)
  | contributionFailed (receipt : Loaded)
  | mark (receipt : Loaded) (contributed : Bool)
  | convert (receipt : Loaded)
  | publish (receipt : Loaded) (caller : Caller)
  | publicationFailed (receipt : Loaded)
  | queue (receipt : Loaded) (caller : Caller) (published : Bool)
  | shadow (receipt : Loaded) (status : AckStatus)

/-- The transactions that accept a delivered event, and those that follow. -/
inductive Pc where
  | create
  | terminalize
  | existing
  | handle (pc : HandlePc)

inductive Next (Counter : Type) where
  | goto (pc : Counter)
  | answer (status : AckStatus) (reason : String)

def Next.map {First Second : Type} (embed : First → Second) : Next First → Next Second
  | .goto pc => .goto (embed pc)
  | .answer status reason => .answer status reason

/-- The `except` clauses of `ingest_batch`. -/
def Fault.answer {Counter : Type} : Fault → Next Counter
  | .storage => .answer .rejected "event could not be stored"
  | .other => .answer .retry "receiver failed to persist event"

abbrev Move (Counter : Type) := Next Counter × Database

/-- A transaction inside the outer `try`. -/
def attempt {Counter : Type} (env : Env) (db : Database) (body : Option (Move Counter)) :
    Move Counter :=
  match env.fault with
  | some fault => (fault.answer, db)
  | none => body.getD (Fault.other.answer, db)

/-- `_finish_case_routed` up to its first transaction. -/
def finishCaseRouted (receipt : Loaded) (given : Option Event) : Next HandlePc :=
  if receipt.row.publishState = .published then .answer .duplicate ""
  else if (given <|> receipt.row.replay.event).isNone then .goto (.convert receipt)
  else .goto (.contribute receipt)

namespace HandlePc

variable (settings : Settings) (now : Time) (env : Env) (db : Database)

/-- `given` is the event of the delivery, which a sweep has none of. -/
def move (given : Option Event) : HandlePc → Move HandlePc
  | .contribute receipt =>
    if env.fault.isSome then (.goto (.contributionFailed receipt), db)
    else if !env.resolves then (.goto (.convert receipt), db)
    else
      match db.contribute now env.case receipt.pk with
      | none => (.goto (.contributionFailed receipt), db)
      | some ((case, contributed), next) =>
        (.goto (if case.isNone && !contributed then .convert receipt
          else .mark receipt contributed), next)
  | .contributionFailed receipt =>
    attempt env db <| some
      (if settings.caseRouteMaxAttempts ≤ receipt.row.publishAttempts + 1 then
        .goto (.convert receipt)
      else .answer .retry "case contribution failed",
      db.update receipt.pk (.attempted now env.error))
  | .mark receipt contributed =>
    attempt env db <| some
      (.answer (if contributed then .accepted else .duplicate) "",
      db.update receipt.pk (.marked now))
  | .convert receipt =>
    attempt env db <| (db.convertCaseRouted now given receipt.pk).map fun (outcome, next) =>
      (match outcome with
        | .duplicate => .answer .duplicate ""
        | .lost => .answer .rejected "case-routed evidence was lost before conversion"
        | .event locked => .goto (.publish locked .conversion), next)
  | .publish receipt caller =>
    match env.fault, db.publishReceipt now receipt.pk with
    | none, some ((locked, published), next) =>
      (match caller with
        | .delivery _ =>
          if locked.row.publishState = .dead then
            .answer .rejected "event evidence was pruned before publication"
          else .goto (.queue locked caller published)
        | .conversion => .goto (.queue locked caller published), next)
    | _, _ => (.goto (.publicationFailed receipt), db)
  | .publicationFailed receipt =>
    attempt env db <| some (.answer .retry "central publication failed",
      db.update receipt.pk (.attempted now env.error))
  | .queue receipt caller published =>
    attempt env db <| (db.receipts.get receipt.pk).map fun row =>
      (if !env.queued then .answer .retry "handler dispatch was not durably queued"
      else
        match caller with
        | .conversion => .answer .accepted ""
        | .delivery wasPublished =>
          .goto (.shadow ⟨receipt.pk, row⟩
            (if wasPublished || !published then .duplicate else .accepted)), db)
  | .shadow receipt status =>
    -- A failed contribution beside the Event is logged and changes nothing.
    (.answer status "",
      if env.fault.isNone && env.resolves then
        ((db.contribute now env.case receipt.pk).map Prod.snd).getD db
      else db)

end HandlePc

namespace Pc

variable (settings : Settings) (now : Time) (env : Env) (db : Database)

/-- What `ingest_batch` does with the receipt it created or found. -/
def afterReceipt (delivery : Delivery) (receipt : Loaded) : Next Pc :=
  if receipt.row.payloadDigest ≠ settings.payloadDigest delivery.event then
    .answer .rejected "event id was already used for different evidence"
  else if receipt.row.caseRouted then
    (finishCaseRouted receipt (some delivery.event)).map .handle
  else .goto (.handle (.publish receipt (.delivery (receipt.row.publishState = .published))))

/-- The second transaction of `_accept_local_only`, on the row it has locked. -/
def terminalizeMove (delivery : Delivery) (receipt : Loaded) : Move Pc :=
  if receipt.row.payloadDigest ≠ settings.payloadDigest delivery.event then
    (.answer .rejected "event id was already used for different evidence", db)
  else if receipt.row.publishState = .published then (.answer .duplicate "", db)
  else (.answer .accepted "", db.update receipt.pk (.terminalized now))

def move (delivery : Delivery) : Pc → Move Pc
  | .create =>
    if hasUnstorableText delivery.event.json then
      (.answer .rejected "event contains unstorable text", db)
    else
      attempt env db <| some <|
        if env.localOnly then
          match db.acceptLocalOnly settings now delivery with
          | some (_, next) => (.answer .accepted "", next)
          | none => (.goto .terminalize, db)
        else
          match if env.routeNew then db.acceptCaseRouted settings now delivery
              else db.createReceipt settings now delivery with
          | some (receipt, next) => (afterReceipt settings delivery receipt, next)
          | none => (.goto .existing, db)
  | .terminalize =>
    attempt env db <| (db.find delivery.key).map (terminalizeMove settings now db delivery)
  | .existing =>
    attempt env db <| (db.find delivery.key).map fun receipt =>
      (afterReceipt settings delivery receipt, db)
  | .handle pc =>
    let (next, changed) := pc.move settings now env db (some delivery.event)
    (next.map .handle, changed)

end Pc

end DjangoMojo.Receiver
