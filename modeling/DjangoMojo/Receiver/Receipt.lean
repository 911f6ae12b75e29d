import DjangoMojo.Foundation.Table
import DjangoMojo.Sensor.Protocol

/-! # Receipts of the incident receiver

The receiver keeps one receipt for every event a sensor delivers. The unique
constraint on the API key and the identity of the event is what makes a second
delivery find the receipt of the first. Beside the rows the database keeps a
log of what was done for each event.
-/

namespace DjangoMojo.Receiver

open Foundation Sensor

inductive PublishState where
  | pending | published | dead
  deriving DecidableEq, Repr

/-- `replay_features`, as far as the receiver reads it back. -/
structure Replay where
  featureSchema : String
  disposition : Option String := none
  event : Option Event

def localOnlySchema : String := "local_only_receipt_v1"
def caseRoutedSchema : String := "case_routed_receipt_v1"

structure Batch where
  sensorId : String
  version : Nat
  policyRevision : String

abbrev ReceiptKey := Nat × String

structure Receipt where
  apiKey : Nat
  wireEventId : String
  sensorId : String
  payloadDigest : String
  protocolVersion : Nat
  sensorPolicyRevision : String
  replay : Replay
  event : Option Nat := none
  caseRouted : Bool := false
  mojosecCase : Option Nat := none
  caseContributedAt : Option Time := none
  publishState : PublishState := .pending
  publishedAt : Option Time := none
  publishAttempts : Nat := 0
  lastError : String := ""
  modified : Time

def Receipt.key (receipt : Receipt) : ReceiptKey := (receipt.apiKey, receipt.wireEventId)

/-- A model instance: the values a process has read of a row. -/
structure Loaded where
  pk : Nat
  row : Receipt

/-! ### The incident Event of a delivered event -/

/-- `KIND_POLICY`: the level of each kind. -/
def kindPolicy : List (String × Nat) :=
  [("auth.ssh_login", 8), ("auth.ssh_failure", 5), ("auth.sudo_command", 8),
    ("auth.sudo_failure", 8), ("auth.session_open", 2), ("system.oom", 12),
    ("system.service_error", 8), ("web.probe", 8), ("web.error", 5), ("web.denied", 5),
    ("fim.change", 8), ("fim.overflow", 12), ("fim.expected_change_error", 8)]

/-- `UNKNOWN_KIND_POLICY`. -/
def unknownCategory : String := "mojosec.unrecognized"
def unknownLevel : Nat := 2

structure IncidentEvent where
  category : String
  scope : String := "mojosec"
  level : Nat
  title : String
  details : String
  modelName : String := "mojosec_sensor"
  sensorId : String
  installationKeyId : Nat
  eventId : String
  protocolVersion : Nat
  kind : String
  sensorSeverity : Severity
  recommendation : String
  count : Nat
  firstSeen : String
  lastSeen : String

/-- `_event_projection`; `installation` is the API key of the sensor. -/
def eventProjection (installation : Nat) (batch : Batch) (event : Event) : IncidentEvent where
  category := if (kindPolicy.lookup event.kind).isSome then "mojosec." ++ event.kind
    else unknownCategory
  level := (kindPolicy.lookup event.kind).getD unknownLevel
  title := String.ofList ((if event.kind = "auth.session_open" then
      "MojoSec detected local PAM service session"
    else "MojoSec detected " ++ event.kind).toList.take 256)
  details := "MojoSec sensor " ++ batch.sensorId ++ " reported " ++ toString event.count ++
    " occurrence(s) of " ++ event.kind ++ ". Host recommendation: " ++ event.recommendation ++
    " (advisory only)."
  sensorId := batch.sensorId
  installationKeyId := installation
  eventId := event.id
  protocolVersion := batch.version
  kind := event.kind
  sensorSeverity := event.severity
  recommendation := event.recommendation
  count := event.count
  firstSeen := event.firstSeen
  lastSeen := event.lastSeen

/-! ### The database -/

/-- What publishes an event: the contribution of a case-routed receipt to its
case, or the publication of the incident Event. -/
inductive Publication where
  | contribution | event
  deriving DecidableEq

inductive Effect where
  | projected (key : ReceiptKey)
  | published (key : ReceiptKey) (through : Publication)

namespace Effect

def isProjection (key : ReceiptKey) : Effect → Bool
  | projected other => other = key
  | published .. => false

def isPublication (key : ReceiptKey) : Effect → Bool
  | projected _ => false
  | published other _ => other = key

end Effect

structure Database where
  receipts : Table Nat Receipt
  events : Table Nat IncidentEvent
  nextReceipt : Nat
  nextEvent : Nat
  log : List Effect

namespace Database

def empty : Database := ⟨.empty, .empty, 1, 1, []⟩

variable (db : Database)

/-- How many incident Events were created for an event of the wire. -/
def projections (key : ReceiptKey) : Nat := db.log.countP (Effect.isProjection key)

def publications (key : ReceiptKey) : Nat := db.log.countP (Effect.isPublication key)

def receiptsOf (key : ReceiptKey) : List Nat :=
  db.receipts.select fun _ receipt => receipt.key = key

/-- `MojoSecReceipt.objects.filter(...).first()`. -/
def find (key : ReceiptKey) : Option Loaded :=
  (db.receiptsOf key).head?.bind fun pk => (db.receipts.get pk).map fun row => ⟨pk, row⟩

/-- `objects.create`; `none` when the unique constraint refuses the row. -/
def create (receipt : Receipt) : Option (Loaded × Database) :=
  if (db.receiptsOf receipt.key).isEmpty then
    some (⟨db.nextReceipt, receipt⟩,
      { db with receipts := db.receipts.insert db.nextReceipt receipt
                nextReceipt := db.nextReceipt + 1 })
  else none

/-- `Event.save` of a new Event, for the event of the wire under the key. -/
def project (key : ReceiptKey) (event : IncidentEvent) : Nat × Database :=
  (db.nextEvent,
    { db with events := db.events.insert db.nextEvent event
              nextEvent := db.nextEvent + 1
              log := .projected key :: db.log })

def publish (key : ReceiptKey) (through : Publication) : Database :=
  { db with log := .published key through :: db.log }

def update (pk : Nat) (change : Receipt → Receipt) : Database :=
  { db with receipts := db.receipts.modify pk change }

theorem mem_receiptsOf {key : ReceiptKey} {pk : Nat} :
    pk ∈ db.receiptsOf key ↔ ∃ row, db.receipts.get pk = some row ∧ row.key = key := by
  simp [receiptsOf, Table.mem_select]

theorem find_some {key : ReceiptKey} {found : Loaded} (hfind : db.find key = some found) :
    db.receipts.get found.pk = some found.row ∧ found.row.key = key := by
  simp only [find, Option.bind_eq_some_iff, Option.map_eq_some_iff] at hfind
  obtain ⟨pk, hpk, row, hrow, rfl⟩ := hfind
  obtain ⟨other, hother, hkey⟩ := (db.mem_receiptsOf).mp (List.mem_of_mem_head? hpk)
  rw [hrow] at hother
  cases hother
  exact ⟨hrow, hkey⟩

theorem exists_find {key : ReceiptKey} {pk : Nat} {row : Receipt}
    (hrow : db.receipts.get pk = some row) (hkey : row.key = key) :
    ∃ found, db.find key = some found := by
  have hmem : pk ∈ db.receiptsOf key := db.mem_receiptsOf.mpr ⟨row, hrow, hkey⟩
  obtain ⟨first, rest, hlist⟩ := List.exists_cons_of_ne_nil (List.ne_nil_of_mem hmem)
  have hfirst : first ∈ db.receiptsOf key := by
    rw [hlist]
    exact List.mem_cons_self
  obtain ⟨found, hfound, _⟩ := db.mem_receiptsOf.mp hfirst
  exact ⟨⟨first, found⟩, by simp [find, hlist, hfound]⟩

theorem create_some {receipt : Receipt} {created : Loaded} {next : Database}
    (hcreate : db.create receipt = some (created, next)) :
    (∀ pk row, db.receipts.get pk = some row → row.key ≠ receipt.key) ∧
      created = ⟨db.nextReceipt, receipt⟩ ∧
      next = { db with receipts := db.receipts.insert db.nextReceipt receipt
                       nextReceipt := db.nextReceipt + 1 } := by
  unfold create at hcreate
  split at hcreate
  next hempty =>
    cases hcreate
    refine ⟨fun pk row hrow hkey => ?_, rfl, rfl⟩
    have hmem : pk ∈ db.receiptsOf receipt.key := db.mem_receiptsOf.mpr ⟨row, hrow, hkey⟩
    rw [List.isEmpty_iff.mp hempty] at hmem
    cases hmem
  next => cases hcreate

end Database

end DjangoMojo.Receiver
