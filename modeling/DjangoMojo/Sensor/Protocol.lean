import DjangoMojo.Sensor.Event

/-! # The wire protocol between the sensor and the receiver

Validation of events and batches, and the event that is made of an observation
or of a window of them. The identity of an event is a digest of the sensor, the
kind, the fingerprint and the instant at which its window was first seen.
-/

namespace DjangoMojo.Sensor

open Foundation

def maxBatchEvents : Nat := 500
def maxBatchBytes : Nat := 512 * 1024
def maxSummary : Nat := 256
def maxAttributeBytes : Nat := 8 * 1024

structure Library where
  digest : String → String
  /-- `datetime.fromisoformat` after `Z` is replaced by `+00:00`: the instant of an
  aware timestamp, `none` for a text that is refused and for a naive one. -/
  instant : String → Option Int
  /-- `ipaddress.ip_address` accepts the value. -/
  ipAddress : Json → Bool

/-! ### Patterns -/

def isLower (char : Char) : Bool := 'a' ≤ char ∧ char ≤ 'z'
def isUpper (char : Char) : Bool := 'A' ≤ char ∧ char ≤ 'Z'
def isDigit (char : Char) : Bool := '0' ≤ char ∧ char ≤ '9'

/-- `_ID_RE`. -/
def isDigest (text : String) : Bool :=
  text.toList.length = 64 && text.toList.all fun char => isDigit char || ('a' ≤ char ∧ char ≤ 'f')

/-- A first character of one class, then at most `rest` of another. -/
def startsAndGoesOn (first next : Char → Bool) (rest : Nat) (text : String) : Bool :=
  match text.toList with
  | [] => false
  | head :: tail => first head && tail.all next && tail.length ≤ rest

/-- `_KIND_RE`. -/
def isKind : String → Bool :=
  startsAndGoesOn isLower (fun char => isLower char || isDigit char || "_.-".toList.contains char) 95

/-- `_SENSOR_RE`. -/
def isSensor : String → Bool :=
  startsAndGoesOn (fun char => isLower char || isUpper char || isDigit char)
    (fun char => isLower char || isUpper char || isDigit char || "_.:-".toList.contains char) 127

/-- `_ATTRIBUTE_KEY_RE`. -/
def isAttributeKey : String → Bool :=
  startsAndGoesOn isLower (fun char => isLower char || isDigit char || char = '_') 63

/-! ### Attributes -/

mutual

/-- `_validate_attributes`. -/
def validateAttributes (depth : Nat) : Json → Except String Unit
  | .obj fields => do
      check (depth ≤ 3) "event attributes are nested too deeply"
      check (fields.length ≤ 64) "event attributes have too many keys"
      validateFields depth fields
  | .arr items => do
      check (depth ≤ 3) "event attributes are nested too deeply"
      check (items.length ≤ 32) "event attribute lists may contain at most 32 values"
      validateItems depth items
  | .str value => do
      check (depth ≤ 3) "event attributes are nested too deeply"
      check (value.length ≤ 2048) "event attributes contain an unsupported value"
  | .float _ | .int _ | .bool _ | .null =>
    check (depth ≤ 3) "event attributes are nested too deeply"

def validateFields (depth : Nat) : List (String × Json) → Except String Unit
  | [] => .ok ()
  | (key, child) :: rest => do
      check (isAttributeKey key) "event attribute keys must use lowercase snake_case"
      validateAttributes (depth + 1) child
      validateFields depth rest

def validateItems (depth : Nat) : List Json → Except String Unit
  | [] => .ok ()
  | child :: rest => do
      validateAttributes (depth + 1) child
      validateItems depth rest

end

/-! ### Events -/

def recommendations : List String := ["none", "review", "block_ip"]

variable (library : Library)

namespace Library

/-- `_require_timestamp`. -/
def requireTimestamp (value label : String) : Except String Int := do
  check (value.length ≤ 40) s!"{label} must be an ISO-8601 string"
  match library.instant value with
  | some instant => pure instant
  | none => throw s!"{label} must be an ISO-8601 timestamp"

/-- `validate_event`. -/
def validateEvent (event : Event) : Except String Unit := do
  check (isDigest event.id) "event id must be a lowercase SHA-256 digest"
  check (isKind event.kind) "event kind is invalid"
  let observed ← library.requireTimestamp event.observedAt "event observed_at"
  let first ← library.requireTimestamp event.firstSeen "event first_seen"
  let last ← library.requireTimestamp event.lastSeen "event last_seen"
  check (first ≤ last ∧ observed = last)
    "event timestamps must satisfy first_seen <= last_seen == observed_at"
  check (event.summary ≠ "" ∧ event.summary.length ≤ maxSummary)
    "event summary must be 1-256 characters"
  check (1 ≤ event.count ∧ event.count ≤ 1000000000)
    "event count must be an integer from 1 to 1000000000"
  check (recommendations.contains event.recommendation) "event recommendation is invalid"
  validateAttributes 0 (.obj event.attributes)
  check ((Json.obj event.attributes).size ≤ maxAttributeBytes)
    "event attributes exceed the encoded size limit"
  match event.attributes.field "source_ip" with
  | some source => check (!source.truthy || library.ipAddress source) "event source_ip is invalid"
  | none => pure ()

/-- `event_id`. -/
def eventId (sensorId kind fingerprint firstSeen : String) : String :=
  library.digest (String.intercalate "\x00" [sensorId, kind, fingerprint, firstSeen])

/-- `make_event` before its validation. -/
def assembleEvent (sensorId : String) (observation : Observation) (count : Nat)
    (firstSeen lastSeen : String) : Event :=
  let firstSeen := if firstSeen = "" then observation.observedAt else firstSeen
  let lastSeen := if lastSeen = "" then observation.observedAt else lastSeen
  { id := library.eventId sensorId observation.kind observation.fingerprint firstSeen
    kind := observation.kind
    observedAt := lastSeen
    firstSeen := firstSeen
    lastSeen := lastSeen
    severity := observation.severity
    summary := String.ofList (observation.summary.toList.take maxSummary)
    count := count
    attributes := observation.attributes
    recommendation := observation.recommendation }

/-- `make_event`; an absent timestamp is the empty text. -/
def makeEvent (sensorId : String) (observation : Observation) (count : Nat)
    (firstSeen lastSeen : String) : Except String Event := do
  let event := library.assembleEvent sensorId observation count firstSeen lastSeen
  library.validateEvent event
  return event

/-- `make_event` of one observation on its own. -/
def makeSingleEvent (sensorId : String) (observation : Observation) : Except String Event :=
  library.makeEvent sensorId observation 1 "" ""

theorem makeEvent_ok {sensorId : String} {observation : Observation} {count : Nat}
    {firstSeen lastSeen : String} {event : Event}
    (hevent : library.makeEvent sensorId observation count firstSeen lastSeen = .ok event) :
    event = library.assembleEvent sensorId observation count firstSeen lastSeen := by
  simp only [makeEvent, bind_ok, pure_ok] at hevent
  obtain ⟨_, _, hassembled⟩ := hevent
  exact hassembled.symm

/-! ### Batches -/

def batchJson (config : Config) (sentAt : String) (events : List Event) : Json :=
  .obj [("events", .arr (events.map Event.json)),
    ("policy_revision", .str (String.ofList (config.policyRevision.toList.take 128))),
    ("schema", .str "mojosec.batch"), ("sensor_id", .str config.sensorId),
    ("sent_at", .str sentAt), ("version", .int 1)]

/-- The loop over the events of `validate_batch`, with the identities seen so far. -/
def validateEvents : List String → List Event → Except String Unit
  | _, [] => .ok ()
  | seen, event :: rest => do
      library.validateEvent event
      check (!seen.contains event.id) "batch contains duplicate event ids"
      validateEvents (event.id :: seen) rest

/-- `make_batch` at the instant `sentAt`; the batch made, as JSON. -/
def makeBatch (config : Config) (sentAt : String) (events : List Event) :
    Except String Json := do
  check (isSensor config.sensorId) "sensor_id is invalid"
  let _ ← library.requireTimestamp sentAt "batch sent_at"
  check (!events.isEmpty) "batch events must be a non-empty list"
  check (events.length ≤ maxBatchEvents) "batch contains too many events"
  library.validateEvents [] events
  check ((batchJson config sentAt events).size ≤ maxBatchBytes)
    "batch exceeds the encoded size limit"
  return batchJson config sentAt events

end Library

/-! ### Acknowledgements -/

inductive AckStatus where
  | accepted | duplicate | rejected | retry
  deriving DecidableEq, Repr

namespace AckStatus

def ofText : String → Option AckStatus
  | "accepted" => some .accepted
  | "duplicate" => some .duplicate
  | "rejected" => some .rejected
  | "retry" => some .retry
  | _ => none

def isTerminal : AckStatus → Bool
  | .accepted | .duplicate | .rejected => true
  | .retry => false

end AckStatus

structure AckResult where
  id : String
  status : AckStatus
  reason : Option String := none

/-- `sorted` of field names. -/
def sortedNames (names : List String) : List String := names.mergeSort fun first second =>
  decide (first ≤ second)

def commaJoined (names : List String) : String := String.intercalate ", " (sortedNames names)

/-- `_require_keys`; the fields of an object that has the right ones. -/
def requireKeys (value : Json) (required optional : List String) (label : String) :
    Except String JsonFields := do
  match value with
  | .obj fields =>
    let keys := fields.map Prod.fst
    let missing := required.filter fun key => !keys.contains key
    let unknown := keys.filter fun key => !required.contains key && !optional.contains key
    check missing.isEmpty
      s!"{label} missing fields: {commaJoined missing}"
    check unknown.isEmpty
      s!"{label} has unknown fields: {commaJoined unknown}"
    return fields
  | _ => throw s!"{label} must be an object"

/-- One turn of the loop over the results in `validate_ack`. -/
def validateAckResult (expected seen : List String) (value : Json) :
    Except String AckResult := do
  let result ← requireKeys value ["id", "status"] ["reason"] "ack result"
  match result.field "id" with
  | some (.str id) =>
    check (isDigest id) "ack result id must be a lowercase SHA-256 digest"
    check (!seen.contains id) "ack contains duplicate event ids"
    check (expected.isEmpty || expected.contains id) "ack contains an event id that was not sent"
    match result.field "status" with
    | some (.str text) =>
      match AckStatus.ofText text with
      | some status =>
        match result.field "reason" with
        | none => return { id := id, status := status }
        | some (.str reason) =>
          check (reason.length ≤ 256) "ack result reason is invalid"
          return { id := id, status := status, reason := some reason }
        | some _ => throw "ack result reason is invalid"
      | none => throw "ack result status is invalid"
    | _ => throw "ack result status is invalid"
  | _ => throw "ack result id must be a lowercase SHA-256 digest"

def validateAckResults (expected : List String) : List String → List Json →
    Except String (List AckResult)
  | _, [] => .ok []
  | seen, value :: rest => do
      let result ← validateAckResult expected seen value
      let others ← validateAckResults expected (result.id :: seen) rest
      return result :: others

/-- `validate_ack`; the results of an acknowledgement that is accepted. -/
def validateAck (value : Json) (expected : List String) : Except String (List AckResult) := do
  let fields ← requireKeys value ["schema", "version", "results"] [] "ack"
  match fields.field "schema", fields.field "version" with
  | some (.str "mojosec.ack"), some (.int 1) =>
    match fields.field "results" with
    | some (.arr results) =>
      check (results.length ≤ maxBatchEvents) "ack contains too many results"
      validateAckResults expected [] results
    | _ => throw "ack results must be a list"
  | _, _ => throw "unsupported MojoSec acknowledgement schema or version"

end DjangoMojo.Sensor

/-! ## What the protocol accepts

An event is accepted when its identity, its timestamps, its count and what it
took from its observation each are. Two events of one observation differ in the
first three only.
-/

namespace DjangoMojo.Sensor

open Foundation

/-! ### Attributes -/

theorem validateFields_ok {depth : Nat} {fields : JsonFields} :
    validateFields depth fields = .ok () ↔
      ∀ entry ∈ fields, isAttributeKey entry.1 = true ∧
        validateAttributes (depth + 1) entry.2 = .ok () := by
  induction fields with
  | nil => simp [validateFields]
  | cons entry rest ih =>
    simp only [validateFields, bind_ok, check_ok, ih, List.forall_mem_cons]
    constructor
    · rintro ⟨_, hkey, _, hvalue, hrest⟩
      exact ⟨⟨hkey, hvalue⟩, hrest⟩
    · rintro ⟨⟨hkey, hvalue⟩, hrest⟩
      exact ⟨(), hkey, (), hvalue, hrest⟩

theorem validateAttributes_obj_ok {depth : Nat} {fields : JsonFields} :
    validateAttributes depth (.obj fields) = .ok () ↔
      depth ≤ 3 ∧ fields.length ≤ 64 ∧ ∀ entry ∈ fields, isAttributeKey entry.1 = true ∧
        validateAttributes (depth + 1) entry.2 = .ok () := by
  simp only [validateAttributes, bind_ok, check_ok, decide_eq_true_eq, validateFields_ok]
  constructor
  · rintro ⟨_, hdepth, _, hlength, hfields⟩
    exact ⟨hdepth, hlength, hfields⟩
  · rintro ⟨hdepth, hlength, hfields⟩
    exact ⟨(), hdepth, (), hlength, hfields⟩

theorem validateAttributes_str_ok {depth : Nat} {value : String} :
    validateAttributes depth (.str value) = .ok () ↔ depth ≤ 3 ∧ value.length ≤ 2048 := by
  simp only [validateAttributes, bind_ok, check_ok, decide_eq_true_eq]
  constructor
  · rintro ⟨_, hdepth, hlength⟩
    exact ⟨hdepth, hlength⟩
  · rintro ⟨hdepth, hlength⟩
    exact ⟨(), hdepth, hlength⟩

theorem length_le_of_startsAndGoesOn {first next : Char → Bool} {rest : Nat} {text : String}
    (hmatch : startsAndGoesOn first next rest text = true) : text.length ≤ rest + 1 := by
  unfold startsAndGoesOn at hmatch
  rw [← String.length_toList]
  split at hmatch
  · cases hmatch
  next head tail htext =>
    simp only [Bool.and_eq_true, decide_eq_true_eq] at hmatch
    rw [htext, List.length_cons]
    omega

/-! ### Events -/

namespace Library

variable (library : Library)

/-- The part of `validate_event` that an event has from its observation. -/
structure ContentAccepted (event : Event) : Prop where
  kind : isKind event.kind = true
  summary : event.summary ≠ "" ∧ event.summary.length ≤ maxSummary
  recommendation : recommendations.contains event.recommendation = true
  attributes : validateAttributes 0 (.obj event.attributes) = .ok ()
  size : (Json.obj event.attributes).size ≤ maxAttributeBytes
  source : ∀ source, event.attributes.field "source_ip" = some source →
    (!source.truthy || library.ipAddress source) = true

/-- A timestamp that `_require_timestamp` accepts, with its instant. -/
def Dated (value : String) (instant : Int) : Prop :=
  value.length ≤ 40 ∧ library.instant value = some instant

/-- The part of `validate_event` about the timestamps. -/
def TimesAccepted (event : Event) : Prop :=
  ∃ first last, library.Dated event.firstSeen first ∧ library.Dated event.lastSeen last ∧
    library.Dated event.observedAt last ∧ first ≤ last

def maxCount : Nat := 1000000000

variable {library} {event : Event}

theorem requireTimestamp_ok {value label : String} {instant : Int} :
    library.requireTimestamp value label = .ok instant ↔ library.Dated value instant := by
  simp only [requireTimestamp, bind_ok, check_ok, decide_eq_true_eq, Dated]
  cases library.instant value with
  | none => simp [throw, throwThe, MonadExceptOf.throw]
  | some found => simp

theorem validateEvent_ok :
    library.validateEvent event = .ok () ↔
      isDigest event.id = true ∧ library.TimesAccepted event ∧
        (1 ≤ event.count ∧ event.count ≤ maxCount) ∧ library.ContentAccepted event := by
  simp only [validateEvent, bind_ok, check_ok, decide_eq_true_eq, requireTimestamp_ok]
  constructor
  · rintro ⟨_, hid, _, hkind, observed, hobserved, first, hfirst, last, hlast, _, ⟨hle, rfl⟩,
      _, hsummary, _, hcount, _, hrecommendation, _, hattributes, _, hsize, hsource⟩
    refine ⟨hid, ⟨first, observed, hfirst, hlast, hobserved, hle⟩, hcount,
      ⟨hkind, hsummary, hrecommendation, hattributes, hsize, ?_⟩⟩
    intro source hfield
    rw [hfield] at hsource
    simpa only [check_ok] using hsource
  · rintro ⟨hid, ⟨first, last, hfirst, hlast, hobserved, hle⟩, hcount, hcontent⟩
    refine ⟨(), hid, (), hcontent.kind, last, hobserved, first, hfirst, last, hlast, (),
      ⟨hle, rfl⟩, (), hcontent.summary, (), hcount, (), hcontent.recommendation, (),
      hcontent.attributes, (), hcontent.size, ?_⟩
    cases hfield : event.attributes.field "source_ip" with
    | none => rfl
    | some source => exact check_ok.mpr (hcontent.source source hfield)

theorem makeEvent_isSome {sensorId : String} {observation : Observation} {count : Nat}
    {firstSeen lastSeen : String} :
    (library.makeEvent sensorId observation count firstSeen lastSeen).toOption.isSome = true ↔
      library.validateEvent
        (library.assembleEvent sensorId observation count firstSeen lastSeen) = .ok () := by
  simp only [Option.isSome_iff_exists, toOption_some, makeEvent, bind_ok, pure_ok]
  constructor
  · rintro ⟨event, _, hvalid, _⟩
    exact hvalid
  · intro hvalid
    exact ⟨_, (), hvalid, rfl⟩

theorem contentAccepted_assembleEvent {sensorId : String} {observation : Observation}
    {count otherCount : Nat} {firstSeen lastSeen otherFirst otherLast : String}
    (hcontent : library.ContentAccepted
      (library.assembleEvent sensorId observation count firstSeen lastSeen)) :
    library.ContentAccepted
      (library.assembleEvent sensorId observation otherCount otherFirst otherLast) :=
  ⟨hcontent.kind, hcontent.summary, hcontent.recommendation, hcontent.attributes, hcontent.size,
    hcontent.source⟩

end Library

end DjangoMojo.Sensor
