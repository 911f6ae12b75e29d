import Mathlib.Data.List.Basic
import DjangoMojo.Foundation.Checks
import DjangoMojo.Foundation.Json

/-! # Observations and events of the host sensor

A collector makes observations. The store makes events of them, one at a time
or one for a window of observations with the same fingerprint.
-/

namespace DjangoMojo.Sensor

open Foundation

abbrev Time := Int

def seconds (count : Int) : Time := count * 1000000

inductive Severity where
  | info | warning | high | critical
  deriving DecidableEq, Repr

namespace Severity

def isHighPriority : Severity → Bool
  | .high | .critical => true
  | .info | .warning => false

def text : Severity → String
  | .info => "info"
  | .warning => "warning"
  | .high => "high"
  | .critical => "critical"

end Severity

structure Observation where
  kind : String
  fingerprint : String
  observedAt : String
  severity : Severity
  summary : String
  attributes : JsonFields := []
  recommendation : String := "none"
  aggregate : Bool

def Observation.json (observation : Observation) : Json :=
  .obj [("aggregate", .bool observation.aggregate), ("attributes", .obj observation.attributes),
    ("fingerprint", .str observation.fingerprint), ("kind", .str observation.kind),
    ("observed_at", .str observation.observedAt),
    ("recommendation", .str observation.recommendation),
    ("severity", .str observation.severity.text), ("summary", .str observation.summary)]

structure Event where
  id : String
  kind : String
  observedAt : String
  firstSeen : String
  lastSeen : String
  severity : Severity
  summary : String
  count : Nat
  attributes : JsonFields
  recommendation : String

def Event.json (event : Event) : Json :=
  .obj [("attributes", .obj event.attributes), ("count", .int event.count),
    ("first_seen", .str event.firstSeen), ("id", .str event.id), ("kind", .str event.kind),
    ("last_seen", .str event.lastSeen), ("observed_at", .str event.observedAt),
    ("recommendation", .str event.recommendation), ("severity", .str event.severity.text),
    ("summary", .str event.summary)]

/-! ## Configuration of the aggregation and of the delivery

The two sections of the sensor's configuration that bound the store and the
sender, with the part of the validation that reads them.
-/

structure AggregationConfig where
  windowSeconds : Int := 60
  flushCount : Int := 25
  maxAggregates : Int := 10000
  criticalReserveAggregates : Int := 1000

structure DeliveryConfig where
  batchEvents : Int := 100
  batchBytes : Int := 262144
  timeoutSeconds : Int := 15
  retryMinSeconds : Int := 5
  retryMaxSeconds : Int := 300
  maxSpoolEvents : Int := 50000
  criticalReserveEvents : Int := 1000

structure Config where
  sensorId : String
  policyRevision : String := ""
  aggregation : AggregationConfig := {}
  delivery : DeliveryConfig := {}

/-- `_integer`, of a value that is an integer. -/
def integer (value : Int) (label : String) (minimum maximum : Int) : Except String Unit :=
  check (minimum ≤ value ∧ value ≤ maximum) s!"{label} must be an integer from {minimum} to {maximum}"

/-- The aggregation section of `validate_config`. -/
def validateAggregation (aggregation : AggregationConfig) : Except String Unit := do
  integer aggregation.windowSeconds "aggregation.window_seconds" 1 86400
  integer aggregation.flushCount "aggregation.flush_count" 1 1000000
  integer aggregation.maxAggregates "aggregation.max_aggregates" 100 10000000
  integer aggregation.criticalReserveAggregates "aggregation.critical_reserve_aggregates" 0 1000000
  check (aggregation.criticalReserveAggregates < aggregation.maxAggregates)
    "aggregation.critical_reserve_aggregates must be less than max_aggregates"

/-- The delivery section of `validate_config`. -/
def validateDelivery (delivery : DeliveryConfig) : Except String Unit := do
  integer delivery.batchEvents "delivery.batch_events" 1 500
  integer delivery.batchBytes "delivery.batch_bytes" 16384 524288
  integer delivery.timeoutSeconds "delivery.timeout_seconds" 1 120
  integer delivery.retryMinSeconds "delivery.retry_min_seconds" 1 3600
  integer delivery.retryMaxSeconds "delivery.retry_max_seconds" 1 86400
  integer delivery.maxSpoolEvents "delivery.max_spool_events" 100 10000000
  integer delivery.criticalReserveEvents "delivery.critical_reserve_events" 0 1000000
  check (delivery.retryMinSeconds ≤ delivery.retryMaxSeconds)
    "delivery.retry_max_seconds must be at least retry_min_seconds"
  check (delivery.criticalReserveEvents < delivery.maxSpoolEvents)
    "delivery.critical_reserve_events must be less than max_spool_events"

/-- `validate_config` accepts the two sections. -/
def Config.Accepted (config : Config) : Prop :=
  validateAggregation config.aggregation = .ok () ∧ validateDelivery config.delivery = .ok ()

theorem validateAggregation_ok {aggregation : AggregationConfig}
    (hvalid : validateAggregation aggregation = .ok ()) :
    (1 ≤ aggregation.flushCount ∧ aggregation.flushCount ≤ 1000000) ∧
      0 ≤ aggregation.criticalReserveAggregates ∧ 100 ≤ aggregation.maxAggregates := by
  simp only [validateAggregation, integer, bind_ok, check_ok, decide_eq_true_eq] at hvalid
  obtain ⟨_, _, _, hflush, _, hmaximum, _, hreserve, _⟩ := hvalid
  exact ⟨hflush, hreserve.1, hmaximum.1⟩

theorem validateDelivery_ok {delivery : DeliveryConfig}
    (hvalid : validateDelivery delivery = .ok ()) :
    0 ≤ delivery.criticalReserveEvents ∧ 100 ≤ delivery.maxSpoolEvents := by
  simp only [validateDelivery, integer, bind_ok, check_ok, decide_eq_true_eq] at hvalid
  obtain ⟨_, _, _, _, _, _, _, _, _, _, _, hmaximum, _, hreserve, _⟩ := hvalid
  exact ⟨hreserve.1, hmaximum.1⟩

end DjangoMojo.Sensor
