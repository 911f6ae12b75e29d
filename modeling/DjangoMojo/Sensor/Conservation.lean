import DjangoMojo.Sensor.Durability

/-! # Conservation of occurrences

Every aggregated observation that the store ever took in is in an open window, in
an event that was spooled, held for a proof, or accounted for as lost: discarded
with the event of an earlier window of the same identity, or refused for want of
room.
-/

namespace DjangoMojo.Sensor

open Foundation

namespace Entry

/-- The occurrences of an event that was made of a window, when the outcome is the
wanted one. -/
def windowCount (wanted : Outcome) : Entry → Nat
  | .offered .window event _ outcome => if outcome = wanted then event.count else 0
  | _ => 0

def receivedCount : Entry → Nat
  | .received observation => observation.occurrences
  | _ => 0

def refusedCount : Entry → Nat
  | .refused observation _ _ => observation.occurrences
  | _ => 0

/-- The occurrences of an observation that was not held because its fingerprint was. -/
def repeatedCount : Entry → Nat
  | .held _ observation inserted => if inserted then 0 else observation.occurrences
  | _ => 0

theorem weight_eq (entry : Entry) :
    entry.weight = (windowCount .enqueued entry + windowCount .deduped entry +
      windowCount .dropped entry + refusedCount entry + repeatedCount entry : Int) -
        receivedCount entry := by
  cases entry with
  | offered origin event rows outcome =>
    cases origin with
    | window => cases outcome <;> simp [weight, windowCount, refusedCount, repeatedCount,
        receivedCount]
    | _ => simp [weight, windowCount, refusedCount, repeatedCount, receivedCount]
  | held number observation inserted =>
    cases inserted <;> simp [weight, windowCount, refusedCount, repeatedCount, receivedCount]
  | _ => simp [weight, windowCount, refusedCount, repeatedCount, receivedCount]

end Entry

namespace Store

variable (store : Store)

def counted (measure : Entry → Nat) : Nat := (store.ledger.map measure).sum

def receivedOccurrences : Nat := store.counted Entry.receivedCount

/-- The occurrences of all events ever enqueued from windows. -/
def enqueuedOccurrences : Nat := store.counted (Entry.windowCount .enqueued)

/-- The occurrences of windows that were discarded as duplicates. -/
def discardedOccurrences : Nat := store.counted (Entry.windowCount .deduped)

def lostOccurrences : Nat :=
  store.counted (Entry.windowCount .dropped) + store.counted Entry.refusedCount

def repeatedOccurrences : Nat := store.counted Entry.repeatedCount

def HitsNoLimit : Prop :=
  store.counters .droppedCapacity = 0 ∧ store.counters .droppedAggregateCapacity = 0

end Store

theorem surplus_eq (store : Store) :
    store.surplus = (store.openOccurrences + store.heldOccurrences + store.enqueuedOccurrences +
      store.discardedOccurrences + store.lostOccurrences + store.repeatedOccurrences : Int) -
        store.receivedOccurrences := by
  have hweights (ledger : List Entry) : (ledger.map Entry.weight).sum =
      ((ledger.map (Entry.windowCount .enqueued)).sum +
        (ledger.map (Entry.windowCount .deduped)).sum +
        (ledger.map (Entry.windowCount .dropped)).sum + (ledger.map Entry.refusedCount).sum +
        (ledger.map Entry.repeatedCount).sum : Int) - (ledger.map Entry.receivedCount).sum := by
    induction ledger with
    | nil => rfl
    | cons entry older ih =>
      simp only [List.map_cons, List.sum_cons]
      rw [ih, Entry.weight_eq]
      push_cast
      omega
  rw [Store.surplus, hweights]
  simp only [Store.enqueuedOccurrences, Store.discardedOccurrences, Store.lostOccurrences,
    Store.repeatedOccurrences, Store.receivedOccurrences, Store.counted]
  push_cast
  omega

/-- What is true of the occurrences in every state of a run. -/
structure Conserves (store : Store) : Prop where
  occurrences : store.receivedOccurrences =
    store.openOccurrences + store.enqueuedOccurrences + store.discardedOccurrences +
      store.heldOccurrences + store.repeatedOccurrences + store.lostOccurrences
  counted : store.counters .dedupedEvents = store.ledger.countP (Entry.isOffered .deduped)
  /-- And repeats the identity of an event that was spooled before. -/
  duplicates : Justified store.ledger
  unlimited : store.HitsNoLimit → store.lostOccurrences = 0

theorem counted_eq_zero {measure : Entry → Nat} (counted : Entry → Bool)
    (hzero : ∀ entry, counted entry = false → measure entry = 0) {ledger : List Entry}
    (hcount : ledger.countP counted = 0) : (ledger.map measure).sum = 0 := by
  rw [List.countP_eq_zero] at hcount
  apply List.sum_eq_zero
  intro total htotal
  obtain ⟨entry, hentry, rfl⟩ := List.mem_map.mp htotal
  exact hzero entry (by simpa using hcount entry hentry)

theorem conserves_of_balanced {store : Store} (hsurplus : store.surplus = 0)
    (haccounted : store.Accounted) : Conserves store where
  occurrences := by
    rw [surplus_eq] at hsurplus
    omega
  counted := haccounted.tallied .dedupedEvents _ rfl
  duplicates := haccounted.justified
  unlimited hlimit := by
    have hdropped : store.counted (Entry.windowCount .dropped) = 0 := by
      refine counted_eq_zero (Entry.isOffered .dropped) ?_ ?_
      · intro entry hentry
        cases entry with
        | offered origin event rows outcome =>
          cases origin <;> simp_all [Entry.isOffered, Entry.windowCount]
        | _ => rfl
      · rw [← haccounted.tallied .droppedCapacity _ rfl]
        exact hlimit.1
    have hrefused : store.counted Entry.refusedCount = 0 := by
      refine counted_eq_zero Entry.isRefused ?_ ?_
      · intro entry hentry
        cases entry with
        | refused => cases hentry
        | _ => rfl
      · rw [← haccounted.tallied .droppedAggregateCapacity _ rfl]
        exact hlimit.2
    rw [Store.lostOccurrences, hdropped, hrefused]

theorem accounted_empty : ({} : Store).Accounted where
  spooled _ _ hrow := nomatch hrow
  justified := trivial
  tallied _ _ _ := rfl

/-- In every run from the empty store the observations ingested are those in open windows,
in events enqueued from windows, in windows discarded as duplicates of an earlier one and
counted, held or repeated while held, and lost to a limit of capacity that was hit. -/
theorem conserves_always (rules : Rules) (config : Config) (actions : List Action) :
    Always (step rules config) Conserves {} actions := by
  have hinvariant : Always (step rules config) (fun store => store.surplus = 0 ∧ store.Accounted)
      {} actions := by
    refine always_of_inductive ?_ ⟨rfl, accounted_empty⟩ actions
    intro store action next hstore hnext
    have hbalanced := step_balanced rules config store action next hnext
    exact ⟨hbalanced.surplus.trans hstore.1, hbalanced.accounted hstore.2⟩
  exact hinvariant.imp fun store hstore => conserves_of_balanced hstore.1 hstore.2

/-! ### Windows of one instant -/

/-- The conservation without discarded windows: while no limit is hit, what was ingested
is in open windows and in enqueued events. -/
def ConservesWindows (store : Store) : Prop :=
  store.HitsNoLimit →
    store.receivedOccurrences = store.openOccurrences + store.enqueuedOccurrences

instance (store : Store) : Decidable store.HitsNoLimit :=
  inferInstanceAs (Decidable (_ ∧ _))

instance (store : Store) : Decidable (ConservesWindows store) :=
  inferInstanceAs (Decidable (_ → _))

/-- A digest that is right for one material, and an instant for one timestamp. -/
def sampleRules : Rules where
  digest _ := "13bd2c4d519037ab8d12560a1252f4215f5bce98de7c16910e370271f011fe04"
  instant text := if text = "2026-08-11T02:44:00Z" then some 0 else none
  ipAddress _ := true
  buildEvidence _ attributes := some attributes
  classify _ := none
  eventLocalOnly _ := false
  normalized text := text

def serverError : Observation where
  kind := "web.error"
  fingerprint := "9f86d081884c7d659a2feaa0c55ad015a3bf4f1b2b0b822cd15d6c15b0f00a08"
  observedAt := "2026-08-11T02:44:00Z"
  severity := .warning
  summary := "Server error"
  aggregate := true

/-- Four errors of one second with windows of two: the second window has the identity of
the first, and its two occurrences are in no event. -/
theorem not_conservesWindows_sameSecond :
    ¬ Always (step sampleRules { sensorId := "web1", aggregation := { flushCount := 2 } })
      ConservesWindows {}
      [.call (.ingest { now := 0, observations := List.replicate 4 serverError }) true] := by
  refine not_always_of_run (fun store => decide (ConservesWindows store))
    (fun store hstore => decide_eq_true hstore) ?_
  decide +kernel

/-! ## Reserved capacity

The spool and the windows stay within their limits, the reserve of each is left
to events of high priority, and what is refused is counted.
-/

structure ReservesCapacity (config : Config) (store : Store) : Prop where
  events : (store.events.count : Int) ≤ config.delivery.maxSpoolEvents
  aggregates : (store.aggregates.count : Int) ≤ config.aggregation.maxAggregates
  /-- An event of low priority was inserted only below the reserve. -/
  lowInserted : ∀ origin event (rows : Nat), .offered origin event rows .enqueued ∈ store.ledger →
    event.severity.isHighPriority = false →
      (rows : Int) < config.delivery.maxSpoolEvents - config.delivery.criticalReserveEvents
  highDropped : ∀ origin event (rows : Nat), .offered origin event rows .dropped ∈ store.ledger →
    event.severity.isHighPriority = true → config.delivery.maxSpoolEvents ≤ rows
  /-- A window of high priority was refused only when all windows were taken, none of
  them by one of low priority. -/
  highRefused : ∀ observation (aggregates : Nat) evictable,
    .refused observation aggregates evictable ∈ store.ledger →
      observation.severity.isHighPriority = true →
        config.aggregation.maxAggregates ≤ aggregates ∧ evictable = false
  droppedCounted : store.counters .droppedCapacity =
      store.ledger.countP (Entry.isOffered .dropped) ∧
    ∀ severity, store.counters (.droppedCapacityOf severity) =
      store.ledger.countP (Entry.isDroppedOf severity)
  refusedCounted : store.counters .droppedAggregateCapacity =
      store.ledger.countP Entry.isRefused ∧
    ∀ severity, store.counters (.droppedAggregateCapacityOf severity) =
      store.ledger.countP (Entry.isRefusedOf severity)

theorem reservesCapacity_of_within {config : Config} {store : Store}
    (haccounted : store.Accounted) (hcapacity : store.WithinCapacity config) :
    ReservesCapacity config store where
  events := hcapacity.events
  aggregates := hcapacity.aggregates
  lowInserted origin event rows hentry hlow := by
    have hrespects := hcapacity.entries _ hentry
    have hlimit : config.delivery.spoolLimit event.severity =
        config.delivery.maxSpoolEvents - config.delivery.criticalReserveEvents :=
      if_neg (by rw [hlow]; exact Bool.false_ne_true)
    rw [← hlimit]
    exact hrespects
  highDropped origin event rows hentry hhigh := by
    have hrespects := hcapacity.entries _ hentry
    have hlimit : config.delivery.spoolLimit event.severity = config.delivery.maxSpoolEvents :=
      if_pos hhigh
    rw [← hlimit]
    exact hrespects
  highRefused observation aggregates evictable hentry hhigh := by
    obtain ⟨hfull, hnone⟩ := hcapacity.entries _ hentry
    have hlimit : config.aggregation.aggregateLimit observation.severity =
        config.aggregation.maxAggregates := if_pos hhigh
    rw [hlimit] at hfull
    exact ⟨hfull, hnone hhigh⟩
  droppedCounted := ⟨haccounted.tallied .droppedCapacity _ rfl, fun severity =>
    haccounted.tallied (.droppedCapacityOf severity) _ rfl⟩
  refusedCounted := ⟨haccounted.tallied .droppedAggregateCapacity _ rfl, fun severity =>
    haccounted.tallied (.droppedAggregateCapacityOf severity) _ rfl⟩

theorem withinCapacity_empty {config : Config} (haccepted : config.Accepted) :
    ({} : Store).WithinCapacity config where
  events := by
    have hmaximum := (validateDelivery_ok haccepted.2).2
    change (0 : Int) ≤ _
    omega
  aggregates := by
    have hmaximum := (validateAggregation_ok haccepted.1).2
    change (0 : Int) ≤ _
    omega
  entries _ hentry := nomatch hentry

/-- With a configuration that is accepted, the limits hold in every state of every run. -/
theorem reservesCapacity_always (rules : Rules) (config : Config) (haccepted : config.Accepted)
    (actions : List Action) :
    Always (step rules config) (ReservesCapacity config) {} actions := by
  have hinvariant : Always (step rules config)
      (fun store => store.Accounted ∧ store.WithinCapacity config) {} actions := by
    refine always_of_inductive ?_ ⟨accounted_empty, withinCapacity_empty haccepted⟩ actions
    intro store action next hstore hnext
    have hbalanced := step_balanced rules config store action next hnext
    exact ⟨hbalanced.accounted hstore.1, hbalanced.capacity haccepted hstore.2⟩
  exact hinvariant.imp fun store hstore => reservesCapacity_of_within hstore.1 hstore.2

theorem reservesCapacity_sameSecond :
    Always (step sampleRules { sensorId := "web1" }) (ReservesCapacity { sensorId := "web1" }) {}
      [.call (.ingest { now := 0, observations := List.replicate 4 serverError }) true,
        .call (.flushDue (seconds 60)) true] :=
  reservesCapacity_always sampleRules { sensorId := "web1" } ⟨rfl, rfl⟩ _

end DjangoMojo.Sensor
