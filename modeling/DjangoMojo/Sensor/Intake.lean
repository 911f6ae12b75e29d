import DjangoMojo.Sensor.Ledger

/-! # The effect of taking observations in

One statement for each function between an observation and the spool: which
rows it leaves alone, by how much it changes the surplus, and that the account
and the capacity survive it.
-/

namespace DjangoMojo.Sensor

open Foundation

variable {rules : Rules} {config : Config}

/-- What every step of the store does to the events, the surplus and the ledger. -/
structure Effect (config : Config) (delta : Int) (before after : Store) : Prop where
  ordinary : ∀ id, before.HasOrdinary id → after.HasOrdinary id
  surplus : after.surplus = before.surplus + delta
  accounted : before.Accounted → after.Accounted
  capacity : config.Accepted → before.WithinCapacity config → after.WithinCapacity config

/-- A step that has nothing to do with the held observations. -/
structure Intake (config : Config) (delta : Int) (before after : Store) : Prop
    extends Effect config delta before after where
  pending : after.pendingFirewall = before.pendingFirewall
  holdings : after.ledger.filter Entry.isHolding = before.ledger.filter Entry.isHolding

theorem Effect.refl (store : Store) : Effect config 0 store store where
  ordinary _ hrow := hrow
  surplus := (add_zero _).symm
  accounted haccounted := haccounted
  capacity _ hcapacity := hcapacity

theorem Effect.trans {first second : Int} {before middle after : Store}
    (hfirst : Effect config first before middle) (hsecond : Effect config second middle after) :
    Effect config (first + second) before after where
  ordinary id hrow := hsecond.ordinary id (hfirst.ordinary id hrow)
  surplus := by rw [hsecond.surplus, hfirst.surplus, add_assoc]
  accounted haccounted := hsecond.accounted (hfirst.accounted haccounted)
  capacity haccepted hcapacity := hsecond.capacity haccepted (hfirst.capacity haccepted hcapacity)

theorem Intake.refl (store : Store) : Intake config 0 store store :=
  ⟨.refl store, rfl, rfl⟩

theorem Intake.trans {first second : Int} {before middle after : Store}
    (hfirst : Intake config first before middle) (hsecond : Intake config second middle after) :
    Intake config (first + second) before after :=
  ⟨hfirst.toEffect.trans hsecond.toEffect, hsecond.pending.trans hfirst.pending,
    hsecond.holdings.trans hfirst.holdings⟩

theorem Intake.cast {delta other : Int} {before after : Store}
    (hintake : Intake config delta before after) (heq : delta = other) :
    Intake config other before after :=
  heq ▸ hintake

/-! ### Counters -/

/-- Nothing changes but what the account does not read. -/
theorem Intake.of_same {before after : Store} (hevents : after.events = before.events)
    (haggregates : after.aggregates = before.aggregates)
    (hpending : after.pendingFirewall = before.pendingFirewall)
    (hledger : after.ledger = before.ledger)
    (hcounters : ∀ counter counted, counter.tally = some counted →
      after.counters counter = before.counters counter) :
    Intake config 0 before after where
  ordinary id hrow := by
    rw [Store.HasOrdinary, hevents]
    exact hrow
  surplus := by
    rw [add_zero, Store.surplus, Store.openOccurrences, Store.heldOccurrences, haggregates,
      hpending, hledger]
    rfl
  accounted haccounted := by
    refine ⟨?_, ?_, ?_⟩
    · rw [hevents, hledger]
      exact haccounted.spooled
    · rw [hledger]
      exact haccounted.justified
    · intro counter counted htally
      rw [hcounters counter counted htally, hledger]
      exact haccounted.tallied counter counted htally
  capacity _ hcapacity := by
    refine ⟨?_, ?_, ?_⟩
    · rw [hevents]
      exact hcapacity.events
    · rw [haggregates]
      exact hcapacity.aggregates
    · rw [hledger]
      exact hcapacity.entries
  pending := hpending
  holdings := by rw [hledger]

theorem ne_of_tally {counter other : Counter} {counted : Entry → Bool}
    (hnone : counter.tally = none) (hother : other.tally = some counted) : other ≠ counter := by
  rintro rfl
  rw [hnone] at hother
  cases hother

theorem increment_intake {counter : Counter} (hnone : counter.tally = none) (store : Store)
    (amount : Nat) : Intake config 0 store (store.increment counter amount) :=
  .of_same rfl rfl rfl rfl fun _ _ htally => Function.update_of_ne (ne_of_tally hnone htally) ..

theorem incrementSaturating_intake {counter : Counter} (hnone : counter.tally = none)
    (store : Store) (amount : Nat) :
    Intake config 0 store (store.incrementSaturating counter amount) :=
  .of_same rfl rfl rfl rfl fun _ _ htally => Function.update_of_ne (ne_of_tally hnone htally) ..

/-! ### Entries -/

theorem surplus_note (store : Store) (entry : Entry) :
    (store.note entry).surplus = store.surplus + entry.weight := by
  simp only [Store.surplus, Store.openOccurrences, Store.heldOccurrences, Store.note,
    List.map_cons, List.sum_cons]
  omega

/-- The account after an entry that discards nothing unjustly and is counted. -/
theorem Store.Accounted.noted {before after : Store} {entry : Entry}
    (haccounted : before.Accounted) (hledger : after.ledger = entry :: before.ledger)
    (hspooled : ∀ id row, after.events.get id = some row →
      entry.enqueuedId = some id ∨ ∃ row, before.events.get id = some row)
    (hjustified : ∀ id, entry.discardedId = some id →
      ∃ row, before.events.get id = some row)
    (htallied : ∀ counter counted, counter.tally = some counted →
      after.counters counter = before.counters counter + if counted entry then 1 else 0) :
    after.Accounted where
  spooled id row hrow := by
    rw [hledger]
    cases hspooled id row hrow with
    | inl hentry => exact ⟨entry, List.mem_cons_self, hentry⟩
    | inr hold =>
      obtain ⟨old, hold⟩ := hold
      obtain ⟨first, hfirst, hid⟩ := haccounted.spooled id old hold
      exact ⟨first, List.mem_cons_of_mem _ hfirst, hid⟩
  justified := by
    rw [hledger]
    refine ⟨fun id hid => ?_, haccounted.justified⟩
    obtain ⟨row, hrow⟩ := hjustified id hid
    exact haccounted.spooled id row hrow
  tallied counter counted htally := by
    rw [hledger, List.countP_cons, htallied counter counted htally,
      haccounted.tallied counter counted htally]

theorem update_one (first : Counter) (counters : Counter → Nat) (counter : Counter) :
    Function.update counters first (counters first + 1) counter =
      counters counter + if counter = first then 1 else 0 := by
  by_cases heq : counter = first
  · rw [heq, Function.update_self, if_pos rfl]
  · rw [Function.update_of_ne heq, if_neg heq]
    rfl

theorem update_two {first second : Counter} (hne : first ≠ second) (counters : Counter → Nat)
    (counter : Counter) :
    Function.update (Function.update counters first (counters first + 1)) second
        (Function.update counters first (counters first + 1) second + 1) counter =
      counters counter + if counter = first ∨ counter = second then 1 else 0 := by
  rw [update_one, update_one, add_assoc]
  by_cases hfirst : counter = first
  · simp [hfirst, hne]
  · simp [hfirst]

theorem HasOrdinary.congr {before after : Store} (hevents : after.events = before.events)
    (id : String) (hrow : before.HasOrdinary id) : after.HasOrdinary id := by
  rw [Store.HasOrdinary, hevents]
  exact hrow

/-! ### Enqueueing -/

/-- The occurrences that an event of the origin takes out of the tables. -/
def Origin.occurrences (origin : Origin) (event : Event) : Int :=
  match origin with
  | .window => event.count
  | .observation | .diagnostic => 0

theorem weight_offered (origin : Origin) (event : Event) (rows : Nat) (outcome : Outcome) :
    (Entry.offered origin event rows outcome).weight = origin.occurrences event := by
  cases origin with
  | observation => rfl
  | window => rfl
  | diagnostic => rfl

theorem tally_offered_deduped {origin : Origin} {event : Event} {rows : Nat} {counter : Counter}
    {counted : Entry → Bool} (htally : counter.tally = some counted) :
    counted (.offered origin event rows .deduped) = decide (counter = .dedupedEvents) := by
  cases counter <;> cases htally <;> rfl

theorem tally_offered_enqueued {origin : Origin} {event : Event} {rows : Nat} {counter : Counter}
    {counted : Entry → Bool} (htally : counter.tally = some counted) :
    counted (.offered origin event rows .enqueued) = false := by
  cases counter <;> cases htally <;> rfl

theorem tally_offered_dropped {origin : Origin} {event : Event} {rows : Nat} {counter : Counter}
    {counted : Entry → Bool} (htally : counter.tally = some counted) :
    counted (.offered origin event rows .dropped) =
      decide (counter = .droppedCapacity ∨ counter = .droppedCapacityOf event.severity) := by
  cases counter with
  | droppedCapacityOf severity =>
    cases htally
    simp [Entry.isDroppedOf, eq_comm]
  | _ => cases htally <;> rfl

theorem tally_refused {observation : Observation} {aggregates : Nat} {evictable : Bool}
    {counter : Counter} {counted : Entry → Bool} (htally : counter.tally = some counted) :
    counted (.refused observation aggregates evictable) =
      decide (counter = .droppedAggregateCapacity ∨
        counter = .droppedAggregateCapacityOf observation.severity) := by
  cases counter with
  | droppedAggregateCapacityOf severity =>
    cases htally
    simp [Entry.isRefusedOf, eq_comm]
  | _ => cases htally <;> rfl

/-- An event that is offered leaves the windows alone, and takes its occurrences with
it whatever becomes of it. -/
theorem enqueue_intake (event : Event) (now : Time) (deliveryClass : DeliveryClass)
    (origin : Origin) (store : Store) :
    Intake config (origin.occurrences event) store
      (enqueue config event now deliveryClass origin store).1 := by
  by_cases hspooled : (store.events.get event.id).isSome = true
  · rw [enqueue_deduped hspooled]
    refine ⟨⟨HasOrdinary.congr rfl, ?_, fun haccounted => ?_, fun _ hcapacity => ?_⟩, rfl, rfl⟩
    · rw [surplus_note, weight_offered]
      rfl
    · refine haccounted.noted rfl (fun id row hrow => .inr ⟨row, hrow⟩) ?_ ?_
      · intro id hid
        cases hid
        exact Option.isSome_iff_exists.mp hspooled
      · intro counter counted htally
        simp only [tally_offered_deduped htally, decide_eq_true_eq]
        exact update_one .dedupedEvents store.counters counter
    · refine ⟨hcapacity.events, hcapacity.aggregates, fun entry hentry => ?_⟩
      cases hentry with
      | head => trivial
      | tail _ hentry => exact hcapacity.entries entry hentry
  · by_cases hfull : config.delivery.spoolLimit event.severity ≤ store.events.count
    · rw [enqueue_dropped hspooled hfull]
      refine ⟨⟨HasOrdinary.congr rfl, ?_, fun haccounted => ?_, fun _ hcapacity => ?_⟩, rfl, rfl⟩
      · rw [surplus_note, weight_offered]
        rfl
      · refine haccounted.noted rfl (fun id row hrow => .inr ⟨row, hrow⟩) nofun ?_
        intro counter counted htally
        have hne : Counter.droppedCapacity ≠ .droppedCapacityOf event.severity := nofun
        simp only [tally_offered_dropped htally, decide_eq_true_eq]
        exact update_two hne store.counters counter
      · refine ⟨hcapacity.events, hcapacity.aggregates, fun entry hentry => ?_⟩
        cases hentry with
        | head => exact hfull
        | tail _ hentry => exact hcapacity.entries entry hentry
    · have habsent : store.events.get event.id = none := by
        rwa [Option.not_isSome_iff_eq_none] at hspooled
      rw [enqueue_enqueued hspooled hfull]
      refine ⟨⟨?_, ?_, fun haccounted => ?_, fun haccepted hcapacity => ?_⟩, rfl, rfl⟩
      · rintro id ⟨row, hrow, hclass⟩
        refine ⟨row, ?_, hclass⟩
        change (store.events.insert _ _).get id = some row
        rw [Table.get_insert, if_neg, hrow]
        rintro rfl
        rw [habsent] at hrow
        cases hrow
      · rw [surplus_note, weight_offered]
        rfl
      · refine haccounted.noted rfl ?_ nofun ?_
        · intro id row hrow
          change (store.events.insert _ _).get id = some row at hrow
          rw [Table.get_insert] at hrow
          split at hrow
          next heq => exact .inl (congrArg some heq.symm)
          next => exact .inr ⟨row, hrow⟩
        · intro counter counted htally
          rw [tally_offered_enqueued htally]
          rfl
      · refine ⟨?_, hcapacity.aggregates, fun entry hentry => ?_⟩
        · have hreserve := (validateDelivery_ok haccepted.2).1
          have hlimit : config.delivery.spoolLimit event.severity ≤
              config.delivery.maxSpoolEvents := by
            unfold DeliveryConfig.spoolLimit
            split <;> omega
          change ((store.events.insert _ _).count : Int) ≤ _
          rw [Table.count_insert habsent]
          push_cast
          omega
        · cases hentry with
          | head => exact not_le.mp hfull
          | tail _ hentry => exact hcapacity.entries entry hentry

/-! ### Local-only observations -/

theorem noteLastSeen_intake {found : Observation} {store next : Store}
    (hnext : rules.noteLastSeen found store = some next) : Intake config 0 store next := by
  simp only [Rules.noteLastSeen] at hnext
  cases hseen : rules.instant (rules.normalized found.observedAt) with
  | none =>
    rw [hseen] at hnext
    cases hnext
  | some seenTime =>
    simp only [hseen] at hnext
    split at hnext
    · cases hnext
      exact .of_same rfl rfl rfl rfl fun _ _ _ => rfl
    · cases hnext
      split
      · exact .of_same rfl rfl rfl rfl fun _ _ _ => rfl
      · exact .refl store

theorem recordLocalOnly_intake {found : Observation} {now : Time} {store next : Store}
    (hnext : rules.recordLocalOnly config found now store = some next) :
    Intake config 0 store next := by
  simp only [Rules.recordLocalOnly, Option.bind_eq_bind, Option.bind_eq_some_iff] at hnext
  obtain ⟨classifier, _, seen, hseen, hnext⟩ := hnext
  have hcounted : Intake config 0 store seen :=
    ((incrementSaturating_intake rfl store 1).trans (incrementSaturating_intake rfl _ 1)).trans
      (noteLastSeen_intake hseen)
  split at hnext
  · obtain ⟨event, _, hnext⟩ := Option.bind_eq_some_iff.mp hnext
    have hoffered : Intake config 0 store
        (enqueue config event now .localOnlyDiagnostic .diagnostic seen).1 :=
      hcounted.trans (enqueue_intake event now .localOnlyDiagnostic .diagnostic seen)
    cases hnext
    split
    · exact (hoffered.trans (incrementSaturating_intake rfl _ 1)).trans
        (incrementSaturating_intake rfl _ 1)
    · exact hoffered
  · cases hnext
    exact (hcounted.trans (incrementSaturating_intake rfl _ 1)).trans
      (incrementSaturating_intake rfl _ 1)

theorem classifier_aggregate {found : Observation}
    (hlocal : (rules.classifier found).isSome = true) : found.aggregate = false := by
  cases haggregate : found.aggregate with
  | false => rfl
  | true =>
    rw [Rules.classifier, haggregate] at hlocal
    cases hlocal

/-! ### Windows -/

/-- The windows of a store replaced, with what this does to the occurrences in them. -/
theorem windows_intake (delta : Int) (store : Store) (windows : Table String AggregateRow)
    (htotal : (windows.total AggregateRow.count : Int) = store.openOccurrences + delta)
    (hcapacity : config.Accepted → store.WithinCapacity config →
      (windows.count : Int) ≤ config.aggregation.maxAggregates) :
    Intake config delta store { store with aggregates := windows } where
  ordinary := HasOrdinary.congr rfl
  surplus := by
    change (windows.total AggregateRow.count : Int) + store.heldOccurrences +
      (store.ledger.map Entry.weight).sum = store.surplus + delta
    simp only [Store.surplus, Store.heldOccurrences]
    omega
  accounted haccounted := ⟨haccounted.spooled, haccounted.justified, haccounted.tallied⟩
  capacity haccepted hwithin :=
    ⟨hwithin.events, hcapacity haccepted hwithin, hwithin.entries⟩
  pending := rfl
  holdings := rfl

theorem flushAggregate_intake {aggregate : Aggregate} {now : Time} {store next : Store}
    (hcount : Table.measured AggregateRow.count (store.aggregates.get aggregate.fingerprint) =
      aggregate.count)
    (hnext : rules.flushAggregate config aggregate now store = some next) :
    Intake config 0 store next ∧
      next.aggregates = store.aggregates.delete aggregate.fingerprint := by
  simp only [Rules.flushAggregate, Option.bind_eq_bind, Option.bind_eq_some_iff,
    toOption_some] at hnext
  obtain ⟨event, hevent, hnext⟩ := hnext
  cases hnext
  have hassembled := rules.makeEvent_ok hevent
  have heventCount : event.count = aggregate.count := by
    rw [hassembled]
    rfl
  have hoffered : Intake config event.count store
      (enqueue config event now .ordinary .window store).1 :=
    enqueue_intake event now .ordinary .window store
  refine ⟨(hoffered.trans (windows_intake (-aggregate.count) _ _ ?_ ?_)).cast ?_, ?_⟩
  · have htotal := store.aggregates.total_delete AggregateRow.count aggregate.fingerprint
    rw [Store.openOccurrences, enqueue_aggregates]
    omega
  · intro haccepted hwithin
    have hbound := hwithin.aggregates
    rw [enqueue_aggregates] at hbound ⊢
    have hle := store.aggregates.count_delete_le aggregate.fingerprint
    omega
  · omega
  · rw [enqueue_aggregates]

theorem aggregateRow_count {store : Store} {fingerprint : String} {aggregate : Aggregate}
    (hrow : store.aggregateRow fingerprint = some aggregate) :
    aggregate.fingerprint = fingerprint ∧
      Table.measured AggregateRow.count (store.aggregates.get aggregate.fingerprint) =
        aggregate.count := by
  obtain ⟨row, hget, rfl⟩ := Option.map_eq_some_iff.mp hrow
  refine ⟨rfl, ?_⟩
  change Table.measured _ (store.aggregates.get fingerprint) = _
  rw [hget]
  rfl

theorem flushStored_intake {aggregate : Aggregate} {fingerprint : String} {now : Time}
    {store next : Store} (hrow : store.aggregateRow fingerprint = some aggregate)
    (hnext : rules.flushAggregate config aggregate now store = some next) :
    Intake config 0 store next ∧ next.aggregates = store.aggregates.delete fingerprint := by
  obtain ⟨hfingerprint, hcount⟩ := aggregateRow_count hrow
  rw [← hfingerprint]
  exact flushAggregate_intake hcount hnext

theorem evictable_get {store : Store} {fingerprint : String}
    (hmem : fingerprint ∈ store.evictable) :
    ∃ row, store.aggregates.get fingerprint = some row ∧
      row.severity.isHighPriority = false := by
  obtain ⟨row, hget, hlow⟩ := Table.mem_select.mp (Table.mem_orderedBy.mp hmem)
  exact ⟨row, hget, by simpa using hlow⟩

theorem evict_intake {now : Time} {store next : Store} (hnonempty : store.evictable ≠ [])
    (hnext : rules.evict config now store = some next) :
    Intake config 0 store next ∧
      ∃ fingerprint, (store.aggregates.get fingerprint).isSome = true ∧
        next.aggregates = store.aggregates.delete fingerprint := by
  obtain ⟨victim, rest, hevictable⟩ := List.exists_cons_of_ne_nil hnonempty
  have hvictim : victim ∈ store.evictable := by
    rw [hevictable]
    exact List.mem_cons_self
  obtain ⟨row, hget, _⟩ := evictable_get hvictim
  have hrow : store.aggregateRow victim = some
      { fingerprint := victim, observation := row.observation, count := row.count,
        firstSeen := row.firstSeen, lastSeen := row.lastSeen, flushAt := some row.flushAt } := by
    rw [Store.aggregateRow, hget]
    rfl
  rw [Rules.evict, hevictable, List.head?_cons, Option.bind_some, hrow] at hnext
  obtain ⟨flushed, hflushed, rfl⟩ := Option.map_eq_some_iff.mp hnext
  obtain ⟨hintake, haggregates⟩ := flushStored_intake hrow hflushed
  exact ⟨hintake.trans (increment_intake rfl flushed 1), victim, by rw [hget]; rfl, haggregates⟩

/-- The refusal of a window, counted and noted, after what may have been evicted. -/
theorem refuse_intake {observation : Observation} {aggregates : Nat} {evictable : Bool}
    {before store : Store} (hintake : Intake config 0 before store)
    (hrespects : config.Accepted → before.WithinCapacity config →
      (Entry.refused observation aggregates evictable).Respects config) :
    Intake config observation.occurrences before
      (((store.increment .droppedAggregateCapacity 1).increment
        (.droppedAggregateCapacityOf observation.severity) 1).note
          (.refused observation aggregates evictable)) := by
  refine ⟨⟨hintake.ordinary, ?_, fun haccounted => ?_, fun haccepted hbefore => ?_⟩,
    hintake.pending, hintake.holdings⟩
  · rw [surplus_note, ← add_zero before.surplus, ← hintake.surplus]
    rfl
  · refine (hintake.accounted haccounted).noted rfl (fun id row hrow => .inr ⟨row, hrow⟩) nofun ?_
    intro counter counted htally
    have hne : Counter.droppedAggregateCapacity ≠
        .droppedAggregateCapacityOf observation.severity := nofun
    simp only [tally_refused htally, decide_eq_true_eq]
    exact update_two hne store.counters counter
  · have hcapacity := hintake.capacity haccepted hbefore
    refine ⟨hcapacity.events, hcapacity.aggregates, fun entry hentry => ?_⟩
    cases hentry with
    | head => exact hrespects haccepted hbefore
    | tail _ hentry => exact hcapacity.entries entry hentry

/-- There is room for one more window, and none of the fingerprint. -/
def HasRoom (config : Config) (observation : Observation) (store : Store) : Prop :=
  store.aggregates.get observation.fingerprint = none ∧
    (config.Accepted → store.WithinCapacity config →
      (store.aggregates.count : Int) < config.aggregation.maxAggregates)

theorem aggregateLimit_le (haccepted : config.Accepted) (severity : Severity) :
    config.aggregation.aggregateLimit severity ≤ config.aggregation.maxAggregates := by
  have hreserve := (validateAggregation_ok haccepted.1).2.1
  unfold AggregationConfig.aggregateLimit
  split <;> omega

theorem makeRoom_intake {observation : Observation} {now : Time} {store next : Store}
    {admitted : Bool} (habsent : store.aggregates.get observation.fingerprint = none)
    (hnext : rules.makeRoom config observation now store = some (next, admitted)) :
    Intake config (if admitted then 0 else observation.occurrences) store next ∧
      (admitted = true → HasRoom config observation next) := by
  simp only [Rules.makeRoom] at hnext
  split at hnext
  next hfull =>
    split at hnext
    next hpriority =>
      rw [Bool.and_eq_true, Bool.not_eq_true', List.isEmpty_eq_false_iff] at hpriority
      obtain ⟨evicted, hevicted, hnext⟩ := Option.map_eq_some_iff.mp hnext
      obtain ⟨hintake, victim, hvictim, haggregates⟩ := evict_intake hpriority.2 hevicted
      have hcount : evicted.aggregates.count + 1 = store.aggregates.count := by
        obtain ⟨row, hrow⟩ := Option.isSome_iff_exists.mp hvictim
        have hcount := store.aggregates.count_delete victim
        rw [hrow] at hcount
        rw [haggregates]
        exact hcount
      have hlimit : config.aggregation.aggregateLimit observation.severity =
          config.aggregation.maxAggregates := if_pos hpriority.1
      split at hnext
      next hstill =>
        cases hnext
        refine ⟨refuse_intake hintake fun _ hwithin => ?_, nofun⟩
        have hbound := hwithin.aggregates
        omega
      next hroom =>
        cases hnext
        refine ⟨hintake, fun _ => ⟨?_, ?_⟩⟩
        · rw [haggregates, Table.get_delete, habsent]
          split <;> rfl
        · intro _ _
          omega
    next hlow =>
      cases hnext
      refine ⟨refuse_intake (.refl store) fun _ _ => ⟨hfull, fun hhigh => ?_⟩, nofun⟩
      simpa [hhigh] using hlow
  next hroom =>
    cases hnext
    refine ⟨.refl store, fun _ => ⟨habsent, fun haccepted _ => ?_⟩⟩
    have hlimit := aggregateLimit_le haccepted observation.severity
    omega

theorem merge_stored (store : Store) (observation : Observation) :
    let aggregate := merge (store.aggregateRow observation.fingerprint) observation
    aggregate.fingerprint = observation.fingerprint ∧
      aggregate.count = Table.measured AggregateRow.count
        (store.aggregates.get observation.fingerprint) + 1 := by
  cases hget : store.aggregates.get observation.fingerprint with
  | none => simp [Store.aggregateRow, hget, merge, Table.measured]
  | some row => simp [Store.aggregateRow, hget, merge, Table.measured]

theorem saveAggregate_get (aggregate : Aggregate) (now : Time) (store : Store) :
    (saveAggregate config aggregate now store).aggregates.get aggregate.fingerprint =
      some (config.savedRow aggregate now (store.aggregates.get aggregate.fingerprint)) := by
  rw [saveAggregate, Table.get_put, if_pos rfl]

/-- A window takes one more occurrence, and a full one passes its occurrences on. -/
theorem extendWindow_intake {observation : Observation} {now : Time} {store next : Store}
    (hopen : (store.aggregates.get observation.fingerprint).isSome = true ∨
      HasRoom config observation store)
    (hnext : rules.extendWindow config observation now store = some next) :
    Intake config 1 store next := by
  obtain ⟨hfingerprint, hcount⟩ := merge_stored store observation
  simp only [Rules.extendWindow] at hnext
  generalize merge (store.aggregateRow observation.fingerprint) observation = aggregate
    at hnext hfingerprint hcount
  rw [← hfingerprint] at hcount
  have hsaved : Intake config 1 store (saveAggregate config aggregate now store) := by
    refine windows_intake 1 store _ ?_ fun haccepted hwithin => ?_
    · have htotal := store.aggregates.total_put AggregateRow.count aggregate.fingerprint
        (config.savedRow aggregate now (store.aggregates.get aggregate.fingerprint))
      have hrow : (config.savedRow aggregate now
        (store.aggregates.get aggregate.fingerprint)).count = aggregate.count := rfl
      rw [Store.openOccurrences]
      omega
    · have hput := store.aggregates.count_put aggregate.fingerprint
        (config.savedRow aggregate now (store.aggregates.get aggregate.fingerprint))
      have hbound := hwithin.aggregates
      rw [← hfingerprint] at hopen
      cases hopen with
      | inl hopen =>
        obtain ⟨row, hrow⟩ := Option.isSome_iff_exists.mp hopen
        have hone : Table.measured (fun _ => 1) (some row) = 1 := rfl
        rw [hrow, hone] at hput
        rw [hrow]
        omega
      | inr hroom =>
        have hlt := hroom.2 haccepted hwithin
        omega
  split at hnext
  · have hcountSaved : Table.measured AggregateRow.count
        ((saveAggregate config aggregate now store).aggregates.get aggregate.fingerprint) =
          aggregate.count := by
      rw [saveAggregate_get]
      rfl
    exact (hsaved.trans (flushAggregate_intake hcountSaved hnext).1).cast (add_zero 1)
  · cases hnext
    exact hsaved

/-! ### Observations -/

theorem projected_aggregate {observation found : Observation}
    (hfound : rules.projected observation = some found) :
    found.aggregate = observation.aggregate := by
  rw [Rules.projected] at hfound
  split at hfound
  · obtain ⟨attributes, _, rfl⟩ := Option.map_eq_some_iff.mp hfound
    rfl
  · cases hfound
    rfl

theorem occurrences_eq {first second : Observation} (heq : first.aggregate = second.aggregate) :
    first.occurrences = second.occurrences := by
  rw [Observation.occurrences, Observation.occurrences, heq]

/-- An observation that is ingested is placed somewhere, once. -/
theorem ingestOne_intake {observation : Observation} {now : Time} {store next : Store}
    (hnext : rules.ingestOne config observation now store = some next) :
    Intake config observation.occurrences store next := by
  simp only [Rules.ingestOne, Option.bind_eq_bind, Option.bind_eq_some_iff] at hnext
  obtain ⟨found, hfound, hnext⟩ := hnext
  have hflag := projected_aggregate hfound
  rw [← occurrences_eq hflag]
  split at hnext
  next hlocal =>
    refine (recordLocalOnly_intake hnext).cast ?_
    rw [Observation.occurrences, classifier_aggregate hlocal]
    rfl
  next =>
    split at hnext
    next hsingle =>
      obtain ⟨event, _, hnext⟩ := Option.bind_eq_some_iff.mp hnext
      cases hnext
      refine (enqueue_intake event now .ordinary .observation store).cast ?_
      simp only [Bool.not_eq_true'] at hsingle
      rw [Observation.occurrences, hsingle]
      rfl
    next haggregate =>
      have hone : found.occurrences = 1 := by
        simp only [Bool.not_eq_true', Bool.not_eq_false] at haggregate
        rw [Observation.occurrences, haggregate]
        rfl
      split at hnext
      next hopen =>
        exact (extendWindow_intake (.inl hopen) hnext).cast (by rw [hone]; rfl)
      next hclosed =>
        rw [Option.not_isSome_iff_eq_none] at hclosed
        obtain ⟨⟨middle, admitted⟩, hmiddle, hnext⟩ := Option.bind_eq_some_iff.mp hnext
        obtain ⟨hroom, hadmitted⟩ := makeRoom_intake hclosed hmiddle
        cases admitted with
        | false =>
          cases hnext
          exact hroom
        | true =>
          exact (hroom.trans (extendWindow_intake (.inr (hadmitted rfl)) hnext)).cast
            (by rw [hone]; rfl)

/-! ### Flushes -/

/-- A loop whose turns have no effect on the surplus has none. -/
theorem run_intake {Item : Type} {body : Store → Item → Option Store}
    (hbody : ∀ store item next, body store item = some next → Intake config 0 store next) :
    ∀ {items : List Item} {store last : Store}, run body store items = some last →
      Intake config 0 store last := by
  intro items store last hrun
  exact run_relates (fun store => .refl store) (fun hfirst hsecond => hfirst.trans hsecond)
    hbody hrun

theorem flushDueOne_intake {now : Time} {store next : Store} {fingerprint : String}
    (hnext : rules.flushDueOne config now store fingerprint = some next) :
    Intake config 0 store next := by
  unfold Rules.flushDueOne at hnext
  split at hnext
  next =>
    cases hnext
    exact .refl store
  next aggregate hrow => exact (flushStored_intake hrow hnext).1

theorem flushDueRows_intake {now : Time} {store next : Store}
    (hnext : rules.flushDueRows config now store = some next) : Intake config 0 store next :=
  run_intake (fun _ _ _ hstep => flushDueOne_intake hstep) hnext

end DjangoMojo.Sensor
