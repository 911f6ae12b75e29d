import DjangoMojo.Sensor.Holding

/-! # Durability of the spool

Annotation, reconciliation and delivery rewrite rows and delete some. An ordinary
row goes only when a delivery marks it with a result that names it.
-/

namespace DjangoMojo.Sensor

open Foundation

variable {rules : Rules} {config : Config}

/-- Nothing is lost or gained over all tables and the ledger. -/
structure Balanced (config : Config) (before after : Store) : Prop where
  surplus : after.surplus = before.surplus
  accounted : before.Accounted → after.Accounted
  capacity : config.Accepted → before.WithinCapacity config → after.WithinCapacity config

theorem Effect.balanced {before after : Store} (heffect : Effect config 0 before after) :
    Balanced config before after :=
  ⟨heffect.surplus.trans (add_zero _), heffect.accounted, heffect.capacity⟩

theorem Balanced.refl (store : Store) : Balanced config store store :=
  (Effect.refl store).balanced

theorem Balanced.trans {before middle after : Store} (hfirst : Balanced config before middle)
    (hsecond : Balanced config middle after) : Balanced config before after :=
  ⟨hsecond.surplus.trans hfirst.surplus, fun haccounted =>
    hsecond.accounted (hfirst.accounted haccounted), fun haccepted hcapacity =>
    hsecond.capacity haccepted (hfirst.capacity haccepted hcapacity)⟩

/-! ### Rewritten and deleted rows -/

def Shrinks (before after : Table String EventRow) : Prop :=
  (∀ id row, after.get id = some row → ∃ old, before.get id = some old) ∧
    after.count ≤ before.count

theorem Shrinks.trans {before middle after : Table String EventRow}
    (hfirst : Shrinks before middle) (hsecond : Shrinks middle after) : Shrinks before after := by
  refine ⟨fun id row hrow => ?_, hsecond.2.trans hfirst.2⟩
  obtain ⟨old, hold⟩ := hsecond.1 id row hrow
  exact hfirst.1 id old hold

theorem shrinks_modify (events : Table String EventRow) (id : String)
    (change : EventRow → EventRow) : Shrinks events (events.modify id change) := by
  refine ⟨fun other row hrow => ?_, le_rfl⟩
  rw [Table.get_modify] at hrow
  split at hrow
  · obtain ⟨old, hold, _⟩ := Option.map_eq_some_iff.mp hrow
    exact ⟨old, hold⟩
  · exact ⟨row, hrow⟩

theorem shrinks_delete (events : Table String EventRow) (id : String) :
    Shrinks events (events.delete id) := by
  refine ⟨fun other row hrow => ?_, events.count_delete_le id⟩
  rw [Table.get_delete] at hrow
  split at hrow
  · cases hrow
  · exact ⟨row, hrow⟩

theorem shrinks_foldl {turn : Table String EventRow → String → Table String EventRow}
    (hturn : ∀ events id, Shrinks events (turn events id)) (ids : List String)
    (events : Table String EventRow) : Shrinks events (ids.foldl turn events) :=
  List.foldlRecOn ids turn ⟨fun _ row hrow => ⟨row, hrow⟩, le_rfl⟩
    fun _ hshrinks id _ => hshrinks.trans (hturn _ id)

theorem events_balanced {store : Store} {events : Table String EventRow}
    (hshrinks : Shrinks store.events events) :
    Balanced config store { store with events := events } where
  surplus := rfl
  accounted haccounted := by
    refine ⟨fun id row hrow => ?_, haccounted.justified, haccounted.tallied⟩
    obtain ⟨old, hold⟩ := hshrinks.1 id row hrow
    exact haccounted.spooled id old hold
  capacity _ hwithin := by
    refine ⟨?_, hwithin.aggregates, hwithin.entries⟩
    have hcount := hshrinks.2
    have hbound := hwithin.events
    change (events.count : Int) ≤ _
    omega

/-- The rows of a class go through a rewriting that keeps the class. -/
theorem get_foldl_modify {change : EventRow → EventRow}
    (hclass : ∀ row, (change row).deliveryClass = row.deliveryClass) (ids : List String)
    {events : Table String EventRow} {id : String} {row : EventRow}
    (hrow : events.get id = some row) :
    ∃ kept, (ids.foldl (fun events id => events.modify id change) events).get id = some kept ∧
      kept.deliveryClass = row.deliveryClass := by
  induction ids generalizing events row with
  | nil => exact ⟨row, hrow, rfl⟩
  | cons first rest ih =>
    have hmodified := events.get_modify first id change
    by_cases heq : id = first
    · rw [if_pos heq, hrow, Option.map_some] at hmodified
      obtain ⟨kept, hkept, hsame⟩ := ih hmodified
      exact ⟨kept, hkept, hsame.trans (hclass row)⟩
    · rw [if_neg heq, hrow] at hmodified
      exact ih hmodified

theorem get_deleteAll {ids : List String} {id : String} (hid : id ∉ ids)
    (events : Table String EventRow) : (deleteAll events ids).get id = events.get id := by
  induction ids generalizing events with
  | nil => rfl
  | cons first rest ih =>
    rw [List.mem_cons, not_or] at hid
    change (deleteAll (events.delete first) rest).get id = _
    rw [ih hid.2, Table.get_delete, if_neg hid.1]

theorem get_reclassify {ids : List String} {id : String} (hid : id ∉ ids)
    (deliveryClass : DeliveryClass) (events : Table String EventRow) :
    (reclassify deliveryClass events ids).get id = events.get id := by
  induction ids generalizing events with
  | nil => rfl
  | cons first rest ih =>
    rw [List.mem_cons, not_or] at hid
    change (reclassify deliveryClass (events.modify first _) rest).get id = _
    rw [ih hid.2, Table.get_modify, if_neg hid.1]

/-! ### Annotation -/

theorem changedRow_class (call : AnnotateCall) (row : EventRow) :
    (call.changedRow row).deliveryClass = row.deliveryClass := by
  have hextended : ∀ deadline, (row.extendedTo deadline).deliveryClass = row.deliveryClass := by
    intro deadline
    unfold EventRow.extendedTo
    split <;> rfl
  simp only [AnnotateCall.changedRow]
  split
  · rfl
  · split
    · exact hextended _
    · split
      · exact hextended _
      · exact hextended _

theorem annotatePendingFim_balanced (call : AnnotateCall) (store : Store) :
    Balanced config store (annotatePendingFim call store) :=
  events_balanced (shrinks_foldl (fun events id => shrinks_modify events id _) _ _)

theorem annotatePendingFim_ordinary (call : AnnotateCall) {store : Store} {id : String}
    (hordinary : store.HasOrdinary id) : (annotatePendingFim call store).HasOrdinary id := by
  obtain ⟨row, hrow, hclass⟩ := hordinary
  obtain ⟨kept, hkept, hsame⟩ :=
    get_foldl_modify (changedRow_class call) store.awaitingAnnotation hrow
  exact ⟨kept, hkept, hsame.trans hclass⟩

/-! ### Reconciliation -/

theorem mem_classRows {store : Store} {deliveryClass : DeliveryClass} {id : String}
    (hmem : id ∈ store.classRows deliveryClass) :
    ∃ row, store.events.get id = some row ∧ row.deliveryClass = deliveryClass := by
  obtain ⟨row, hrow, hclass⟩ := Table.mem_select.mp
    ((List.mergeSort_perm _ _).mem_iff.mp (Table.mem_orderedBy.mp hmem))
  exact ⟨row, hrow, of_decide_eq_true hclass⟩

/-- A row of another class is not an ordinary one. -/
theorem not_mem_classRows (deliveryClass : DeliveryClass) (hother : deliveryClass ≠ .ordinary)
    {store : Store} {id : String} (hordinary : store.HasOrdinary id) :
    id ∉ store.classRows deliveryClass := by
  intro hmem
  obtain ⟨row, hrow, hclass⟩ := hordinary
  obtain ⟨other, hget, hfound⟩ := mem_classRows hmem
  rw [hrow] at hget
  cases hget
  exact hother (hfound.symm.trans hclass)

theorem shrinks_deleteAll (events : Table String EventRow) (ids : List String) :
    Shrinks events (deleteAll events ids) :=
  shrinks_foldl (fun events id => shrinks_delete events id) ids events

theorem shrinks_reclassify (deliveryClass : DeliveryClass) (events : Table String EventRow)
    (ids : List String) : Shrinks events (reclassify deliveryClass events ids) :=
  shrinks_foldl (fun events id => shrinks_modify events id _) ids events

theorem get_reclassify_ordinary {events : Table String EventRow} {id : String} {row : EventRow}
    (hrow : events.get id = some row) (hclass : row.deliveryClass = .ordinary)
    (ids : List String) :
    ∃ kept, (reclassify .ordinary events ids).get id = some kept ∧
      kept.deliveryClass = .ordinary := by
  induction ids generalizing events row with
  | nil => exact ⟨row, hrow, hclass⟩
  | cons first rest ih =>
    change ∃ kept, (reclassify .ordinary (events.modify first _) rest).get id = some kept ∧ _
    have hmodified := events.get_modify first id
      fun row => { row with deliveryClass := .ordinary }
    by_cases heq : id = first
    · rw [if_pos heq, hrow, Option.map_some] at hmodified
      exact ih hmodified rfl
    · rw [if_neg heq, hrow] at hmodified
      exact ih hmodified hclass

theorem not_mem_staleDiagnostics {store : Store} {id : String}
    (hordinary : store.HasOrdinary id) : id ∉ store.staleDiagnostics := by
  unfold Store.staleDiagnostics
  split
  · exact List.not_mem_nil
  · exact fun hmem => not_mem_classRows .localOnlyDiagnostic nofun hordinary
      (List.mem_of_mem_take hmem)

theorem not_mem_localOnlyRows {store : Store} {id : String} (hordinary : store.HasOrdinary id) :
    id ∉ rules.localOnlyRows store := fun hmem =>
  not_mem_classRows .legacy nofun hordinary
    (List.mem_of_mem_take (List.mem_filter.mp hmem).1)

theorem classifiedEvents_shrinks (store : Store) :
    Shrinks store.events (rules.classifiedEvents store) := by
  simp only [Rules.classifiedEvents]
  refine (shrinks_reclassify .ordinary store.events
    (store.legacyRows.filter fun id => !(rules.localOnlyRows store).contains id)).trans ?_
  split
  · exact shrinks_reclassify _ _ _
  · exact shrinks_deleteAll _ _

theorem classifiedEvents_ordinary {store : Store} {id : String}
    (hordinary : store.HasOrdinary id) :
    ∃ kept, (rules.classifiedEvents store).get id = some kept ∧
      kept.deliveryClass = .ordinary := by
  obtain ⟨row, hrow, hclass⟩ := hordinary
  have hspared : id ∉ rules.localOnlyRows store := not_mem_localOnlyRows ⟨row, hrow, hclass⟩
  obtain ⟨kept, hkept, hkeptClass⟩ := get_reclassify_ordinary hrow hclass
    (store.legacyRows.filter fun id => !(rules.localOnlyRows store).contains id)
  refine ⟨kept, ?_, hkeptClass⟩
  simp only [Rules.classifiedEvents]
  split
  · rw [get_reclassify hspared]
    exact hkept
  · rw [get_deleteAll hspared]
    exact hkept

theorem reconcileLocalOnly_balanced (store : Store) :
    Balanced config store (rules.reconcileLocalOnly store) := by
  have hbalanced : Balanced config store
      { store with
        events := rules.classifiedEvents
          { store with events := deleteAll store.events store.staleDiagnostics } } :=
    (events_balanced (shrinks_deleteAll store.events store.staleDiagnostics)).trans
      (events_balanced (classifiedEvents_shrinks _))
  simp only [Rules.reconcileLocalOnly]
  generalize store.staleDiagnostics.length + _ = suppressed
  split
  · exact hbalanced
  · exact hbalanced.trans (incrementSaturating_intake rfl _ _).toEffect.balanced

theorem reconcileLocalOnly_ordinary {store : Store} {id : String}
    (hordinary : store.HasOrdinary id) : (rules.reconcileLocalOnly store).HasOrdinary id := by
  have hspared := not_mem_staleDiagnostics hordinary
  obtain ⟨row, hrow, hclass⟩ := hordinary
  have hclassified : ∃ kept, (rules.classifiedEvents
      { store with events := deleteAll store.events store.staleDiagnostics }).get id =
        some kept ∧ kept.deliveryClass = .ordinary :=
    classifiedEvents_ordinary ⟨row, (get_deleteAll hspared _).trans hrow, hclass⟩
  simp only [Rules.reconcileLocalOnly]
  generalize store.staleDiagnostics.length + _ = suppressed
  split
  · exact hclassified
  · exact hclassified

/-! ### Delivery -/

theorem markOne_balanced (call : MarkCall) (store : Store) (id : String) :
    Balanced config store (call.markOne config store id) := by
  unfold MarkCall.markOne
  simp only
  split
  · exact (events_balanced (shrinks_delete store.events id)).trans
      (increment_intake rfl _ 1).toEffect.balanced
  · split
    · exact (events_balanced (shrinks_modify store.events id _)).trans
        (increment_intake rfl _ 1).toEffect.balanced
    · exact .refl store

theorem markDelivery_balanced (call : MarkCall) (store : Store) :
    Balanced config store (markDelivery config call store) :=
  List.foldlRecOn call.sentIds (call.markOne config) (Balanced.refl store)
    fun _ hbalanced id _ => hbalanced.trans (markOne_balanced call _ id)

def EndsDelivery (results : List AckResult) (id : String) : Prop :=
  ∃ result ∈ results, result.id = id ∧ result.status.isTerminal = true

theorem result_terminal {call : MarkCall} {id : String}
    (hterminal : (call.result id).status.isTerminal = true) : EndsDelivery call.results id := by
  unfold MarkCall.result at hterminal
  cases hfound : call.results.reverse.find? fun result => result.id = id with
  | none =>
    rw [hfound] at hterminal
    cases hterminal
  | some result =>
    rw [hfound] at hterminal
    have hid := List.find?_some hfound
    exact ⟨result, List.mem_reverse.mp (List.mem_of_find?_eq_some hfound),
      of_decide_eq_true hid, hterminal⟩

/-- One turn keeps an ordinary row, but for that of an event whose delivery ends. -/
theorem markOne_ordinary {call : MarkCall} {store : Store} {turn id : String}
    (hordinary : store.HasOrdinary id) :
    (call.markOne config store turn).HasOrdinary id ∨
      id = turn ∧ EndsDelivery call.results id := by
  obtain ⟨row, hrow, hclass⟩ := hordinary
  simp only [MarkCall.markOne]
  split
  next hterminal =>
    by_cases heq : id = turn
    · exact .inr ⟨heq, heq ▸ result_terminal hterminal⟩
    · refine .inl ⟨row, ?_, hclass⟩
      change (store.events.delete turn).get id = some row
      rw [Table.get_delete, if_neg heq, hrow]
  next =>
    split
    · left
      have hmodified := store.events.get_modify turn id (call.retried config (call.result turn))
      split at hmodified
      · rw [hrow] at hmodified
        exact ⟨_, hmodified, hclass⟩
      · rw [hrow] at hmodified
        exact ⟨row, hmodified, hclass⟩
    · exact .inl ⟨row, hrow, hclass⟩

theorem markDelivery_ordinary {call : MarkCall} {store : Store} {id : String}
    (hordinary : store.HasOrdinary id) :
    (markDelivery config call store).HasOrdinary id ∨
      id ∈ call.sentIds ∧ EndsDelivery call.results id := by
  unfold markDelivery
  generalize call.sentIds = sentIds
  induction sentIds generalizing store with
  | nil => exact .inl hordinary
  | cons first rest ih =>
    have hturn : (call.markOne config store first).HasOrdinary id ∨
        id = first ∧ EndsDelivery call.results id := markOne_ordinary hordinary
    cases hturn with
    | inr hended => exact .inr ⟨by rw [hended.1]; exact List.mem_cons_self, hended.2⟩
    | inl hkept =>
      cases ih hkept with
      | inl hlast => exact .inl hlast
      | inr hended => exact .inr ⟨List.mem_cons_of_mem _ hended.1, hended.2⟩

/-! ### Runs -/

/-- What an action may do to a row of the identity on the word of the receiver: mark it
with a final result, through a call or through the acknowledgement of its batch. -/
def Action.Acknowledges (rules : Rules) (config : Config) (store : Store) (action : Action)
    (id : String) : Prop :=
  match action with
  | .call (.markDelivery mark) _ => id ∈ mark.sentIds ∧ EndsDelivery mark.results id
  | .call _ _ => False
  | .send exchange =>
    let sentIds := (rules.sendOnce config exchange store).sentIds
    id ∈ sentIds ∧ ∃ results, exchange.acknowledged sentIds = .ok results ∧
      EndsDelivery results id

/-- An ordinary row stays an ordinary row, unless the action acknowledges it. -/
def OrdinaryKept (rules : Rules) (config : Config) (before : Store) (action : Action)
    (after : Store) : Prop :=
  ∀ id, before.HasOrdinary id →
    after.HasOrdinary id ∨ action.Acknowledges rules config before id

def Call.isMark : Call → Bool
  | .markDelivery _ => true
  | _ => false

theorem begun_balanced (call : Call) (store : Store) :
    Balanced config store (call.begun store) := by
  cases call with
  | ingest call =>
    apply Effect.balanced
    exact .of_rest rfl rfl rfl rfl rfl
  | pendingBatch call =>
    apply Effect.balanced
    exact .of_rest rfl rfl rfl rfl rfl
  | _ => exact .refl store

theorem begun_ordinary (call : Call) {store : Store} {id : String}
    (hordinary : store.HasOrdinary id) : (call.begun store).HasOrdinary id := by
  cases call with
  | ingest call => exact HasOrdinary.congr rfl id hordinary
  | pendingBatch call => exact HasOrdinary.congr rfl id hordinary
  | _ => exact hordinary

theorem body_balanced {call : Call} {store next : Store}
    (hnext : call.body rules config store = some next) : Balanced config store next := by
  cases call with
  | ingest call => exact (ingest_effect hnext).balanced
  | flushDue now => exact (flushDueRows_intake hnext).toEffect.balanced
  | reconcilePendingFirewall now => exact (flushExpiredFirewall_effect hnext).balanced
  | recordFimScan call => exact (recordFimScan_effect hnext).balanced
  | annotatePendingFim call =>
    cases hnext
    exact annotatePendingFim_balanced call store
  | pendingBatch call =>
    cases hnext
    exact reconcileLocalOnly_balanced store
  | markDelivery call =>
    cases hnext
    exact markDelivery_balanced call store

theorem body_ordinary {call : Call} {store next : Store} {id : String}
    (hmark : call.isMark = false) (hnext : call.body rules config store = some next)
    (hordinary : store.HasOrdinary id) : next.HasOrdinary id := by
  cases call with
  | ingest call => exact (ingest_effect hnext).ordinary id hordinary
  | flushDue now => exact (flushDueRows_intake hnext).ordinary id hordinary
  | reconcilePendingFirewall now => exact (flushExpiredFirewall_effect hnext).ordinary id hordinary
  | recordFimScan call => exact (recordFimScan_effect hnext).ordinary id hordinary
  | annotatePendingFim call =>
    cases hnext
    exact annotatePendingFim_ordinary call hordinary
  | pendingBatch call =>
    cases hnext
    exact reconcileLocalOnly_ordinary hordinary
  | markDelivery call => cases hmark

section

variable (rules config)

theorem attempt_cases (call : Call) (commits : Bool) (store : Store) :
    (∃ next, call.body rules config (call.begun store) = some next ∧
      call.attempt rules config commits store = (next, true)) ∨
    call.attempt rules config commits store = (call.begun store, false) := by
  simp only [Call.attempt]
  cases commits with
  | false => exact .inr rfl
  | true =>
    cases call.body rules config (call.begun store) with
    | none => exact .inr rfl
    | some next => exact .inl ⟨next, rfl, rfl⟩

theorem attempt_balanced (call : Call) (commits : Bool) (store : Store) :
    Balanced config store (call.attempt rules config commits store).1 := by
  rcases attempt_cases rules config call commits store with ⟨next, hbody, hattempt⟩ | hattempt
  · rw [hattempt]
    exact (begun_balanced call store).trans (body_balanced hbody)
  · rw [hattempt]
    exact begun_balanced call store

theorem attempt_ordinary (call : Call) (hmark : call.isMark = false) (commits : Bool)
    {store : Store} {id : String} (hordinary : store.HasOrdinary id) :
    (call.attempt rules config commits store).1.HasOrdinary id := by
  have hbegun := begun_ordinary call hordinary
  rcases attempt_cases rules config call commits store with ⟨next, hbody, hattempt⟩ | hattempt
  · rw [hattempt]
    exact body_ordinary hmark hbody hbegun
  · rw [hattempt]
    exact hbegun

theorem attemptMark_ordinary (call : MarkCall) (commits : Bool) {store : Store} {id : String}
    (hordinary : store.HasOrdinary id) :
    ((Call.markDelivery call).attempt rules config commits store).1.HasOrdinary id ∨
      id ∈ call.sentIds ∧ EndsDelivery call.results id := by
  rcases attempt_cases rules config (.markDelivery call) commits store with
    ⟨next, hbody, hattempt⟩ | hattempt
  · rw [hattempt]
    cases hbody
    exact markDelivery_ordinary hordinary
  · rw [hattempt]
    exact .inl hordinary

/-- After the batch is posted an ordinary row goes only when the acknowledgement of the
batch ends its delivery. -/
theorem settle_ordinary (exchange : Exchange) (sentIds : List String) {store : Store}
    {id : String} (hordinary : store.HasOrdinary id) :
    (exchange.settle rules config sentIds store).store.HasOrdinary id ∨
      id ∈ sentIds ∧ ∃ results, exchange.acknowledged sentIds = .ok results ∧
        EndsDelivery results id := by
  have hfailed (error : String) (commits : Bool) :
      ((Call.markDelivery ⟨exchange.markNow, sentIds, [], shortened error⟩).attempt rules config
        commits store).1.HasOrdinary id :=
    (attemptMark_ordinary rules config _ commits hordinary).resolve_right fun hended =>
      nomatch hended.2
  unfold Exchange.settle
  cases hresults : exchange.acknowledged sentIds with
  | error message => exact .inl (hfailed message exchange.markCommits)
  | ok results =>
    simp only
    split
    · cases attemptMark_ordinary rules config ⟨exchange.markNow, sentIds, results, ""⟩
        exchange.markCommits hordinary with
      | inl hkept => exact .inl hkept
      | inr hended => exact .inr ⟨hended.1, results, rfl, hended.2⟩
    · exact .inl (hfailed exchange.markError exchange.retryCommits)

theorem settle_sentIds (exchange : Exchange) (sentIds : List String) (store : Store) :
    (exchange.settle rules config sentIds store).sentIds = sentIds := by
  unfold Exchange.settle
  cases exchange.acknowledged sentIds with
  | error message => rfl
  | ok results =>
    simp only
    split
    · rfl
    · rfl

theorem settle_balanced (exchange : Exchange) (sentIds : List String) (store : Store) :
    Balanced config store (exchange.settle rules config sentIds store).store := by
  unfold Exchange.settle
  cases exchange.acknowledged sentIds with
  | error message => exact attempt_balanced rules config _ _ store
  | ok results =>
    simp only
    split
    · exact attempt_balanced rules config _ _ store
    · exact attempt_balanced rules config _ _ store

theorem prepare_ordinary (exchange : Exchange) {store : Store} {id : String}
    (hordinary : store.HasOrdinary id) :
    (rules.prepare config exchange store).1.HasOrdinary id := by
  have hflushed := attempt_ordinary rules config (.flushDue exchange.flushNow) rfl
    exchange.flushCommits hordinary
  simp only [Rules.prepare]
  split
  · exact hflushed
  · have hreconciled := fun batch => attempt_ordinary rules config (.pendingBatch batch)
      rfl exchange.batchCommits hflushed
    split
    · exact hreconciled _
    · split
      · exact hreconciled _
      · exact hreconciled _

theorem prepare_balanced (exchange : Exchange) (store : Store) :
    Balanced config store (rules.prepare config exchange store).1 := by
  have hflushed := attempt_balanced rules config (.flushDue exchange.flushNow)
    exchange.flushCommits store
  simp only [Rules.prepare]
  split
  · exact hflushed
  · have hreconciled := fun batch => hflushed.trans
      (attempt_balanced rules config (.pendingBatch batch) exchange.batchCommits _)
    split
    · exact hreconciled _
    · split
      · exact hreconciled _
      · exact hreconciled _

theorem step_balanced (store : Store) (action : Action) (next : Store)
    (hnext : step rules config store action = some next) : Balanced config store next := by
  cases action with
  | call call commits =>
    cases hnext
    exact attempt_balanced rules config call commits store
  | send exchange =>
    cases hnext
    have hprepared := prepare_balanced rules config exchange store
    simp only [Rules.sendOnce]
    split
    · exact hprepared
    · exact hprepared.trans (settle_balanced rules config exchange _ _)

theorem step_ordinary (store : Store) (action : Action) (next : Store)
    (hnext : step rules config store action = some next) :
    OrdinaryKept rules config store action next := by
  intro id hordinary
  cases action with
  | call call commits =>
    cases hnext
    cases call with
    | markDelivery mark => exact attemptMark_ordinary rules config mark commits hordinary
    | _ => exact .inl (attempt_ordinary rules config _ rfl commits hordinary)
  | send exchange =>
    cases hnext
    have hprepared := prepare_ordinary rules config exchange hordinary
    simp only [Action.Acknowledges, Rules.sendOnce]
    split
    · exact .inl hprepared
    · rw [settle_sentIds]
      exact settle_ordinary rules config exchange _ hprepared

end

/-- In every run of the store, from any store, an ordinary row disappears only when a
delivery marks its event with a final result, which for a delivery by the sender is a
result of the validated acknowledgement for an event of the batch just sent. -/
theorem ordinaryKept (rules : Rules) (config : Config) (store : Store) (actions : List Action) :
    EachStep (step rules config) (OrdinaryKept rules config) store actions :=
  EachStep.of_step (step_ordinary rules config) store actions

end DjangoMojo.Sensor
