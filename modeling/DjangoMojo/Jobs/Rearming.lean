import DjangoMojo.Jobs.PublishArming
import DjangoMojo.Jobs.Recovery

/-! # What recovery re-arms

A publication arms the row it creates and touches no other, so a path that
publishes again, or appends to a stream, leaves the row it resets armed only if
its id was in a consumed structure before.
-/

namespace DjangoMojo.Jobs

open Foundation

namespace Call

/-- What a recovery call leaves behind for the ids it reports: those without a
row before are consumed, and nothing else is armed. -/
structure Recovers (before : Call) (ids : List JobId) (after : Call) : Prop where
  extending : before.Extends after
  created : ∀ id ∈ ids, before.store.jobs.get id = none → after.store.redis.Consumed id

namespace Recovers

theorem consumed_iff {before after : Call} {ids : List JobId}
    (hrecovers : Recovers before ids after) {id : JobId} (hid : id ∈ ids) :
    after.store.redis.Consumed id ↔
      before.store.jobs.get id = none ∨ before.store.redis.Consumed id := by
  constructor
  · intro hconsumed
    cases hrow : before.store.jobs.get id with
    | none => exact .inl rfl
    | some job => exact .inr (hrecovers.extending.existing id (by rw [hrow]; rfl) hconsumed)
  · rintro (habsent | hconsumed)
    · exact hrecovers.created id hid habsent
    · exact hrecovers.extending.consumed id hconsumed

theorem of_existing {before after : Call} {ids : List JobId} (hextends : before.Extends after)
    (hrows : ∀ id ∈ ids, (before.store.jobs.get id).isSome = true) : Recovers before ids after := by
  refine ⟨hextends, fun id hid habsent => ?_⟩
  have hrow := hrows id hid
  rw [habsent] at hrow
  cases hrow

end Recovers

/-- What a call may do when it creates nothing: it keeps the set of rows and the
structures of Redis. -/
structure Resets (before after : Call) : Prop where
  rows : ∀ id, (after.store.jobs.get id).isSome = (before.store.jobs.get id).isSome
  redis : after.store.redis = before.store.redis

namespace Resets

theorem refl (call : Call) : call.Resets call := ⟨fun _ => rfl, rfl⟩

theorem trans {first second third : Call} (hfirst : first.Resets second)
    (hsecond : second.Resets third) : first.Resets third :=
  ⟨fun id => (hsecond.rows id).trans (hfirst.rows id), hsecond.redis.trans hfirst.redis⟩

theorem extending {before after : Call} (hresets : before.Resets after) : before.Extends after :=
  .of_redis hresets.redis fun id hrow => (hresets.rows id).trans hrow

theorem recovers {before after : Call} {ids : List JobId} (hresets : before.Resets after)
    (hrows : ∀ id ∈ ids, (before.store.jobs.get id).isSome = true) : Recovers before ids after :=
  .of_existing hresets.extending hrows

end Resets

theorem resets_saveRow (call : Call) (id : JobId) (change : Job → Job) :
    call.Resets (call.saveRow id change) := by
  rw [saveRow]
  split
  · exact ⟨fun _ => rfl, rfl⟩
  · refine ⟨fun other => ?_, rfl⟩
    rw [Table.get_modify]
    split
    · rw [Option.isSome_map]
    · rfl

theorem resets_xadd (call : Call) (channel : Channel) (broadcast : Bool) (id : JobId) :
    call.Resets (call.xadd channel broadcast id) :=
  ⟨fun _ => rfl, rfl⟩

theorem resets_read (call : Call) : call.Resets (call.issue .read) := by
  have hstore : (call.issue .read).store = call.store := by
    change call.store.perform call.env.fault .read = call.store
    rw [Store.perform]
    split <;> rfl
  exact ⟨fun _ => by rw [hstore], by rw [hstore]⟩

theorem recovers_republish (call : Call) {id : JobId} (change : Job → Job) {args : PublishArgs}
    (recordsEvent : Bool) (hrow : (call.store.jobs.get id).isSome = true)
    (hkey : args.idempotencyKey = none) :
    Recovers call (call.republish id change args recordsEvent).1.handled
      (call.republish id change args recordsEvent).2 := by
  have hsaved := (call.resets_saveRow id change).extending
  have hpublished := (call.saveRow id change).publishes_publish hkey
  have hcreated (ids : List JobId) (after : Call)
      (hafter : Publishes (call.saveRow id change) ids after) :
      Recovers call (id :: ids) after := by
    refine ⟨hsaved.trans hafter.extending, fun other hother habsent => ?_⟩
    obtain rfl | hids := List.mem_cons.mp hother
    · rw [habsent] at hrow
      cases hrow
    · exact hafter.consumed other hids
  rw [republish]
  split
  next => exact .of_existing hsaved (by simp [Report.failure])
  next =>
    cases hresult : (call.saveRow id change).publish args with
    | mk result after =>
      rw [hresult] at hpublished
      cases result with
      | none => exact .of_existing (hsaved.trans hpublished.extending) (by simp [Report.failure])
      | some ids =>
        have hids := hcreated ids after hpublished
        by_cases hevent : (recordsEvent && after.env.raises) = true
        · simp only [hevent, if_true]
          exact .of_existing hids.extending (by simp [Report.failure])
        · simp only [hevent]
          exact hids

theorem recovers_retryJob (call : Call) (id : JobId) (delay : Option Int) :
    Recovers call (call.retryJob id delay).1.handled (call.retryJob id delay).2 := by
  rw [retryJob]
  split
  next => exact .of_existing (.refl call) (by simp [Report.failure])
  next hrow =>
    split
    · exact call.recovers_republish _ true (by rw [hrow]; rfl) rfl
    · exact .of_existing (.refl call) (by simp [Report.failure])

theorem recovers_resumeJob (call : Call) (id : JobId) :
    Recovers call (call.resumeJob id).1.handled (call.resumeJob id).2 := by
  rw [resumeJob]
  split
  next => exact .of_existing (.refl call) (by simp [Report.failure])
  next hrow =>
    split
    · exact call.recovers_republish _ true (by rw [hrow]; rfl) rfl
    · exact .of_existing (.refl call) (by simp [Report.failure])

theorem recovers_managerRetryJob (call : Call) (id : JobId) (delay : Option Int) :
    Recovers call (call.managerRetryJob id delay).1.handled (call.managerRetryJob id delay).2 := by
  rw [managerRetryJob]
  split
  next => exact .of_existing (.refl call) (by simp [Report.failure])
  next hrow =>
    split
    · exact call.recovers_republish _ false (by rw [hrow]; rfl) rfl
    · exact .of_existing (.refl call) (by simp [Report.failure])

theorem isSome_of_mem_select {call : Call} {condition : Job → Bool} {entry : JobId × Job}
    (hentry : entry ∈ call.select condition) : (call.store.jobs.get entry.1).isSome = true := by
  rw [select, List.mem_filterMap] at hentry
  obtain ⟨id, _, hrow⟩ := hentry
  obtain ⟨job, hget, rfl⟩ := Option.map_eq_some_iff.mp hrow
  rw [hget]
  rfl

theorem resets_requeueEach (channel : Channel) (rows : List (JobId × Job)) (call : Call) :
    call.Resets (requeueEach channel rows call).2 ∧
      ∀ id ∈ (requeueEach channel rows call).1, id ∈ rows.map Prod.fst := by
  induction rows generalizing call with
  | nil => exact ⟨.refl call, by simp [requeueEach]⟩
  | cons row rest ih =>
    obtain ⟨id, job⟩ := row
    obtain ⟨hresets, hids⟩ := ih (call.xadd channel job.broadcast id)
    rw [requeueEach]
    refine ⟨(call.resets_xadd channel job.broadcast id).trans hresets, ?_⟩
    intro other hother
    rw [List.map_cons, List.mem_cons]
    by_cases hraised : call.raised = true
    · simp only [hraised, if_true] at hother
      exact .inr (hids other hother)
    · simp only [hraised] at hother
      exact (List.mem_cons.mp hother).imp_right (hids other)

theorem recovers_requeueDbPending (call : Call) (channel : Channel) (limit : Option Int) :
    Recovers call (call.requeueDbPending channel limit).1.handled
      (call.requeueDbPending channel limit).2 := by
  rw [requeueDbPending]
  split
  next => exact call.resets_read.recovers (by simp [Report.failure])
  next =>
    obtain ⟨hresets, hids⟩ := resets_requeueEach channel
      ((call.select fun job => job.channel = channel && job.status = .pending).take
        (limit.elim (call.select fun job => job.channel = channel && job.status = .pending).length
          Int.toNat)) (call.issue .read)
    refine (call.resets_read.trans hresets).recovers ?_
    intro id hid
    obtain ⟨entry, hentry, rfl⟩ := List.mem_map.mp (hids id hid)
    exact isSome_of_mem_select (List.mem_of_mem_take hentry)

theorem resets_recoverEach (rows : List (JobId × Job)) (call : Call) :
    call.Resets (recoverEach rows call).2 ∧
      ∀ id ∈ (recoverEach rows call).1, id ∈ rows.map Prod.fst := by
  induction rows generalizing call with
  | nil => exact ⟨.refl call, by simp [recoverEach]⟩
  | cons row rest ih =>
    obtain ⟨id, job⟩ := row
    have hsaved := call.resets_saveRow id Job.resetStale
    rw [recoverEach]
    split
    next =>
      obtain ⟨hresets, hids⟩ := ih (call.saveRow id Job.resetStale)
      exact ⟨hsaved.trans hresets, fun other hother => List.mem_cons_of_mem _ (hids other hother)⟩
    next =>
      have hadded := (call.saveRow id Job.resetStale).resets_xadd job.channel job.broadcast id
      obtain ⟨hresets, hids⟩ :=
        ih ((call.saveRow id Job.resetStale).xadd job.channel job.broadcast id)
      refine ⟨(hsaved.trans hadded).trans hresets, fun other hother => ?_⟩
      rw [List.map_cons, List.mem_cons]
      exact (List.mem_cons.mp hother).imp_right (hids other)

theorem resets_recoverStaleRunning (maxAgeSeconds : Option Int) (channels : List Channel)
    (call : Call) :
    call.Resets (recoverStaleRunning maxAgeSeconds channels call).2 ∧
      ∀ id ∈ (recoverStaleRunning maxAgeSeconds channels call).1.handled,
        (call.store.jobs.get id).isSome = true := by
  induction channels generalizing call with
  | nil => exact ⟨.refl call, by simp [recoverStaleRunning]⟩
  | cons channel rest ih =>
    -- A call that creates nothing, followed by the remaining channels.
    have hrest {after : Call} (hresets : call.Resets after) :
        call.Resets (recoverStaleRunning maxAgeSeconds rest after).2 ∧
          ∀ id ∈ (recoverStaleRunning maxAgeSeconds rest after).1.handled,
            (call.store.jobs.get id).isSome = true :=
      ⟨hresets.trans (ih after).1, fun id hid =>
        (hresets.rows id).symm.trans ((ih after).2 id hid)⟩
    have hstate := call.resets_read
    have hquery := hstate.trans (call.issue .read).resets_read
    rw [recoverStaleRunning]
    split
    next => exact hrest hstate
    next =>
      split
      next => exact hrest hquery
      next =>
        obtain ⟨hresets, hids⟩ := resets_recoverEach
          (byStartedAt ((call.issue .read).staleRunning channel maxAgeSeconds))
          ((call.issue .read).issue .read)
        obtain ⟨hlast, hothers⟩ := hrest (hquery.trans hresets)
        refine ⟨hlast, fun id hid => ?_⟩
        obtain hrecovered | hother := List.mem_append.mp hid
        · obtain ⟨entry, hentry, rfl⟩ := List.mem_map.mp (hids id hrecovered)
          rw [byStartedAt, List.mem_insertionSort] at hentry
          exact (hstate.rows entry.1).symm.trans (isSome_of_mem_select hentry)
        · exact hothers id hother

/-! ## The path onto the queue -/

theorem consumed_zrem (channel : Channel) (id : JobId) (redis : Redis) {other : JobId}
    (hconsumed : redis.Consumed other) :
    ((Command.zrem .processing channel id).execRedis redis).Consumed other := by
  simpa [Redis.Consumed, Command.execRedis] using hconsumed

/-- The structures of Redis that engines and the scheduler read lose nothing. -/
def KeepsConsumed (before after : Call) : Prop :=
  ∀ id, before.store.redis.Consumed id → after.store.redis.Consumed id

theorem keepsConsumed_issue (call : Call) {command : Command}
    (hcommand : ∀ redis id, Redis.Consumed redis id → (command.execRedis redis).Consumed id) :
    call.KeepsConsumed (call.issue command) := by
  intro id hconsumed
  change (call.store.perform call.env.fault command).redis.Consumed id
  rw [Store.perform]
  split
  · exact hcommand call.store.redis id hconsumed
  · exact hconsumed

theorem consumed_requeueStuck (channel : Channel) (ids : List JobId) (call : Call) :
    call.KeepsConsumed (requeueStuck channel ids call).2 ∧
      ∀ id ∈ (requeueStuck channel ids call).1,
        (requeueStuck channel ids call).2.store.redis.Consumed id := by
  induction ids generalizing call with
  | nil => exact ⟨fun _ hconsumed => hconsumed, by simp [requeueStuck]⟩
  | cons id rest ih =>
    have hremoved := call.keepsConsumed_issue fun redis _ => consumed_zrem channel id redis
    have hpushed : (call.issue (.zrem .processing channel id)).KeepsConsumed
        ((call.issue (.zrem .processing channel id)).issue (.rpush channel id)) :=
      keepsConsumed_issue _ fun redis other hconsumed =>
        (consumed_rpush channel id redis other).mpr (.inl hconsumed)
    rw [requeueStuck]
    split
    next =>
      obtain ⟨hkeeps, hids⟩ := ih (call.issue (.zrem .processing channel id))
      exact ⟨fun other hconsumed => hkeeps other (hremoved other hconsumed), hids⟩
    next =>
      obtain ⟨hkeeps, hids⟩ :=
        ih ((call.issue (.zrem .processing channel id)).issue (.rpush channel id))
      refine ⟨fun other hconsumed => hkeeps other (hpushed other (hremoved other hconsumed)), ?_⟩
      intro other hother
      by_cases hraised : (call.issue (.zrem .processing channel id)).raised = true
      · simp only [hraised, if_true] at hother
        exact hids other hother
      · simp only [hraised] at hother
        obtain rfl | hmem := List.mem_cons.mp hother
        · refine hkeeps other ?_
          change (Store.perform _ (call.issue _).env.fault _).redis.Consumed other
          rw [Fault.eq_none_of_not_raised hraised, Store.perform,
            if_pos (Command.lands_none _)]
          exact (consumed_rpush channel other _ other).mpr (.inr rfl)
        · exact hids other hmem

theorem consumed_clearStuckJobs (call : Call) (channel : Channel) (idleThresholdMs : Int) :
    ∀ id ∈ (call.clearStuckJobs channel idleThresholdMs).1.handled,
      (call.clearStuckJobs channel idleThresholdMs).2.store.redis.Consumed id := by
  rw [clearStuckJobs]
  split
  · simp [Report.failure]
  · exact (consumed_requeueStuck channel _ _).2

end Call

namespace Recovery

/-- The call reports success for the job, whose row it leaves pending. -/
def LeavesPending (recovery : Recovery) (call : Call) (id : JobId) : Prop :=
  (recovery.run call).1.success = true ∧ id ∈ (recovery.run call).1.handled ∧
    ((recovery.run call).2.store.jobs.get id).any (fun job => job.status = .pending) = true

instance (recovery : Recovery) (call : Call) (id : JobId) :
    Decidable (recovery.LeavesPending call id) :=
  inferInstanceAs (Decidable (_ ∧ _ ∧ _))

/-- Every job the call leaves pending is where an engine or the scheduler looks. -/
def Rearms (recovery : Recovery) (call : Call) : Prop :=
  ∀ id, recovery.LeavesPending call id → (recovery.run call).2.store.redis.Consumed id

theorem recovers_run (recovery : Recovery) (call : Call) (hpushes : recovery.pushesQueue = false) :
    call.Recovers (recovery.run call).1.handled (recovery.run call).2 := by
  cases recovery with
  | retryJob id delay => exact call.recovers_retryJob id delay
  | resumeJob id => exact call.recovers_resumeJob id
  | managerRetryJob id delay => exact call.recovers_managerRetryJob id delay
  | requeueDbPending channel limit => exact call.recovers_requeueDbPending channel limit
  | recoverStaleRunning channels maxAgeSeconds =>
    obtain ⟨hresets, hrows⟩ := Call.resets_recoverStaleRunning maxAgeSeconds channels call
    exact hresets.recovers hrows
  | clearStuckJobs channel idleThresholdMs => cases hpushes

/-- A job that a successful recovery call leaves pending is armed exactly when
the path pushes onto the queue, the call created the row, or its id was in a
consumed structure already. -/
theorem consumed_iff_pushes_or_created (recovery : Recovery) (call : Call) {id : JobId}
    (hleaves : recovery.LeavesPending call id) :
    (recovery.run call).2.store.redis.Consumed id ↔
      recovery.pushesQueue = true ∨ call.store.jobs.get id = none ∨
        call.store.redis.Consumed id := by
  obtain ⟨_, hhandled, _⟩ := hleaves
  cases hpushes : recovery.pushesQueue with
  | true =>
    cases recovery with
    | clearStuckJobs channel idleThresholdMs =>
      have hconsumed := call.consumed_clearStuckJobs channel idleThresholdMs id hhandled
      exact iff_of_true hconsumed (.inl rfl)
    | _ => cases hpushes
  | false =>
    rw [(recovers_run recovery call hpushes).consumed_iff hhandled]
    simp

end Recovery

/-- A call against one job of the default channel, with no fault to come. -/
def quietCall (job : Job) (redis : Redis) : Call where
  now := 0
  settings := {}
  store := ⟨Table.empty.insert 1 job, redis⟩
  stream := fun _ _ => []
  runners := fun _ => []
  envs := []
  uuids := [2]

def failedJob : Job :=
  { channel := "default", func := "app.work", payload := "\x7b\x7d", status := .failed,
    expiresAt := some 1000 }

/-- The row in flight whose id the call pushes back onto the queue. -/
theorem consumed_clearStuck_inFlight :
    (Recovery.run (quietCall { failedJob with status := .pending }
      ((Command.zadd .processing "default" [(0, 1)]).execRedis .empty))
      (.clearStuckJobs "default" 0)).2.store.redis.Consumed 1 :=
  (Recovery.consumed_iff_pushes_or_created (.clearStuckJobs "default" 0) _ (by decide)).mpr
    (.inl rfl)

/-- Retrying a failed job publishes a copy under a new id and leaves the job
itself pending with its id nowhere. -/
theorem not_rearms_retriedJob :
    ¬ Recovery.Rearms (.retryJob 1 none) (quietCall failedJob .empty) := by
  intro hrearms
  have hleaves : Recovery.LeavesPending (.retryJob 1 none) (quietCall failedJob .empty) 1 := by
    decide +kernel
  have hrecovers := Recovery.recovers_run (.retryJob 1 none) (quietCall failedJob .empty) rfl
  obtain hnone | hconsumed := (hrecovers.consumed_iff hleaves.2.1).mp (hrearms 1 hleaves)
  · exact absurd hnone (by decide)
  · simp [Redis.Consumed, quietCall, Redis.empty] at hconsumed

end DjangoMojo.Jobs
