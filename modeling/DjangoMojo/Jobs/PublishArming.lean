import DjangoMojo.Jobs.RowWrites

/-! # What a publication arms

A publication without an idempotency key puts the id of the row it creates into
a queue or a sched ZSET, and moves no other id in or out of them.
-/

namespace DjangoMojo.Jobs

open Foundation

/-- The id is in a structure that an engine or the scheduler reads. -/
def Redis.Consumed (redis : Redis) (id : JobId) : Prop :=
  ∃ channel, id ∈ redis.queue channel ∨ id ∈ redis.zset .sched channel ∨
    id ∈ redis.zset .schedBroadcast channel

/-- What a call may do besides creating rows and queueing them: rows that exist
keep existing, and their ids enter no consumed structure and leave none. -/
structure Call.Extends (before after : Call) : Prop where
  rows : ∀ id, (before.store.jobs.get id).isSome = true →
    (after.store.jobs.get id).isSome = true
  consumed : ∀ id, before.store.redis.Consumed id → after.store.redis.Consumed id
  existing : ∀ id, (before.store.jobs.get id).isSome = true →
    after.store.redis.Consumed id → before.store.redis.Consumed id

namespace Call.Extends

theorem refl (call : Call) : call.Extends call :=
  ⟨fun _ hrow => hrow, fun _ hconsumed => hconsumed, fun _ _ hconsumed => hconsumed⟩

theorem trans {first second third : Call} (hfirst : first.Extends second)
    (hsecond : second.Extends third) : first.Extends third where
  rows id hrow := hsecond.rows id (hfirst.rows id hrow)
  consumed id hconsumed := hsecond.consumed id (hfirst.consumed id hconsumed)
  existing id hrow hconsumed :=
    hfirst.existing id hrow (hsecond.existing id (hfirst.rows id hrow) hconsumed)

theorem of_redis {before after : Call} (hredis : after.store.redis = before.store.redis)
    (hrows : ∀ id, (before.store.jobs.get id).isSome = true →
      (after.store.jobs.get id).isSome = true) : before.Extends after :=
  ⟨hrows, fun _ hconsumed => hredis ▸ hconsumed, fun _ _ hconsumed => hredis ▸ hconsumed⟩

end Call.Extends

theorem consumed_rpush (channel : Channel) (id : JobId) (redis : Redis) (other : JobId) :
    ((Command.rpush channel id).execRedis redis).Consumed other ↔
      redis.Consumed other ∨ other = id := by
  have hqueue (home : Channel) :
      other ∈ ((Command.rpush channel id).execRedis redis).queue home ↔
        other ∈ redis.queue home ∨ home = channel ∧ other = id := by
    simp only [Command.execRedis]
    split
    next heq => simp [heq]
    next hne => simp [hne]
  constructor
  · rintro ⟨home, hmem | hzset⟩
    · obtain hold | ⟨_, heq⟩ := (hqueue home).mp hmem
      · exact .inl ⟨home, .inl hold⟩
      · exact .inr heq
    · exact .inl ⟨home, .inr hzset⟩
  · rintro (⟨home, hold | hzset⟩ | heq)
    · exact ⟨home, .inl ((hqueue home).mpr (.inl hold))⟩
    · exact ⟨home, .inr hzset⟩
    · exact ⟨channel, .inl ((hqueue channel).mpr (.inr ⟨rfl, heq⟩))⟩

theorem consumed_zadd {kind : Zset} (hkind : kind ≠ .processing) (channel : Channel) (score : Int)
    (id : JobId) (redis : Redis) (other : JobId) :
    ((Command.zadd kind channel [(score, id)]).execRedis redis).Consumed other ↔
      redis.Consumed other ∨ other = id := by
  have hzset (zset : Zset) (home : Channel) :
      other ∈ ((Command.zadd kind channel [(score, id)]).execRedis redis).zset zset home ↔
        other ∈ redis.zset zset home ∨ (zset = kind ∧ home = channel) ∧ other = id := by
    simp only [Command.execRedis]
    split
    next heq => simp [heq]
    next hne => simp [hne]
  constructor
  · rintro ⟨home, hqueue | hsched | hbroadcast⟩
    · exact .inl ⟨home, .inl hqueue⟩
    · obtain hold | ⟨_, heq⟩ := (hzset .sched home).mp hsched
      · exact .inl ⟨home, .inr (.inl hold)⟩
      · exact .inr heq
    · obtain hold | ⟨_, heq⟩ := (hzset .schedBroadcast home).mp hbroadcast
      · exact .inl ⟨home, .inr (.inr hold)⟩
      · exact .inr heq
  · rintro (⟨home, hqueue | hsched | hbroadcast⟩ | heq)
    · exact ⟨home, .inl hqueue⟩
    · exact ⟨home, .inr (.inl ((hzset .sched home).mpr (.inl hsched)))⟩
    · exact ⟨home, .inr (.inr ((hzset .schedBroadcast home).mpr (.inl hbroadcast)))⟩
    · have hnew := (hzset kind channel).mpr (.inr ⟨⟨rfl, rfl⟩, heq⟩)
      cases kind with
      | sched => exact ⟨channel, .inr (.inl hnew)⟩
      | schedBroadcast => exact ⟨channel, .inr (.inr hnew)⟩
      | processing => exact absurd rfl hkind

/-- The mirror command puts its own id and no other into a consumed structure. -/
theorem consumed_mirror (job : Job) (id : JobId) (asked : Time) (redis : Redis) (other : JobId) :
    ((job.mirror id asked).execRedis redis).Consumed other ↔
      redis.Consumed other ∨ other = id := by
  have hkind : job.schedZset ≠ .processing := by
    rw [Job.schedZset]
    split <;> simp
  rw [Job.mirror]
  split
  · split
    · exact consumed_zadd hkind job.channel _ id redis other
    · exact consumed_rpush job.channel id redis other
  · exact consumed_rpush job.channel id redis other

namespace Call

theorem isSome_issue (call : Call) (command : Command) {id : JobId}
    (hrow : (call.store.jobs.get id).isSome = true) :
    ((call.issue command).store.jobs.get id).isSome = true := by
  change ((call.store.perform call.env.fault command).jobs.get id).isSome = true
  rw [Store.get_perform]
  split
  · exact command.onRow_isSome id hrow
  · exact hrow

theorem extends_database (call : Call) {command : Command}
    (hredis : ∀ redis, command.execRedis redis = redis) : call.Extends (call.issue command) := by
  refine .of_redis ?_ fun id => call.isSome_issue command
  change (call.store.perform call.env.fault command).redis = _
  rw [Store.perform]
  split
  · exact hredis call.store.redis
  · rfl

theorem extends_mirror {before call : Call} (hextends : before.Extends call) {id : JobId}
    (habsent : before.store.jobs.get id = none) (job : Job) (asked : Time) :
    before.Extends (call.issue (job.mirror id asked)) := by
  have hconsumed (other : JobId) :
      (call.issue (job.mirror id asked)).store.redis.Consumed other ↔
        call.store.redis.Consumed other ∨
          (job.mirror id asked).lands call.env.fault = true ∧ other = id := by
    change (call.store.perform call.env.fault (job.mirror id asked)).redis.Consumed other ↔ _
    rw [Store.perform]
    split
    next hlands => simp [consumed_mirror, hlands]
    next hlands => simp [hlands]
  refine ⟨fun other hrow => call.isSome_issue _ (hextends.rows other hrow),
    fun other hold => (hconsumed other).mpr (.inl (hextends.consumed other hold)), ?_⟩
  intro other hrow hnew
  obtain hold | ⟨_, rfl⟩ := (hconsumed other).mp hnew
  · exact hextends.existing other hrow hold
  · rw [habsent] at hrow
    cases hrow

theorem consumed_issue_mirror (call : Call) (job : Job) (id : JobId) (asked : Time)
    (hraised : ¬ call.env.fault.raised = true) :
    (call.issue (job.mirror id asked)).store.redis.Consumed id := by
  change (call.store.perform call.env.fault (job.mirror id asked)).redis.Consumed id
  rw [Fault.eq_none_of_not_raised hraised, Store.perform, if_pos (Command.lands_none _)]
  exact (consumed_mirror job id asked call.store.redis id).mpr (.inr rfl)

theorem finish_move {call : Call} {pc : PublishPc} {move : Move PublishPc}
    (hmove : pc.move call.now call.env call.store = some move) (fuel : Nat) :
    call.finish (fuel + 1) pc = (call.issue move.command).finish fuel move.next := by
  rw [finish, hmove]

theorem finish_end {call : Call} {pc : PublishPc}
    (hmove : pc.move call.now call.env call.store = none) (fuel : Nat) :
    call.finish fuel pc = (pc, call) := by
  cases fuel with
  | zero => rfl
  | succ fuel => rw [finish, hmove]

theorem finish_raised (call : Call) (fuel : Nat) :
    call.finish fuel .raised = (.raised, call) :=
  finish_end rfl fuel

theorem finish_markFailed (call : Call) (fuel : Nat) (id : JobId) (error : String) :
    call.finish (fuel + 1) (.markFailed id error) =
      (.raised, call.issue (.save id (.failedToQueue error))) := by
  rw [finish_move rfl, finish_raised]

/-- The mirror step returns the id or, when its command raises, marks the row
failed and raises. -/
theorem finish_mirror (call : Call) (fuel : Nat) (id : JobId) (job : Job) (asked : Time) :
    call.finish (fuel + 2) (.mirror id job asked) =
      if call.env.fault.raised = true then
        (.raised, (call.issue (job.mirror id asked)).issue
          (.save id (.failedToQueue call.env.text)))
      else (.returned id, call.issue (job.mirror id asked)) := by
  split
  next hraised =>
    have hmove : (PublishPc.mirror id job asked).move call.now call.env call.store =
        some ⟨.markFailed id call.env.text, job.mirror id asked, []⟩ := by
      rw [PublishPc.move, if_pos hraised]
    rw [finish_move hmove]
    exact finish_markFailed _ fuel id call.env.text
  next hraised =>
    have hmove : (PublishPc.mirror id job asked).move call.now call.env call.store =
        some ⟨.returned id, job.mirror id asked, [.queued id]⟩ := by
      rw [PublishPc.move, if_neg hraised]
    rw [finish_move hmove]
    exact finish_end rfl _

/-- A publication without an idempotency key inserts its own row or raises. -/
theorem finish_insert (call : Call) (id : JobId) {request : Request} (asked : Time)
    (hkey : request.idempotencyKey = none) :
    call.finish publishSteps (.insert id request asked) =
      if call.env.fault.raised = false ∧ call.store.accepts id request.job = true then
        (call.issue (.insert id request.job)).finish 4 (.mirror id request.job asked)
      else (.raised, call.issue .read) := by
  have hmove : (PublishPc.insert id request asked).move call.now call.env call.store =
      some (if call.env.fault.raised = false ∧ call.store.accepts id request.job = true then
        ⟨.mirror id request.job asked, .insert id request.job, [.created id]⟩
      else { next := .raised }) := by
    rw [PublishPc.move, hkey]
    by_cases hraised : call.env.fault.raised = true
    · simp [hraised]
    by_cases haccepts : call.store.accepts id request.job = true
    · simp [hraised, haccepts]
    · simp [hraised, haccepts]
  rw [publishSteps, finish_move hmove]
  split
  · rfl
  · exact finish_raised _ _

/-- What a publication leaves behind: it extends the call, and the ids it
returns are new and consumed. -/
structure Publishes (before : Call) (ids : List JobId) (after : Call) : Prop where
  extending : before.Extends after
  fresh : ∀ id ∈ ids, before.store.jobs.get id = none
  consumed : ∀ id ∈ ids, after.store.redis.Consumed id

namespace Publishes

theorem nil {before after : Call} (hextends : before.Extends after) : Publishes before [] after :=
  ⟨hextends, by simp, by simp⟩

theorem append {first second third : Call} {ids rest : List JobId}
    (hfirst : Publishes first ids second) (hsecond : Publishes second rest third) :
    Publishes first (ids ++ rest) third where
  extending := hfirst.extending.trans hsecond.extending
  fresh id hid := by
    obtain hleft | hright := List.mem_append.mp hid
    · exact hfirst.fresh id hleft
    · have habsent := hsecond.fresh id hright
      by_contra hpresent
      have hkept := hfirst.extending.rows id (Option.isSome_iff_ne_none.mpr hpresent)
      rw [habsent] at hkept
      cases hkept
  consumed id hid := by
    obtain hleft | hright := List.mem_append.mp hid
    · exact hsecond.extending.consumed id (hfirst.consumed id hleft)
    · exact hsecond.consumed id hright

end Publishes

theorem publishes_mirror {before call : Call} (hextends : before.Extends call) {id : JobId}
    (habsent : before.store.jobs.get id = none) (job : Job) (asked : Time) :
    Publishes before (call.finish 4 (.mirror id job asked)).1.result.toList
      (call.finish 4 (.mirror id job asked)).2 := by
  have hmirrored := extends_mirror hextends habsent job asked
  rw [finish_mirror]
  by_cases hraised : call.env.fault.raised = true
  · rw [if_pos hraised]
    exact .nil (hmirrored.trans (extends_database _ fun _ => rfl))
  · rw [if_neg hraised]
    refine ⟨hmirrored, ?_, ?_⟩
    · simpa [PublishPc.result] using habsent
    · simpa [PublishPc.result] using consumed_issue_mirror call job id asked hraised

theorem publishes_insert (call : Call) (id : JobId) {request : Request} (asked : Time)
    (hkey : request.idempotencyKey = none) :
    Publishes call (call.finish publishSteps (.insert id request asked)).1.result.toList
      (call.finish publishSteps (.insert id request asked)).2 := by
  rw [finish_insert call id asked hkey]
  by_cases haccepts : call.env.fault.raised = false ∧ call.store.accepts id request.job = true
  · have habsent : call.store.jobs.get id = none := by
      have hfree := haccepts.2
      simp only [Store.accepts, Bool.and_eq_true, Option.isNone_iff_eq_none] at hfree
      exact hfree.1
    rw [if_pos haccepts]
    exact publishes_mirror (call.extends_database fun _ => rfl) habsent request.job asked
  · rw [if_neg haccepts]
    exact .nil (call.extends_database fun _ => rfl)

theorem publishes_publishOne (call : Call) {args : PublishArgs}
    (hkey : args.idempotencyKey = none) :
    Publishes call (call.publishOne args).1.toList (call.publishOne args).2 := by
  rw [publishOne]
  split
  next =>
    have hdrawn : call.Extends call.drawUuid.2 := .of_redis rfl fun _ hrow => hrow
    exact (Publishes.nil hdrawn).append (publishes_insert call.drawUuid.2 call.drawUuid.1 _ hkey)
  next => exact .nil (.refl call)

theorem publishes_publishEach {args : PublishArgs} (hkey : args.idempotencyKey = none)
    (targets : List String) (call : Call) :
    Publishes call ((publishEach args targets call).1.getD []) (publishEach args targets call).2 := by
  induction targets generalizing call with
  | nil => exact .nil (.refl call)
  | cons runnerId rest ih =>
    have hone : Publishes call (call.publishOne (args.forRunner runnerId)).1.toList
        (call.publishOne (args.forRunner runnerId)).2 :=
      call.publishes_publishOne (by simp [PublishArgs.forRunner, hkey])
    have hrest := ih (call.publishOne (args.forRunner runnerId)).2
    rw [publishEach]
    cases hid : (call.publishOne (args.forRunner runnerId)).1 with
    | none =>
      rw [hid] at hone
      exact hone
    | some id =>
      rw [hid] at hone
      cases hids : (publishEach args rest (call.publishOne (args.forRunner runnerId)).2).1 with
      | none =>
        rw [hids] at hrest
        simp only [hids]
        exact .nil (hone.extending.trans hrest.extending)
      | some ids =>
        rw [hids] at hrest
        simp only [hids]
        exact hone.append hrest

theorem publishes_publish (call : Call) {args : PublishArgs} (hkey : args.idempotencyKey = none) :
    Publishes call ((call.publish args).1.getD []) (call.publish args).2 := by
  rw [publish]
  split
  · exact publishes_publishEach hkey _ call
  · have hone := call.publishes_publishOne hkey
    cases hid : (call.publishOne args).1 with
    | none => simpa [hid] using hone
    | some id => simpa [hid] using hone

end Call

end DjangoMojo.Jobs
