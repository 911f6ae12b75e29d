import DjangoMojo.Jobs.PublishArming

/-! # The fan-out of a broadcast

An immediate broadcast is one publication per live runner, each on the channel named after
the runner. Each of them passes the channel gate, inserts its row and pushes it on its own,
and the first that raises ends the fan-out.
-/

namespace DjangoMojo.Jobs

open Foundation

structure JobEngine where
  runnerId : String
  channels : List Channel

/-- `JobEngine.__init__`: any runner id is taken, and its channel is consumed only under
`JOBS_HOSTNAME_CHANNEL`. -/
def JobEngine.init (jobChannels : List Channel) (hostnameChannel : Bool) (runnerId : String)
    (channels : List Channel) : JobEngine :=
  let consumed := if channels.isEmpty then jobChannels else channels
  ⟨runnerId, if hostnameChannel && runnerId ∉ consumed then consumed ++ [runnerId] else consumed⟩

def consumers (roster : List JobEngine) (channel : Channel) : List JobEngine :=
  roster.filter fun engine => engine.runnerId ≠ "" && channel ∈ engine.channels

namespace Store

theorem getByKey_eq_none {store : Store} {key : String} :
    store.getByKey key = none ↔
      ∀ id row, store.jobs.get id = some row → row.idempotencyKey ≠ some key := by
  simp only [getByKey, List.findSome?_eq_none_iff, Option.bind_eq_none_iff, store.jobs.mem_keys]
  constructor
  · intro hnone id row hrow hkey
    have hfound := hnone id (by rw [hrow]; rfl) row hrow
    simp [hkey] at hfound
  · intro hnone id _ row hrow
    simp [hnone id row hrow]

end Store

namespace Call

def withRoster (call : Call) (roster : List JobEngine) : Call :=
  { call with runners := fun channel =>
      (consumers roster channel).map fun engine => ⟨engine.runnerId, true⟩ }

/-- One queued job for each live runner, on a channel that it consumes, and no other. -/
structure Served (live : List JobEngine) (before after : Store) (targets : List String)
    (ids : List JobId) : Prop where
  paired : List.Forall₂ (fun runnerId id => before.jobs.get id = none ∧
    ∃ row, after.jobs.get id = some row ∧ row.status = .pending ∧ row.channel = runnerId ∧
      ∃ engine ∈ live, engine.runnerId = runnerId ∧ row.channel ∈ engine.channels) targets ids
  nodup : ids.Nodup
  created : ∀ id, before.jobs.get id = none → (after.jobs.get id).isSome → id ∈ ids
  queued : ∀ channel, after.redis.queue channel =
    before.redis.queue channel ++ ((targets.zip ids).filter (·.1 = channel)).map Prod.snd

structure Untouched (before after : Store) : Prop where
  created : ∀ id, before.jobs.get id = none → after.jobs.get id = none
  queued : after.redis.queue = before.redis.queue

/-- The publication serves every live runner of the channel or raises without a trace. -/
def AllOrNothing (roster : List JobEngine) (call : Call) (args : PublishArgs) : Prop :=
  let before := call.withRoster roster
  match before.publish args with
  | (some ids, after) =>
    Served (consumers roster args.channel) before.store after.store
      (before.targets args.channel) ids
  | (none, after) => Untouched before.store after.store

/-- Each runner's call is accepted, and its INSERT and its RPUSH succeed. -/
def servesEach (settings : Settings) (args : PublishArgs) : List String → List Env → Bool
  | [], _ => true
  | runnerId :: rest, envs =>
    (args.forRunner runnerId).isAccepted settings && !(envs.headD {}).fault.raised &&
      !(envs.tail.headD {}).fault.raised && servesEach settings args rest envs.tail.tail

/-- The call for the first runner is refused, or its INSERT fails. -/
def refusesFirst (settings : Settings) (args : PublishArgs) (envs : List Env) :
    List String → Bool
  | [] => false
  | runnerId :: _ =>
    !(args.forRunner runnerId).isAccepted settings || (envs.headD {}).fault.raised

/-- Every runner of the channel consumes the channel named after it. -/
def consumeOwn (roster : List JobEngine) (channel : Channel) : Bool :=
  (consumers roster channel).all fun engine => engine.runnerId ∈ engine.channels

/-- The ids to be drawn are new, and no job holds a key of the fan-out. -/
structure Fresh (call : Call) (args : PublishArgs) (targets : List String) : Prop where
  enough : targets.length ≤ call.uuids.length
  distinct : call.uuids.Nodup
  absent : ∀ id ∈ call.uuids, call.store.jobs.get id = none
  runners : targets.Nodup
  unused : ∀ runnerId ∈ targets, ∀ key, (args.forRunner runnerId).idempotencyKey = some key →
    call.store.getByKey key = none

inductive Outcome (call : Call) (args : PublishArgs) (runnerId : String) :
    Option JobId × Call → Prop where
  | refused (after : Call) (hstore : after.store = call.store)
      (hrefused : refusesFirst call.settings args call.envs [runnerId] = true) :
      Outcome call args runnerId (none, after)
  | unqueued (id : JobId) (after : Call) (hcreated : (after.store.jobs.get id).isSome)
      (habsent : call.store.jobs.get id = none)
      (hfirst : refusesFirst call.settings args call.envs [runnerId] = false)
      (hraised : (call.envs.tail.headD {}).fault.raised = true) :
      Outcome call args runnerId (none, after)
  | served (id : JobId) (after : Call)
      (huuids : call.uuids = id :: after.uuids) (henvs : after.envs = call.envs.tail.tail)
      (hsettings : after.settings = call.settings)
      (hnow : after.now = call.now)
      (hjobs : after.store.jobs = call.store.jobs.insert id
        ((args.forRunner runnerId).request call.settings call.now).job)
      (hqueue : ∀ channel, after.store.redis.queue channel =
        if channel = runnerId then call.store.redis.queue channel ++ [id]
        else call.store.redis.queue channel)
      (hfirst : refusesFirst call.settings args call.envs [runnerId] = false)
      (hraised : (call.envs.tail.headD {}).fault.raised = false) :
      Outcome call args runnerId (some id, after)

theorem finish_accepted (call : Call) (id : JobId) {request : Request} (asked : Time)
    (haccepts : call.store.accepts id request.job = true) :
    call.finish publishSteps (.insert id request asked) =
      if call.env.fault.raised = true then (.raised, call.issue .read)
      else (call.issue (.insert id request.job)).finish 4 (.mirror id request.job asked) := by
  by_cases hraised : call.env.fault.raised = true
  · have hmove : (PublishPc.insert id request asked).move call.now call.env call.store =
        some { next := .raised } := by
      rw [PublishPc.move, if_pos hraised]
    rw [if_pos hraised, publishSteps, finish_move hmove]
    exact finish_raised _ _
  · have hmove : (PublishPc.insert id request asked).move call.now call.env call.store =
        some ⟨.mirror id request.job asked, .insert id request.job, [.created id]⟩ := by
      rw [PublishPc.move, if_neg hraised, if_pos haccepts]
    rw [if_neg hraised, publishSteps, finish_move hmove]

theorem store_read (call : Call) : (call.issue .read).store = call.store := by
  change call.store.perform call.env.fault .read = call.store
  rw [Store.perform]
  split <;> rfl

theorem mirror_forRunner (args : PublishArgs) (settings : Settings) (runnerId : String)
    (id : JobId) (now : Time) :
    ((args.forRunner runnerId).request settings now).job.mirror id now = .rpush runnerId id := rfl

namespace Fresh

variable {call : Call} {args : PublishArgs} {runnerId : String} {rest : List String}

theorem accepts (hfresh : Fresh call args (runnerId :: rest)) {id : JobId} {ids : List JobId}
    (huuids : call.uuids = id :: ids) :
    call.store.accepts id ((args.forRunner runnerId).request call.settings call.now).job =
      true := by
  have habsent := hfresh.absent id (by rw [huuids]; exact List.mem_cons_self)
  simp only [Store.accepts, habsent, Option.isNone_none, Bool.true_and, Option.all_eq_true,
    Option.isNone_iff_eq_none]
  exact hfresh.unused runnerId List.mem_cons_self

theorem outcome_finish (hfresh : Fresh call args (runnerId :: rest)) {drawn : Call}
    {id : JobId} (huuids : call.uuids = id :: drawn.uuids)
    (hdrawn : drawn = { call with uuids := drawn.uuids })
    (haccepted : (args.forRunner runnerId).isAccepted call.settings = true) :
    Outcome call args runnerId
      ((drawn.finish publishSteps
        (.insert id ((args.forRunner runnerId).request call.settings call.now) call.now)).1.result,
      (drawn.finish publishSteps
        (.insert id ((args.forRunner runnerId).request call.settings call.now) call.now)).2) := by
  have hstore : drawn.store = call.store := by rw [hdrawn]
  have henvs : drawn.envs = call.envs := by rw [hdrawn]
  have habsent := hfresh.absent id (by rw [huuids]; exact List.mem_cons_self)
  have haccepts := hfresh.accepts huuids
  rw [← hstore] at haccepts
  rw [finish_accepted drawn id call.now haccepts, env, henvs]
  by_cases hraised : (call.envs.headD {}).fault.raised = true
  · rw [if_pos hraised]
    exact .refused _ ((store_read drawn).trans hstore) (by
      simp only [refusesFirst, hraised, Bool.or_true])
  · have hfault : drawn.env.fault = .none := by
      rw [env, henvs]
      exact Fault.eq_none_of_not_raised hraised
    have hfirst : refusesFirst call.settings args call.envs [runnerId] = false := by
      simp only [refusesFirst, haccepted, hraised, Bool.not_true, Bool.false_or]
    have hinserted : (drawn.issue (.insert id
        ((args.forRunner runnerId).request call.settings call.now).job)).store =
        ⟨call.store.jobs.insert id
          ((args.forRunner runnerId).request call.settings call.now).job, call.store.redis⟩ := by
      change drawn.store.perform drawn.env.fault _ = _
      rw [hfault, hstore, Store.perform, if_pos (Command.lands_none _)]
      rfl
    have hpresent : ((drawn.issue (.insert id ((args.forRunner runnerId).request call.settings
        call.now).job)).store.jobs.get id).isSome := by
      rw [hinserted, Table.get_insert, if_pos rfl]
      rfl
    have hnext : (drawn.issue (.insert id
        ((args.forRunner runnerId).request call.settings call.now).job)).env.fault =
        (call.envs.tail.headD {}).fault := by
      rw [env, ← henvs]
      rfl
    rw [if_neg hraised, finish_mirror, hnext]
    by_cases hmirror : (call.envs.tail.headD {}).fault.raised = true
    · rw [if_pos hmirror]
      exact .unqueued id _ (isSome_issue _ _ (isSome_issue _ _ hpresent)) habsent hfirst hmirror
    · rw [if_neg hmirror]
      have hquiet := Fault.eq_none_of_not_raised hmirror
      have hpushed := mirror_forRunner args call.settings runnerId id call.now
      refine .served id _ huuids ?_ ?_ ?_ ?_ ?_ hfirst (by simpa using hmirror)
      · change drawn.envs.tail.tail = _
        rw [henvs]
      · change drawn.settings = _
        rw [hdrawn]
      · change drawn.now = _
        rw [hdrawn]
      · change (Store.perform _ _ _).jobs = _
        rw [hpushed, hnext, hquiet, hinserted, Store.perform, if_pos (Command.lands_none _)]
        rfl
      · intro channel
        change (Store.perform _ _ _).redis.queue channel = _
        rw [hpushed, hnext, hquiet, hinserted, Store.perform, if_pos (Command.lands_none _)]
        rfl

theorem outcome (hfresh : Fresh call args (runnerId :: rest)) :
    Outcome call args runnerId (call.publishOne (args.forRunner runnerId)) := by
  cases huuids : call.uuids with
  | nil =>
    have henough := hfresh.enough
    simp [huuids] at henough
  | cons id ids =>
    rw [publishOne]
    split
    case isFalse hrefused =>
      exact .refused call rfl (by simp [refusesFirst, hrefused])
    next haccepted =>
      have hdrawn : call.drawUuid = (id, { call with uuids := ids }) := by
        simp [drawUuid, huuids]
      rw [hdrawn]
      exact hfresh.outcome_finish huuids rfl haccepted

theorem key_ne {other : String} (hne : other ≠ runnerId) {key : String}
    (hkey : (args.forRunner other).idempotencyKey = some key) :
    (args.forRunner runnerId).idempotencyKey ≠ some key := by
  intro hsame
  simp only [PublishArgs.forRunner, Option.map_eq_some_iff] at hkey hsame
  obtain ⟨base, hbase, rfl⟩ := hkey
  obtain ⟨same, hother, heq⟩ := hsame
  cases hbase.symm.trans hother
  have hlist := congrArg String.toList heq
  simp only [String.toList_append, List.append_cancel_left_eq] at hlist
  exact hne (String.toList_inj.mp hlist).symm

theorem served (hfresh : Fresh call args (runnerId :: rest)) {id : JobId} {after : Call}
    (huuids : call.uuids = id :: after.uuids)
    (hjobs : after.store.jobs = call.store.jobs.insert id
      ((args.forRunner runnerId).request call.settings call.now).job) :
    Fresh after args rest := by
  have hdistinct := hfresh.distinct
  rw [huuids, List.nodup_cons] at hdistinct
  have henough := hfresh.enough
  rw [huuids, List.length_cons, List.length_cons] at henough
  obtain ⟨hnot, hrest⟩ := List.nodup_cons.mp hfresh.runners
  refine ⟨by omega, hdistinct.2, fun other hother => ?_, hrest, fun other hother key hkey => ?_⟩
  · have hne : other ≠ id := fun heq => hdistinct.1 (heq ▸ hother)
    rw [hjobs, Table.get_insert, if_neg hne]
    exact hfresh.absent other (by rw [huuids]; exact List.mem_cons_of_mem _ hother)
  · have hunused := hfresh.unused other (List.mem_cons_of_mem _ hother) key hkey
    rw [Store.getByKey_eq_none] at hunused ⊢
    intro found row hrow
    rw [hjobs, Table.get_insert] at hrow
    split at hrow
    · rw [hfresh.absent id (by rw [huuids]; exact List.mem_cons_self)] at hrow
      cases hrow
      have hne : other ≠ runnerId := fun heq => hnot (heq ▸ hother)
      exact key_ne hne hkey
    · exact hunused found row hrow

end Fresh

theorem publishEach_refused {call : Call} {args : PublishArgs} {targets : List String}
    (hfresh : Fresh call args targets)
    (hrefuses : refusesFirst call.settings args call.envs targets = true) :
    ∃ after, publishEach args targets call = (none, after) ∧ after.store = call.store := by
  cases targets with
  | nil => cases hrefuses
  | cons runnerId rest =>
    rw [publishEach]
    cases hresult : call.publishOne (args.forRunner runnerId) with
    | mk result after =>
      have houtcome := hfresh.outcome
      rw [hresult] at houtcome
      cases houtcome with
      | refused _ hstore => exact ⟨after, rfl, hstore⟩
      | unqueued id _ _ _ hfirst => cases hrefuses.symm.trans hfirst
      | served id _ _ _ _ _ _ _ hfirst => cases hrefuses.symm.trans hfirst

theorem publishEach_cut {call : Call} {args : PublishArgs} {targets : List String}
    (hfresh : Fresh call args targets)
    (hserves : servesEach call.settings args targets call.envs = false)
    (hrefuses : refusesFirst call.settings args call.envs targets = false) :
    ∃ after id, publishEach args targets call = (none, after) ∧
      call.store.jobs.get id = none ∧ (after.store.jobs.get id).isSome := by
  induction targets generalizing call with
  | nil => cases hserves
  | cons runnerId rest ih =>
    rw [publishEach]
    cases hresult : call.publishOne (args.forRunner runnerId) with
    | mk result after =>
      have houtcome := hfresh.outcome
      rw [hresult] at houtcome
      cases houtcome with
      | refused _ _ hfirst => cases hrefuses.symm.trans hfirst
      | unqueued id _ hcreated habsent => exact ⟨after, id, rfl, habsent, hcreated⟩
      | served id _ huuids henvs hsettings hnow hjobs hqueue hfirst hraised =>
        have hrest := hfresh.served huuids hjobs
        have habsent := hfresh.absent id (by rw [huuids]; exact List.mem_cons_self)
        have hcut : servesEach after.settings args rest after.envs = false := by
          simp only [refusesFirst, Bool.or_eq_false_iff, Bool.not_eq_false'] at hfirst
          simp only [servesEach, hfirst.1, hfirst.2, hraised, Bool.not_false, Bool.true_and]
            at hserves
          rw [hsettings, henvs]
          exact hserves
        simp only
        by_cases hnext : refusesFirst after.settings args after.envs rest = true
        · obtain ⟨last, hlast, hstore⟩ := publishEach_refused hrest hnext
          rw [hlast]
          refine ⟨last, id, rfl, habsent, ?_⟩
          rw [hstore, hjobs, Table.get_insert, if_pos rfl]
          rfl
        · obtain ⟨last, other, hlast, hother, hcreated⟩ :=
            ih hrest hcut (by simpa using hnext)
          rw [hlast]
          refine ⟨last, other, rfl, ?_, hcreated⟩
          rw [hjobs, Table.get_insert] at hother
          split at hother
          · cases hother
          · exact hother

/-- What a completed fan-out leaves of the store that it began with. -/
structure Added (args : PublishArgs) (before after : Call) (targets : List String)
    (ids : List JobId) : Prop where
  paired : List.Forall₂ (fun runnerId id => before.store.jobs.get id = none ∧
    after.store.jobs.get id =
      some ((args.forRunner runnerId).request before.settings before.now).job) targets ids
  nodup : ids.Nodup
  created : ∀ id, before.store.jobs.get id = none → (after.store.jobs.get id).isSome → id ∈ ids
  kept : ∀ id row, before.store.jobs.get id = some row → after.store.jobs.get id = some row
  queued : ∀ channel, after.store.redis.queue channel = before.store.redis.queue channel ++
    ((targets.zip ids).filter (·.1 = channel)).map Prod.snd

theorem Added.absent {args : PublishArgs} {before after : Call} {targets : List String}
    {ids : List JobId} (hadded : Added args before after targets ids) :
    ∀ id ∈ ids, before.store.jobs.get id = none :=
  ((List.forall₂_and_left _ _).mp hadded.paired.flip).1

theorem Added.cons {args : PublishArgs} {call middle after : Call} {runnerId : String}
    {rest : List String} {id : JobId} {ids : List JobId} (hadded : Added args middle after rest ids)
    (habsent : call.store.jobs.get id = none) (hsettings : middle.settings = call.settings)
    (hnow : middle.now = call.now)
    (hjobs : middle.store.jobs = call.store.jobs.insert id
      ((args.forRunner runnerId).request call.settings call.now).job)
    (hqueue : ∀ channel, middle.store.redis.queue channel =
      if channel = runnerId then call.store.redis.queue channel ++ [id]
      else call.store.redis.queue channel) :
    Added args call after (runnerId :: rest) (id :: ids) where
  paired := by
    have hrow : middle.store.jobs.get id =
        some ((args.forRunner runnerId).request call.settings call.now).job := by
      rw [hjobs, Table.get_insert, if_pos rfl, habsent]
      rfl
    refine .cons ⟨habsent, hadded.kept id _ hrow⟩ (hadded.paired.imp fun other new hpair => ?_)
    rw [hsettings, hnow] at hpair
    refine ⟨?_, hpair.2⟩
    have hnone := hpair.1
    rw [hjobs, Table.get_insert] at hnone
    split at hnone
    · cases hnone
    · exact hnone
  nodup := by
    refine List.nodup_cons.mpr ⟨fun hmem => ?_, hadded.nodup⟩
    have hnone := hadded.absent id hmem
    rw [hjobs, Table.get_insert, if_pos rfl] at hnone
    cases hnone
  created other hnone hsome := by
    by_cases heq : other = id
    · exact heq ▸ List.mem_cons_self
    · refine List.mem_cons_of_mem _ (hadded.created other ?_ hsome)
      rw [hjobs, Table.get_insert, if_neg heq]
      exact hnone
  kept other row hrow := by
    refine hadded.kept other row ?_
    have hne : other ≠ id := by
      rintro rfl
      rw [habsent] at hrow
      cases hrow
    rw [hjobs, Table.get_insert, if_neg hne]
    exact hrow
  queued channel := by
    rw [hadded.queued, hqueue]
    by_cases heq : channel = runnerId
    · simp [heq]
    · simp [heq, Ne.symm heq]

theorem publishEach_served {call : Call} {args : PublishArgs} {targets : List String}
    (hfresh : Fresh call args targets)
    (hserves : servesEach call.settings args targets call.envs = true) :
    ∃ ids after, publishEach args targets call = (some ids, after) ∧
      Added args call after targets ids := by
  induction targets generalizing call with
  | nil =>
    refine ⟨[], call, rfl, .nil, .nil, fun id hnone hsome => ?_, fun _ _ hrow => hrow, ?_⟩
    · rw [hnone] at hsome
      cases hsome
    · simp
  | cons runnerId rest ih =>
    simp only [servesEach, Bool.and_eq_true, Bool.not_eq_true'] at hserves
    obtain ⟨⟨⟨haccepted, hinsert⟩, hmirror⟩, hothers⟩ := hserves
    rw [publishEach]
    cases hresult : call.publishOne (args.forRunner runnerId) with
    | mk result middle =>
      have houtcome := hfresh.outcome
      rw [hresult] at houtcome
      cases houtcome with
      | refused _ _ hfirst =>
        simp only [refusesFirst, haccepted, hinsert, Bool.not_true, Bool.or_false] at hfirst
        cases hfirst
      | unqueued _ _ _ _ _ hraised => cases hmirror.symm.trans hraised
      | served id _ huuids henvs hsettings hnow hjobs hqueue =>
        have habsent := hfresh.absent id (by rw [huuids]; exact List.mem_cons_self)
        obtain ⟨ids, after, hafter, hadded⟩ :=
          ih (hfresh.served huuids hjobs) (by rw [hsettings, henvs]; exact hothers)
        simp only
        rw [hafter]
        have hforall := hfresh.served huuids hjobs
        exact ⟨id :: ids, after, rfl, hadded.cons habsent hsettings hnow hjobs hqueue⟩

theorem targets_withRoster (call : Call) (roster : List JobEngine) (channel : Channel) :
    (call.withRoster roster).targets channel =
      ((consumers roster channel).map JobEngine.runnerId).insertionSort (· ≤ ·) := by
  have hlive : (((consumers roster channel).map fun engine => Runner.mk engine.runnerId true).filter
      fun runner => runner.alive && runner.runnerId ≠ "") =
      (consumers roster channel).map fun engine => ⟨engine.runnerId, true⟩ := by
    refine List.filter_eq_self.mpr fun runner hrunner => ?_
    obtain ⟨engine, hengine, rfl⟩ := List.mem_map.mp hrunner
    have hname := (List.mem_filter.mp hengine).2
    simp only [Bool.and_eq_true] at hname
    simpa using hname.1
  rw [targets, withRoster, hlive, List.map_map]
  rfl

theorem consumeOwn_iff {call : Call} {roster : List JobEngine} {channel : Channel}
    (hnodup : ((call.withRoster roster).targets channel).Nodup) :
    consumeOwn roster channel = true ↔
      ∀ runnerId ∈ (call.withRoster roster).targets channel,
        ∃ engine ∈ consumers roster channel, engine.runnerId = runnerId ∧
          runnerId ∈ engine.channels := by
  rw [targets_withRoster] at hnodup ⊢
  have hperm := List.perm_insertionSort (· ≤ ·) ((consumers roster channel).map JobEngine.runnerId)
  have hinj := List.inj_on_of_nodup_map (hperm.nodup_iff.mp hnodup)
  simp only [consumeOwn, List.all_eq_true, decide_eq_true_eq, hperm.mem_iff, List.mem_map,
    forall_exists_index, and_imp, forall_apply_eq_imp_iff₂]
  constructor
  · exact fun hown engine hengine => ⟨engine, hengine, rfl, hown engine hengine⟩
  · intro hown engine hengine
    obtain ⟨other, hother, hid, hmem⟩ := hown engine hengine
    cases hinj hother hengine hid
    exact hmem

/-- An immediate broadcast with live runners serves all of them or leaves no trace exactly
when it is refused before its first row, or every runner's own call is accepted and reaches
the runner, which consumes the channel named after it. -/
theorem allOrNothing_iff (roster : List JobEngine) (call : Call) (args : PublishArgs)
    (hbroadcast : args.broadcast = true) (himmediate : args.isDelayed = false)
    (hlive : consumers roster args.channel ≠ [])
    (hfresh : Fresh (call.withRoster roster) args ((call.withRoster roster).targets args.channel)) :
    AllOrNothing roster call args ↔
      args.isAccepted call.settings = false ∨
      refusesFirst call.settings args call.envs
        ((call.withRoster roster).targets args.channel) = true ∨
      (servesEach call.settings args ((call.withRoster roster).targets args.channel) call.envs &&
        consumeOwn roster args.channel) = true := by
  have htargets : (call.withRoster roster).targets args.channel ≠ [] := by
    rw [targets_withRoster]
    intro hnil
    have hperm := List.perm_insertionSort (· ≤ ·)
      ((consumers roster args.channel).map JobEngine.runnerId)
    rw [hnil] at hperm
    exact hlive (List.map_eq_nil_iff.mp hperm.nil_eq.symm)
  have huntouched (after : Call) (hstore : after.store = call.store) :
      Untouched (call.withRoster roster).store after.store := by
    rw [hstore]
    exact ⟨fun _ hnone => hnone, rfl⟩
  rw [AllOrNothing]
  by_cases haccepted : args.isAccepted call.settings = true
  case neg =>
    have hrefused : (call.withRoster roster).publish args = (none, call.withRoster roster) := by
      have hsettings : args.isAccepted (call.withRoster roster).settings = false :=
        Bool.eq_false_iff.mpr haccepted
      simp [publish, publishOne, hsettings]
    simp only [hrefused]
    exact iff_of_true (huntouched _ rfl) (.inl (Bool.eq_false_iff.mpr haccepted))
  have hpublish : (call.withRoster roster).publish args =
      publishEach args ((call.withRoster roster).targets args.channel)
        (call.withRoster roster) := by
    have hsettings : args.isAccepted (call.withRoster roster).settings = true := haccepted
    rw [publish, if_pos]
    simp [hsettings, hbroadcast, himmediate, htargets]
  simp only [hpublish, haccepted, Bool.true_eq_false, false_or]
  by_cases hfirst : refusesFirst call.settings args call.envs
      ((call.withRoster roster).targets args.channel) = true
  · obtain ⟨after, hafter, hstore⟩ := publishEach_refused hfresh hfirst
    simp only [hafter]
    exact iff_of_true (huntouched after hstore) (.inl hfirst)
  have hnotFirst : refusesFirst call.settings args call.envs
      ((call.withRoster roster).targets args.channel) = false := Bool.eq_false_iff.mpr hfirst
  cases hserves : servesEach call.settings args ((call.withRoster roster).targets args.channel)
      call.envs with
  | false =>
    obtain ⟨after, id, hafter, hnone, hsome⟩ := publishEach_cut hfresh hserves hnotFirst
    simp only [hafter, hnotFirst, Bool.false_and, Bool.false_eq_true, or_self, iff_false]
    intro hnothing
    rw [hnothing.created id hnone] at hsome
    cases hsome
  | true =>
    obtain ⟨ids, after, hafter, hadded⟩ := publishEach_served hfresh hserves
    simp only [hafter, hnotFirst, Bool.true_and, Bool.false_eq_true, false_or]
    rw [consumeOwn_iff hfresh.runners]
    constructor
    · intro hserved
      have hconsumed : List.Forall₂ (fun runnerId (_ : JobId) =>
          (∃ engine ∈ consumers roster args.channel, engine.runnerId = runnerId ∧
            runnerId ∈ engine.channels) ∧ True)
          ((call.withRoster roster).targets args.channel) ids := by
        refine hserved.paired.imp ?_
        rintro runnerId id ⟨_, row, _, _, rfl, engine, hengine, hid, hmem⟩
        exact ⟨⟨engine, hengine, hid, hmem⟩, trivial⟩
      exact ((List.forall₂_and_left _ _).mp hconsumed).1
    · intro hown
      refine ⟨?_, hadded.nodup, hadded.created, hadded.queued⟩
      refine ((List.forall₂_and_left _ _).mpr ⟨hown, hadded.paired⟩).imp ?_
      rintro runnerId id ⟨hengine, hnone, hrow⟩
      exact ⟨hnone, _, hrow, rfl, rfl, hengine⟩

def fleet : PublishArgs := { func := "app.converge", channel := "edge", broadcast := true }

def fleetCall (allowed : Option (List Channel)) : Call where
  now := 0
  settings := { allowedChannels := allowed }
  store := .empty
  stream := fun _ _ => []
  runners := fun _ => []
  envs := []
  uuids := [1, 2]

def namedFleet : List JobEngine :=
  [.init defaultChannels true "a-engine" [], .init defaultChannels true "b-engine" []]

theorem allOrNothing_namedFleet : AllOrNothing namedFleet (fleetCall (some [])) fleet := by
  have hfresh : Fresh ((fleetCall (some [])).withRoster namedFleet) fleet
      (((fleetCall (some [])).withRoster namedFleet).targets fleet.channel) :=
    ⟨by decide, by decide, fun _ _ => rfl, by decide, by rintro _ _ _ ⟨⟩⟩
  exact (allOrNothing_iff namedFleet (fleetCall (some [])) fleet rfl rfl (by decide) hfresh).mpr
    (.inr (.inr (by decide +kernel)))

/-- The second runner's id does not end as the framework's own do. -/
def mixedFleet : List JobEngine :=
  [.init defaultChannels true "a-engine" [], .init defaultChannels true "uploads" []]

/-- With `JOBS_ALLOWED_CHANNELS` set, the second runner's channel is refused after the first
runner has been served. -/
theorem not_allOrNothing_mixedFleet :
    ¬ AllOrNothing mixedFleet (fleetCall (some [])) fleet := by
  have hraised : (((fleetCall (some [])).withRoster mixedFleet).publish fleet).1 = none := by
    decide +kernel
  have hrow : ((((fleetCall (some [])).withRoster mixedFleet).publish
      fleet).2.store.jobs.get 1).isSome := by
    decide +kernel
  intro hall
  rw [AllOrNothing] at hall
  cases hresult : ((fleetCall (some [])).withRoster mixedFleet).publish fleet with
  | mk result after =>
    rw [hresult] at hraised hrow
    cases hraised
    simp only [hresult] at hall
    rw [hall.created 1 rfl] at hrow
    cases hrow

end Call

end DjangoMojo.Jobs
