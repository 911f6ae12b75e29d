import DjangoMojo.Jobs.System

/-! # Tokens

What leads a pending job to an engine is a token: its id in the queue or in one
of the ZSETs of a channel, or an open operation that is about to put it there.
Each step either hands a token on or forfeits it.
-/

namespace DjangoMojo.Jobs

open Foundation

namespace PublishPc

/-- The id a publisher is about to queue, with its channel. -/
def holding : PublishPc → List (Channel × JobId)
  | .mirror id job _ => [(job.channel, id)]
  | _ => []

end PublishPc

namespace DeliverPc

def holding (delivery : Delivery) : DeliverPc → List (Channel × JobId)
  | .track => [(delivery.channel, delivery.id)]
  | .retryAdd job _ => [(job.channel, delivery.id)]
  | _ => []

end DeliverPc

namespace ReapPc

def holding : ReapPc → List (Channel × JobId)
  | .release lease _ .requeue | .requeue lease => [(lease.channel, lease.id)]
  | _ => []

end ReapPc

namespace SchedulePc

def holding : SchedulePc → List (Channel × JobId)
  | .route _ channel _ popped notDue => (popped ++ notDue).map fun entry => (channel, entry.2)
  | .reinsert _ channel _ notDue => notDue.map fun entry => (channel, entry.2)
  | _ => []

@[simp] theorem holding_nextChannel (rest : List Channel) : (nextChannel rest).holding = [] := by
  cases rest <;> rfl

@[simp] theorem holding_nextZset (channel : Channel) (rest : List Channel) (zset : Zset) :
    (nextZset channel rest zset).holding = [] := by
  cases zset with
  | sched => rfl
  | schedBroadcast | processing => exact holding_nextChannel rest

@[simp] theorem holding_afterEntry (zset : Zset) (channel : Channel) (rest : List Channel)
    (popped notDue : List (Int × JobId)) :
    (afterEntry zset channel rest popped notDue).holding =
      (popped ++ notDue).map fun entry => (channel, entry.2) := by
  cases popped <;> cases notDue <;> rfl

end SchedulePc

namespace Task

/-- The ids an operation is about to put into a structure of a channel. -/
def holding : Task → List (Channel × JobId)
  | .publish pc => pc.holding
  | .deliver delivery pc => pc.holding delivery
  | .reap _ pc => pc.holding
  | .schedule _ pc => pc.holding
  | .beat _ entries => entries
  | .cancel _ | .dead => []

/-- The step of an operation, ending with a fault, puts what it holds or still
holds it. The reaper pushes after its release, the scheduler puts back what it
could not push, and the heartbeat gives up at the first error. -/
def secures (fault : Fault) (entry : Channel × JobId) : Task → Bool
  | .reap _ (.release ..) | .schedule _ (.route ..) => true
  | .beat _ (head :: _) => fault = .none || (fault = .ambiguous && head = entry)
  | _ => fault ≠ .lost

/-- The step takes an id out of a ZSET for good: a release of a lease that is
not to be requeued, the ZREM of a cancellation, or a pop whose reply is lost. -/
def forfeits (fault : Fault) (store : Store) (kind : Zset) (channel : Channel) (id : JobId) :
    Task → Bool
  | .deliver delivery .dropLease | .deliver delivery (.release ..) =>
    fault ≠ .lost && kind = .processing && delivery.channel = channel && delivery.id = id
  | .reap _ (.release lease _ after) =>
    fault ≠ .lost && kind = .processing && lease.channel = channel && lease.id = id &&
      after ≠ .requeue
  | .cancel (.zrem zset other home) =>
    fault ≠ .lost && zset = kind && home = channel && other = id
  | .schedule _ (.pop zset home _) =>
    fault = .ambiguous && zset = kind && home = channel &&
      id ∈ ((store.redis.zset kind channel).lowest schedulerBatch).map Prod.snd
  | _ => false

end Task

namespace Command

/-- The command puts an id into the queue or a ZSET of a channel. -/
def puts (entry : Channel × JobId) : Command → Bool
  | .rpush channel id => (channel, id) = entry
  | .zadd _ channel entries => channel = entry.1 && entry.2 ∈ entries.map Prod.snd
  | _ => false

def isPop : Command → Bool
  | .brpop _ => true
  | _ => false

def takes (redis : Redis) (kind : Zset) (channel : Channel) (id : JobId) : Command → Bool
  | .zrem zset home other => zset = kind && home = channel && other = id
  | .zpopmin zset home count =>
    zset = kind && home = channel &&
      id ∈ ((redis.zset kind channel).lowest count).map Prod.snd
  | _ => false

theorem mem_queue {command : Command} (hpop : command.isPop = false) {redis : Redis}
    {channel : Channel} {id : JobId} (hmem : id ∈ redis.queue channel) :
    id ∈ (command.execRedis redis).queue channel := by
  cases command with
  | brpop => cases hpop
  | rpush other new =>
    simp only [execRedis]
    split <;> simp [hmem]
  | _ => exact hmem

theorem mem_zset {command : Command} {redis : Redis} {kind : Zset} {channel : Channel}
    {id : JobId} (htakes : command.takes redis kind channel id = false)
    (hmem : id ∈ redis.zset kind channel) : id ∈ (command.execRedis redis).zset kind channel := by
  cases command with
  | zadd zset home entries =>
    simp only [execRedis]
    split <;> simp [hmem]
  | zrem zset home other =>
    simp only [execRedis]
    split
    next heq =>
      obtain ⟨rfl, rfl⟩ := heq
      refine SortedSet.mem_remove.mpr ⟨hmem, ?_⟩
      rintro rfl
      simp [takes] at htakes
    next => exact hmem
  | zpopmin zset home count =>
    simp only [execRedis]
    split
    next heq =>
      obtain ⟨rfl, rfl⟩ := heq
      obtain hlow | hrest := (SortedSet.mem_iff_lowest_or_dropLowest count).mp hmem
      · simp only [takes, decide_true, Bool.true_and, decide_eq_false_iff_not] at htakes
        exact absurd hlow htakes
      · exact hrest
    next => exact hmem
  | _ => exact hmem

def Stored (redis : Redis) (entry : Channel × JobId) : Prop :=
  entry.2 ∈ redis.queue entry.1 ∨ ∃ kind, entry.2 ∈ redis.zset kind entry.1

theorem stored_of_puts {command : Command} {redis : Redis} {entry : Channel × JobId}
    (hputs : command.puts entry = true) : Stored (command.execRedis redis) entry := by
  cases command with
  | rpush channel id =>
    obtain rfl : (channel, id) = entry := by simpa [puts] using hputs
    exact .inl (by simp [execRedis])
  | zadd zset channel entries =>
    obtain ⟨rfl, hmem⟩ : channel = entry.1 ∧ entry.2 ∈ entries.map Prod.snd := by
      simpa only [puts, Bool.and_eq_true, decide_eq_true_eq] using hputs
    exact .inr ⟨zset, by simp only [execRedis, and_self, if_true, SortedSet.mem_addAll, hmem, or_true]⟩
  | _ => cases hputs

end Command

/-- What one move does to tokens: it pops no queue, it hands on what it secures,
and what it takes without forfeiting it holds. -/
structure TokenMove (store : Store) (fault : Fault) (task : Task) (move : Move Task) : Prop where
  not_pop : move.command.isPop = false
  handed_on : ∀ entry ∈ task.holding, task.secures fault entry = true →
    entry ∈ move.next.holding ∨
      move.command.lands fault = true ∧ move.command.puts entry = true
  held : ∀ kind channel id, id ∈ store.redis.zset kind channel →
    task.forfeits fault store kind channel id = false →
    move.command.lands fault = true → move.command.takes store.redis kind channel id = true →
    (channel, id) ∈ move.next.holding

namespace TokenMove

variable {now : Time} {env : Env} {store : Store}

theorem lands_of_ne_lost {command : Command} {fault : Fault}
    (hredis : command.isDatabase = false) (hlost : fault ≠ .lost) :
    command.lands fault = true := by
  cases fault with
  | lost => exact absurd rfl hlost
  | none => rfl
  | ambiguous => simp [Command.lands, hredis]

theorem of_idle {task : Task} {move : Move Task} (hpop : move.command.isPop = false)
    (hholding : task.holding = [])
    (htakes : ∀ kind channel id, move.command.takes store.redis kind channel id = false) :
    TokenMove store env.fault task move :=
  ⟨hpop, by simp [hholding], fun kind channel id _ _ _ h => by simp [htakes] at h⟩

theorem of_put {task : Task} {move : Move Task} {entry : Channel × JobId}
    (hpop : move.command.isPop = false) (hholding : task.holding = [entry])
    (hsecures : task.secures env.fault entry = true → env.fault ≠ .lost)
    (hredis : move.command.isDatabase = false) (hputs : move.command.puts entry = true)
    (htakes : ∀ kind channel id, move.command.takes store.redis kind channel id = false) :
    TokenMove store env.fault task move := by
  refine ⟨hpop, ?_, fun kind channel id _ _ _ h => by simp [htakes] at h⟩
  intro other hother hsecured
  rw [hholding, List.mem_singleton] at hother
  subst hother
  exact .inr ⟨lands_of_ne_lost hredis (hsecures hsecured), hputs⟩

/-- A move that holds nothing and whose ZREM counts as forfeiting its entry. -/
theorem of_zrem {task : Task} {move : Move Task} {zset : Zset} {home : Channel} {other : JobId}
    (hcommand : move.command = .zrem zset home other) (hholding : task.holding = [])
    (hforfeits : env.fault ≠ .lost → task.forfeits env.fault store zset home other = true) :
    TokenMove store env.fault task move := by
  refine ⟨by rw [hcommand]; rfl, by simp [hholding], ?_⟩
  intro kind channel id _ hkept hlands htakes
  rw [hcommand] at hlands htakes
  simp only [Command.takes, Bool.and_eq_true, decide_eq_true_eq] at htakes
  obtain ⟨⟨rfl, rfl⟩, rfl⟩ := htakes
  rw [hforfeits (by rintro hlost; rw [hlost] at hlands; cases hlands)] at hkept
  cases hkept

theorem mirror_puts (job : Job) (id : JobId) (asked : Time) :
    (job.mirror id asked).puts (job.channel, id) = true ∧
      (job.mirror id asked).isPop = false ∧ (job.mirror id asked).isDatabase = false ∧
      ∀ redis kind channel other, (job.mirror id asked).takes redis kind channel other = false := by
  rw [Job.mirror]
  split
  · split <;> simp [Command.puts, Command.isPop, Command.isDatabase, Command.takes]
  · simp [Command.puts, Command.isPop, Command.isDatabase, Command.takes]

theorem of_publish {pc : PublishPc} {move : Move PublishPc}
    (hmove : pc.move now env store = some move) :
    TokenMove store env.fault (.publish pc) (move.map .publish) := by
  cases pc with
  | mirror id job asked =>
    obtain ⟨hputs, hpop, hredis, htakes⟩ := mirror_puts job id asked
    simp only [PublishPc.move] at hmove
    split at hmove <;> cases hmove <;>
      exact of_put hpop rfl (by simp [Task.secures]) hredis hputs (htakes store.redis)
  | returned | raised => cases hmove
  | _ =>
    simp only [PublishPc.move] at hmove
    repeat' split at hmove
    all_goals cases hmove; exact of_idle rfl rfl fun _ _ _ => rfl

theorem of_deliver {delivery : Delivery} {pc : DeliverPc} {move : Move DeliverPc}
    (hmove : pc.move now env store delivery = some move) :
    TokenMove store env.fault (.deliver delivery pc) (move.map (.deliver delivery)) := by
  cases pc with
  | track =>
    cases hmove
    exact of_put rfl rfl (by simp [Task.secures]) rfl (by simp [Command.puts]) fun _ _ _ => rfl
  | retryAdd job runAt =>
    cases hmove
    exact of_put rfl rfl (by simp [Task.secures]) rfl (by simp [Command.puts]) fun _ _ _ => rfl
  | dropLease | release =>
    cases hmove
    refine of_zrem rfl rfl ?_
    intro hlost
    simp [Task.forfeits, hlost]
  | done => cases hmove
  | _ =>
    simp only [DeliverPc.move] at hmove
    repeat' split at hmove
    all_goals cases hmove; exact of_idle rfl rfl fun _ _ _ => rfl

theorem of_reap {cutoff : Int} {pc : ReapPc} {move : Move ReapPc}
    (hmove : pc.move now env store cutoff = some move) :
    TokenMove store env.fault (.reap cutoff pc) (move.map (.reap cutoff)) := by
  cases pc with
  | release lease left after =>
    cases after with
    | requeue =>
      have hnext : move.next.holding = [(lease.channel, lease.id)] := by
        simp only [ReapPc.move] at hmove
        repeat' split at hmove
        all_goals cases hmove; rfl
      have hcommand : move.command = .zrem .processing lease.channel lease.id := by
        cases hmove
        rfl
      have hheld : (lease.channel, lease.id) ∈ (move.map (Task.reap cutoff)).next.holding := by
        rw [Move.map_next, Task.holding, hnext]
        exact List.mem_singleton_self _
      refine ⟨by rw [Move.map_command, hcommand]; rfl, ?_, ?_⟩
      · intro entry hentry _
        cases List.mem_singleton.mp hentry
        exact .inl hheld
      · intro kind channel id _ _ _ htakes
        rw [Move.map_command, hcommand] at htakes
        simp only [Command.takes, Bool.and_eq_true, decide_eq_true_eq] at htakes
        obtain ⟨⟨rfl, rfl⟩, rfl⟩ := htakes
        exact hheld
    | skip | expire | fail =>
      cases hmove
      refine of_zrem rfl rfl ?_
      intro hlost
      simp [Task.forfeits, hlost]
  | requeue lease =>
    cases hmove
    exact of_put rfl rfl (by simp [Task.secures]) rfl (by simp [Command.puts]) fun _ _ _ => rfl
  | done => cases hmove
  | _ =>
    simp only [ReapPc.move] at hmove
    repeat' split at hmove
    all_goals cases hmove; exact of_idle rfl rfl fun _ _ _ => rfl

theorem of_cancel {pc : CancelPc} {move : Move CancelPc}
    (hmove : pc.move now env store = some move) :
    TokenMove store env.fault (.cancel pc) (move.map .cancel) := by
  cases pc with
  | zrem zset id channel =>
    cases hmove
    refine of_zrem rfl rfl ?_
    intro hlost
    simp [Task.forfeits, hlost]
  | done => cases hmove
  | _ =>
    simp only [CancelPc.move] at hmove
    repeat' split at hmove
    all_goals cases hmove; exact of_idle rfl rfl fun _ _ _ => rfl

theorem of_beat (touched : Int) (channel : Channel) (id : JobId)
    (rest : List (Channel × JobId)) :
    TokenMove store env.fault (.beat touched ((channel, id) :: rest))
      ⟨.beat touched (if env.fault.raised then [] else rest),
        .zadd .processing channel [(touched, id)], []⟩ := by
  refine ⟨rfl, ?_, fun _ _ _ _ _ _ htakes => by cases htakes⟩
  intro entry hentry hsecured
  simp only [Task.secures, Bool.or_eq_true, Bool.and_eq_true, decide_eq_true_eq] at hsecured
  have hputs : Command.puts (channel, id) (.zadd .processing channel [(touched, id)]) = true := by
    simp [Command.puts]
  obtain hnone | ⟨hambiguous, rfl⟩ := hsecured
  · obtain rfl | hrest := List.mem_cons.mp hentry
    · exact .inr ⟨by rw [hnone]; rfl, hputs⟩
    · exact .inl (by simpa [Task.holding, hnone, Fault.raised] using hrest)
  · exact .inr ⟨by rw [hambiguous]; rfl, hputs⟩

theorem of_schedule {moment : Time} {pc : SchedulePc} {move : Move SchedulePc}
    (hmove : pc.move env store moment = some move) :
    TokenMove store env.fault (.schedule moment pc) (move.map (.schedule moment)) := by
  cases pc with
  | pause channel rest =>
    cases hmove
    exact of_idle rfl rfl fun _ _ _ => rfl
  | pop zset channel rest =>
    cases hmove
    refine ⟨rfl, by simp [Task.holding, SchedulePc.holding], ?_⟩
    intro kind home id _ hkept hlands htakes
    simp only [Move.map_command, Command.takes, Bool.and_eq_true, decide_eq_true_eq] at htakes
    obtain ⟨⟨rfl, rfl⟩, hlow⟩ := htakes
    have hnone : env.fault = .none := by
      cases hfault : env.fault with
      | none => rfl
      | lost =>
        rw [hfault] at hlands
        cases hlands
      | ambiguous => simp [Task.forfeits, hfault, hlow] at hkept
    simp only [Move.map_next, Task.holding, hnone, Fault.raised, Bool.false_eq_true, if_false]
    split
    next hempty =>
      rw [hempty] at hlow
      cases hlow
    next =>
      obtain ⟨entry, hentry, rfl⟩ := List.mem_map.mp hlow
      exact List.mem_map.mpr ⟨entry, by simpa using hentry, rfl⟩
  | route zset channel rest popped notDue =>
    cases popped with
    | nil =>
      cases hmove
      refine ⟨rfl, ?_, fun _ _ _ _ _ _ htakes => by cases htakes⟩
      intro entry hentry _
      refine .inl ?_
      change entry ∈ (SchedulePc.afterEntry zset channel rest [] notDue).holding
      rw [SchedulePc.holding_afterEntry]
      exact hentry
    | cons entry popped =>
      simp only [SchedulePc.move] at hmove
      split at hmove
      next =>
        cases hmove
        refine ⟨rfl, ?_, fun _ _ _ _ _ _ htakes => by cases htakes⟩
        intro other hother _
        refine .inl ?_
        simp only [Task.holding, SchedulePc.holding, List.mem_map, List.mem_append,
          List.mem_cons] at hother
        simp only [Move.map_next, Task.holding, SchedulePc.holding_afterEntry, List.mem_map,
          List.mem_append, List.mem_singleton]
        obtain ⟨handed, (rfl | hpopped) | hnotDue, rfl⟩ := hother
        · exact ⟨handed, .inr (.inr rfl), rfl⟩
        · exact ⟨handed, .inl hpopped, rfl⟩
        · exact ⟨handed, .inr (.inl hnotDue), rfl⟩
      next =>
        cases hmove
        refine ⟨rfl, ?_, fun _ _ _ _ _ _ htakes => by cases htakes⟩
        intro other hother _
        simp only [Task.holding, SchedulePc.holding, List.mem_map, List.mem_append,
          List.mem_cons] at hother
        simp only [Move.map_next, Task.holding, SchedulePc.holding_afterEntry, List.mem_map,
          List.mem_append, Move.map_command, Command.puts, decide_eq_true_eq]
        obtain ⟨handed, (rfl | hpopped) | hnotDue, rfl⟩ := hother
        · cases hfault : env.fault with
          | none => exact .inr ⟨rfl, rfl⟩
          | ambiguous => exact .inr ⟨rfl, rfl⟩
          | lost => exact .inl ⟨handed, .inr (by simp [Fault.raised]), rfl⟩
        · exact .inl ⟨handed, .inl hpopped, rfl⟩
        · refine .inl ⟨handed, .inr ?_, rfl⟩
          split
          · exact List.mem_append_left _ hnotDue
          · exact hnotDue
  | reinsert zset channel rest notDue =>
    cases hmove
    refine ⟨rfl, ?_, fun _ _ _ _ _ _ htakes => by cases htakes⟩
    intro entry hentry hsecured
    obtain ⟨added, hadded, rfl⟩ := List.mem_map.mp hentry
    have hlost : env.fault ≠ .lost := by simpa [Task.secures] using hsecured
    refine .inr ⟨lands_of_ne_lost rfl hlost, ?_⟩
    simp only [Move.map_command, Command.puts, decide_true, Bool.true_and, decide_eq_true_eq]
    exact List.mem_map_of_mem hadded
  | done => cases hmove

theorem of_move {task : Task} {move : Move Task}
    (hmove : task.move now env store = some move) : TokenMove store env.fault task move :=
  Task.move_cases (fun _ _ => of_publish) (fun _ _ _ => of_deliver) (fun _ _ _ => of_reap)
    (fun _ _ _ => of_schedule) (fun _ _ => of_cancel) of_beat hmove

end TokenMove

end DjangoMojo.Jobs
