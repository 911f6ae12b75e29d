import DjangoMojo.Jobs.RowWrites
import DjangoMojo.Jobs.Tokens

/-! # Routing

Every id that a structure of a channel holds, or that an operation works on for
a channel, belongs to a row of that channel. So an id handed from one structure
to the next never leaves the channel of its row.
-/

namespace DjangoMojo.Jobs

open Foundation

def Store.Located (store : Store) (entry : Channel × JobId) : Prop :=
  ∃ row, store.jobs.get entry.2 = some row ∧ row.channel = entry.1

/-- Rows keep their channel and are never deleted. -/
theorem Store.Located.perform {store : Store} {entry : Channel × JobId}
    (hlocated : store.Located entry) (fault : Fault) (command : Command) :
    (store.perform fault command).Located entry := by
  obtain ⟨row, hrow, hchannel⟩ := hlocated
  obtain ⟨after, hafter, hcontinues⟩ := store.continues_perform fault command entry.2 row hrow
  exact ⟨after, hafter, (congrArg Job.channel hcontinues.published).trans hchannel⟩

def Lease.mentions (lease : Lease) : List (Channel × JobId) :=
  (lease.id :: lease.ids).map fun id => (lease.channel, id)

def DeliverPc.mentions (delivery : Delivery) : DeliverPc → List (Channel × JobId)
  | .retrySave job _ | .retryAdd job _ =>
    [(delivery.channel, delivery.id), (job.channel, delivery.id)]
  | _ => [(delivery.channel, delivery.id)]

def ReapPc.mentions : ReapPc → List (Channel × JobId)
  | .load lease | .reset lease | .release lease _ _ | .expire lease | .fail lease
  | .requeue lease | .event lease => lease.mentions
  | .lock .. | .fetch .. | .done => []

/-- The ids an operation works on, each with the channel it takes the id for. -/
def Task.mentions : Task → List (Channel × JobId)
  | .publish pc => pc.holding
  | .deliver delivery pc => pc.mentions delivery
  | .reap _ pc => pc.mentions
  | .schedule _ pc => pc.holding
  | .beat _ entries => entries
  | .cancel _ | .dead => []

namespace ReapPc

@[simp] theorem mentions_nextChannel (rest : List Channel) : (nextChannel rest).mentions = [] := by
  cases rest <;> rfl

@[simp] theorem mentions_ofIds (channel : Channel) (rest : List Channel) (ids : List JobId) :
    (ofIds channel rest ids).mentions = ids.map fun id => (channel, id) := by
  cases ids with
  | nil => exact mentions_nextChannel rest
  | cons => rfl

theorem mentions_nextEntry {lease : Lease} {entry : Channel × JobId}
    (hentry : entry ∈ (nextEntry lease).mentions) : entry ∈ lease.mentions := by
  rw [nextEntry, mentions_ofIds] at hentry
  exact List.mem_cons_of_mem _ hentry

theorem mentions_afterLoad (now : Time) (lease : Lease) (job : Job) :
    (afterLoad now lease job).mentions = lease.mentions := by
  rw [afterLoad]
  repeat' split
  all_goals rfl

theorem mentions_afterRelease {lease : Lease} {after : AfterRelease} {entry : Channel × JobId}
    (hentry : entry ∈ (afterRelease lease after).mentions) : entry ∈ lease.mentions := by
  cases after with
  | skip => exact mentions_nextEntry hentry
  | expire | fail | requeue => exact hentry

theorem mentions_afterWrite (env : Env) (lease : Lease) :
    (afterWrite env lease).mentions = lease.mentions := by
  rw [afterWrite]
  split <;> rfl

end ReapPc

namespace DeliverPc

theorem mentions_afterLoad (now : Time) (job : Job) (delivery : Delivery) :
    (afterLoad now job).mentions delivery = [(delivery.channel, delivery.id)] := by
  rw [afterLoad]
  repeat' split
  all_goals rfl

theorem mentions_afterRelease (recordMetrics : Bool) (delivery : Delivery) :
    (afterRelease recordMetrics).mentions delivery = [(delivery.channel, delivery.id)] := by
  cases recordMetrics <;> rfl

end DeliverPc

theorem Task.mentions_of_active {task : Task} {entry : Channel × JobId}
    (hactive : task.active = some entry) : entry ∈ task.mentions := by
  cases task with
  | deliver delivery pc =>
    cases pc with
    | track | done => cases hactive
    | _ =>
      cases hactive
      exact List.mem_cons_self
  | _ => cases hactive

/-- What one move mentions is known to it, read from a structure of the channel,
or located in the store it leaves; what it puts it mentions. -/
structure RouteMove (store : Store) (fault : Fault) (task : Task) (move : Move Task) : Prop where
  known : ∀ entry ∈ move.next.mentions, entry ∈ task.mentions ∨
    Command.Stored store.redis entry ∨ (store.perform fault move.command).Located entry
  puts : ∀ entry, move.command.puts entry = true → entry ∈ task.mentions

theorem mem_of_eq {first second : List (Channel × JobId)} (heq : first = second)
    {entry : Channel × JobId} (hentry : entry ∈ first) : entry ∈ second := heq ▸ hentry

namespace RouteMove

variable {now : Time} {env : Env} {store : Store}

theorem of_known {task : Task} {move : Move Task}
    (hknown : ∀ entry ∈ move.next.mentions, entry ∈ task.mentions)
    (hputs : ∀ entry, move.command.puts entry = true → entry ∈ task.mentions) :
    RouteMove store env.fault task move :=
  ⟨fun entry hentry => .inl (hknown entry hentry), hputs⟩

theorem mirror_puts {job : Job} {id : JobId} {asked : Time} {entry : Channel × JobId}
    (hputs : (job.mirror id asked).puts entry = true) : entry = (job.channel, id) := by
  obtain ⟨channel, other⟩ := entry
  rw [Job.mirror] at hputs
  split at hputs
  · split at hputs <;> simp_all [Command.puts]
  · simp_all [Command.puts]

theorem of_publish {pc : PublishPc} {move : Move PublishPc}
    (hmove : pc.move now env store = some move) :
    RouteMove store env.fault (.publish pc) (move.map .publish) := by
  cases pc with
  | insert id request asked =>
    simp only [PublishPc.move] at hmove
    split at hmove
    · cases hmove
      exact of_known (by simp [Task.mentions, PublishPc.holding]) (by simp [Command.puts])
    split at hmove
    next hraised haccepts =>
      cases hmove
      refine ⟨fun entry hentry => .inr (.inr ?_), by simp [Command.puts]⟩
      cases List.mem_singleton.mp hentry
      simp only [Store.accepts, Bool.and_eq_true, Option.isNone_iff_eq_none] at haccepts
      refine ⟨request.job, ?_, rfl⟩
      rw [Store.get_perform, Fault.eq_none_of_not_raised hraised,
        if_pos (Command.lands_none _)]
      simp [Command.onRow, haccepts.1]
    next =>
      repeat' split at hmove
      all_goals
        cases hmove
        exact of_known (by simp [Task.mentions, PublishPc.holding]) (by simp [Command.puts])
  | relock key =>
    simp only [PublishPc.move] at hmove
    split at hmove
    · cases hmove
      exact of_known (by simp [Task.mentions, PublishPc.holding]) (by simp [Command.puts])
    split at hmove
    · cases hmove
      exact of_known (by simp [Task.mentions, PublishPc.holding]) (by simp [Command.puts])
    next hraised _ id existing hget =>
      have hlocated : store.Located (existing.channel, id) :=
        ⟨existing, Store.get_of_getByKey hget, rfl⟩
      repeat' split at hmove
      · cases hmove
        refine ⟨fun entry hentry => .inr (.inr ?_), by simp [Command.puts]⟩
        cases List.mem_singleton.mp hentry
        rw [Write.apply_channel]
        exact hlocated.perform _ _
      · cases hmove
        exact of_known (by simp [Task.mentions, PublishPc.holding]) (by simp [Command.puts])
      · cases hmove
        refine ⟨fun entry hentry => .inr (.inr ?_), by simp [Command.puts]⟩
        cases List.mem_singleton.mp hentry
        exact hlocated.perform _ _
  | mirror id job asked =>
    simp only [PublishPc.move] at hmove
    split at hmove <;> cases hmove <;>
      exact of_known (by simp [Task.mentions, PublishPc.holding])
        fun entry hputs => List.mem_singleton.mpr (mirror_puts hputs)
  | returned | raised => cases hmove
  | _ =>
    simp only [PublishPc.move] at hmove
    repeat' split at hmove
    all_goals
      cases hmove
      exact of_known (by simp [Task.mentions, PublishPc.holding]) (by simp [Command.puts])

/-- A move that puts nothing and mentions nothing new. -/
theorem of_quiet {task : Task} {move : Move Task}
    (hputs : ∀ entry, move.command.puts entry = false)
    (hknown : ∀ entry ∈ move.next.mentions, entry ∈ task.mentions) :
    RouteMove store env.fault task move :=
  of_known hknown fun entry h => by simp [hputs] at h

theorem of_deliver {delivery : Delivery} {pc : DeliverPc} {move : Move DeliverPc}
    (hmove : pc.move now env store delivery = some move) :
    RouteMove store env.fault (.deliver delivery pc) (move.map (.deliver delivery)) := by
  cases pc with
  | load =>
    simp only [DeliverPc.move] at hmove
    repeat' split at hmove
    all_goals cases hmove
    · exact of_quiet (fun _ => rfl) fun _ hentry => hentry
    · exact of_quiet (fun _ => rfl) fun _ hentry => hentry
    next job _ =>
      exact of_quiet (fun _ => rfl) fun _ hentry =>
        mem_of_eq (DeliverPc.mentions_afterLoad now job delivery) hentry
  | failLoad error =>
    simp only [DeliverPc.move] at hmove
    repeat' split at hmove
    all_goals cases hmove
    · exact of_quiet (fun _ => rfl) fun _ hentry => hentry
    · exact of_quiet (fun _ => rfl) fun _ hentry => hentry
    next job hrow _ =>
      refine ⟨fun entry hentry => ?_, by simp [Command.puts]⟩
      have hlocated : store.Located (job.channel, delivery.id) := ⟨job, hrow, rfl⟩
      obtain rfl | hentry := List.mem_cons.mp hentry
      · exact .inl (List.mem_singleton_self _)
      · cases List.mem_singleton.mp hentry
        exact .inr (.inr (hlocated.perform _ _))
    · exact of_quiet (fun _ => rfl) fun _ hentry => hentry
  | release left recordMetrics =>
    simp only [DeliverPc.move] at hmove
    repeat' split at hmove
    all_goals cases hmove
    · exact of_quiet (fun _ => rfl) fun _ hentry =>
        mem_of_eq (DeliverPc.mentions_afterRelease recordMetrics delivery) hentry
    · exact of_quiet (fun _ => rfl) fun _ hentry =>
        mem_of_eq (DeliverPc.mentions_afterRelease recordMetrics delivery) hentry
    · exact of_quiet (fun _ => rfl) fun _ hentry => hentry
  | done => cases hmove
  | _ =>
    simp only [DeliverPc.move] at hmove
    repeat' split at hmove
    all_goals
      cases hmove
      refine of_known ?_ ?_ <;> simp [Task.mentions, DeliverPc.mentions, Command.puts]

theorem of_reap {cutoff : Int} {pc : ReapPc} {move : Move ReapPc}
    (hmove : pc.move now env store cutoff = some move) :
    RouteMove store env.fault (.reap cutoff pc) (move.map (.reap cutoff)) := by
  cases pc with
  | lock channel rest =>
    cases hmove
    refine of_quiet (fun _ => rfl) fun entry hentry => ?_
    simp only [Move.map_next] at hentry
    split at hentry
    · exact mem_of_eq (ReapPc.mentions_nextChannel rest) hentry
    · exact hentry
  | fetch channel rest =>
    cases hmove
    refine ⟨fun entry hentry => .inr (.inl ?_), by simp [Command.puts]⟩
    simp only [Move.map_next, Task.mentions, ReapPc.mentions_ofIds, List.mem_map] at hentry
    obtain ⟨id, hid, rfl⟩ := hentry
    split at hid
    · cases hid
    · exact .inr ⟨.processing, SortedSet.mem_of_mem_upTo hid⟩
  | load lease =>
    simp only [ReapPc.move] at hmove
    repeat' split at hmove
    all_goals cases hmove
    · exact of_quiet (fun _ => rfl) fun _ hentry => hentry
    · exact of_quiet (fun _ => rfl) fun _ hentry => hentry
    next job _ =>
      exact of_quiet (fun _ => rfl) fun _ hentry =>
        mem_of_eq (ReapPc.mentions_afterLoad now lease job) hentry
  | reset lease =>
    simp only [ReapPc.move] at hmove
    repeat' split at hmove
    all_goals
      cases hmove
      exact of_quiet (fun _ => rfl) fun _ hentry => hentry
  | release lease left after =>
    simp only [ReapPc.move] at hmove
    repeat' split at hmove
    all_goals cases hmove
    · exact of_quiet (fun _ => rfl) fun _ hentry => ReapPc.mentions_afterRelease hentry
    · exact of_quiet (fun _ => rfl) fun _ hentry => ReapPc.mentions_afterRelease hentry
    · exact of_quiet (fun _ => rfl) fun _ hentry => hentry
  | expire lease | fail lease =>
    cases hmove
    exact of_quiet (fun _ => rfl) fun _ hentry =>
      mem_of_eq (ReapPc.mentions_afterWrite env lease) hentry
  | requeue lease =>
    cases hmove
    refine of_known (fun _ hentry => mem_of_eq (ReapPc.mentions_afterWrite env lease) hentry) ?_
    intro entry hputs
    obtain rfl : (lease.channel, lease.id) = entry := by simpa [Command.puts] using hputs
    exact List.mem_cons_self
  | event lease =>
    cases hmove
    refine of_quiet (fun _ => rfl) fun entry hentry => ?_
    simp only [Move.map_next] at hentry
    split at hentry
    · exact hentry
    · exact ReapPc.mentions_nextEntry hentry
  | done => cases hmove

theorem of_schedule {moment : Time} {pc : SchedulePc} {move : Move SchedulePc}
    (hmove : pc.move env store moment = some move) :
    RouteMove store env.fault (.schedule moment pc) (move.map (.schedule moment)) := by
  cases pc with
  | pause channel rest =>
    cases hmove
    refine of_quiet (fun _ => rfl) fun entry hentry => ?_
    simp only [Move.map_next] at hentry
    split at hentry
    · exact mem_of_eq (SchedulePc.holding_nextChannel rest) hentry
    · exact hentry
  | pop zset channel rest =>
    cases hmove
    refine ⟨fun entry hentry => .inr (.inl ?_), by simp [Command.puts]⟩
    simp only [Move.map_next] at hentry
    split at hentry
    · exact absurd (mem_of_eq (SchedulePc.holding_nextChannel rest) hentry) List.not_mem_nil
    split at hentry
    · exact absurd (mem_of_eq (SchedulePc.holding_nextZset channel rest zset) hentry) List.not_mem_nil
    · simp only [Task.mentions, SchedulePc.holding, List.append_nil, List.mem_map] at hentry
      obtain ⟨popped, hpopped, rfl⟩ := hentry
      refine .inr ⟨zset, (SortedSet.mem_iff_lowest_or_dropLowest schedulerBatch).mpr (.inl ?_)⟩
      exact List.mem_map_of_mem hpopped
  | route zset channel rest popped notDue =>
    cases popped with
    | nil =>
      cases hmove
      exact of_quiet (fun _ => rfl) fun _ hentry =>
        mem_of_eq (SchedulePc.holding_afterEntry zset channel rest [] notDue) hentry
    | cons head popped =>
      simp only [SchedulePc.move] at hmove
      split at hmove
      next =>
        cases hmove
        refine of_quiet (fun _ => rfl) fun entry hentry => ?_
        simp only [Move.map_next, Task.mentions, SchedulePc.holding_afterEntry,
          List.mem_map, List.mem_append, List.mem_singleton] at hentry
        simp only [Task.mentions, SchedulePc.holding, List.mem_map, List.mem_append,
          List.mem_cons]
        obtain ⟨kept, hpopped | hnotDue | rfl, rfl⟩ := hentry
        · exact ⟨kept, .inl (.inr hpopped), rfl⟩
        · exact ⟨kept, .inr hnotDue, rfl⟩
        · exact ⟨kept, .inl (.inl rfl), rfl⟩
      next =>
        cases hmove
        refine of_known (fun entry hentry => ?_) fun entry hputs => ?_
        · simp only [Move.map_next, Task.mentions, SchedulePc.holding_afterEntry,
            List.mem_map, List.mem_append] at hentry
          simp only [Task.mentions, SchedulePc.holding, List.mem_map, List.mem_append,
            List.mem_cons]
          obtain ⟨kept, hpopped | hnotDue, rfl⟩ := hentry
          · exact ⟨kept, .inl (.inr hpopped), rfl⟩
          · split at hnotDue
            · obtain hnotDue | hhead := List.mem_append.mp hnotDue
              · exact ⟨kept, .inr hnotDue, rfl⟩
              · exact ⟨kept, .inl (.inl (List.mem_singleton.mp hhead)), rfl⟩
            · exact ⟨kept, .inr hnotDue, rfl⟩
        · obtain rfl : (channel, head.2) = entry := by simpa [Command.puts] using hputs
          exact List.mem_map.mpr ⟨head, List.mem_cons_self, rfl⟩
  | reinsert zset channel rest notDue =>
    cases hmove
    refine of_known (fun entry hentry => ?_) fun entry hputs => ?_
    · simp only [Move.map_next] at hentry
      split at hentry
      · exact absurd (mem_of_eq (SchedulePc.holding_nextChannel rest) hentry) List.not_mem_nil
      · exact absurd (mem_of_eq (SchedulePc.holding_nextZset channel rest zset) hentry) List.not_mem_nil
    · simp only [Move.map_command, Command.puts, Bool.and_eq_true, decide_eq_true_eq] at hputs
      obtain ⟨rfl, hput⟩ := hputs
      obtain ⟨kept, hkept, heq⟩ := List.mem_map.mp hput
      exact List.mem_map.mpr ⟨kept, hkept, by rw [heq]⟩
  | done => cases hmove

theorem of_cancel {pc : CancelPc} {move : Move CancelPc}
    (hmove : pc.move now env store = some move) :
    RouteMove store env.fault (.cancel pc) (move.map .cancel) := by
  refine of_quiet ?_ (by simp [Task.mentions])
  revert hmove
  fun_cases CancelPc.move now env store pc <;> rintro ⟨⟩ _ <;> rfl

theorem of_beat (touched : Int) (channel : Channel) (id : JobId)
    (rest : List (Channel × JobId)) :
    RouteMove store env.fault (.beat touched ((channel, id) :: rest))
      ⟨.beat touched (if env.fault.raised then [] else rest),
        .zadd .processing channel [(touched, id)], []⟩ := by
  refine of_known (fun entry hentry => ?_) fun entry hputs => ?_
  · simp only [Task.mentions] at hentry
    split at hentry
    · cases hentry
    · exact List.mem_cons_of_mem _ hentry
  · simp only [Command.puts, List.map_cons, List.map_nil, List.mem_singleton, Bool.and_eq_true,
      decide_eq_true_eq] at hputs
    obtain ⟨rfl, rfl⟩ := hputs
    exact List.mem_cons_self

theorem of_move {task : Task} {move : Move Task}
    (hmove : task.move now env store = some move) : RouteMove store env.fault task move :=
  Task.move_cases (fun _ _ => of_publish) (fun _ _ _ => of_deliver) (fun _ _ _ => of_reap)
    (fun _ _ _ => of_schedule) (fun _ _ => of_cancel) of_beat hmove

end RouteMove

/-- A structure holds after a command what it held before and what was put. -/
theorem Command.stored_execRedis {command : Command} {redis : Redis} {entry : Channel × JobId}
    (hstored : Stored (command.execRedis redis) entry) :
    Stored redis entry ∨ command.puts entry = true := by
  obtain ⟨channel, id⟩ := entry
  cases command with
  | rpush home other =>
    obtain hqueue | hzset := hstored
    · simp only [execRedis] at hqueue
      split at hqueue
      next heq =>
        obtain hold | hnew := List.mem_append.mp hqueue
        · exact .inl (.inl hold)
        · cases List.mem_singleton.mp hnew
          exact .inr (by simp [puts, heq])
      next => exact .inl (.inl hqueue)
    · exact .inl (.inr hzset)
  | brpop home =>
    obtain hqueue | hzset := hstored
    · simp only [execRedis] at hqueue
      split at hqueue
      · exact .inl (.inl (List.dropLast_subset _ hqueue))
      · exact .inl (.inl hqueue)
    · exact .inl (.inr hzset)
  | zadd zset home entries =>
    obtain hqueue | ⟨kind, hzset⟩ := hstored
    · exact .inl (.inl hqueue)
    · simp only [execRedis] at hzset
      split at hzset
      next heq =>
        obtain hold | hnew := SortedSet.mem_addAll.mp hzset
        · exact .inl (.inr ⟨kind, hold⟩)
        · refine .inr ?_
          simp only [puts, Bool.and_eq_true, decide_eq_true_eq]
          exact ⟨heq.2.symm, hnew⟩
      next => exact .inl (.inr ⟨kind, hzset⟩)
  | zrem zset home other =>
    obtain hqueue | ⟨kind, hzset⟩ := hstored
    · exact .inl (.inl hqueue)
    · simp only [execRedis] at hzset
      split at hzset
      · exact .inl (.inr ⟨kind, (SortedSet.mem_remove.mp hzset).1⟩)
      · exact .inl (.inr ⟨kind, hzset⟩)
  | zpopmin zset home count =>
    obtain hqueue | ⟨kind, hzset⟩ := hstored
    · exact .inl (.inl hqueue)
    · simp only [execRedis] at hzset
      split at hzset
      · exact .inl (.inr
          ⟨kind, (SortedSet.mem_iff_lowest_or_dropLowest count).mpr (.inr hzset)⟩)
      · exact .inl (.inr ⟨kind, hzset⟩)
  | _ => exact .inl hstored

/-- Every id in a structure of a channel, or that an operation works on for the
channel, belongs to a row of the channel. -/
structure Routed (system : System) : Prop where
  stored : ∀ entry, Command.Stored system.store.redis entry → system.store.Located entry
  mentioned : ∀ (index : Nat) (thread : Thread), system.threads[index]? = some thread →
    ∀ entry ∈ thread.task.mentions, system.store.Located entry

namespace Routed

variable {system : System}

theorem empty : Routed System.empty := by
  refine ⟨?_, by simp [System.empty]⟩
  rintro ⟨channel, id⟩ (hqueue | ⟨kind, hzset⟩)
  · cases hqueue
  · exact absurd hzset (SortedSet.not_mem_empty id)

theorem located_perform (hrouted : Routed system) {fault : Fault} {command : Command}
    (hputs : ∀ entry, command.puts entry = true → system.store.Located entry)
    {entry : Channel × JobId}
    (hstored : Command.Stored (system.store.perform fault command).redis entry) :
    (system.store.perform fault command).Located entry := by
  have hlocated : system.store.Located entry := by
    rw [Store.perform] at hstored
    split at hstored
    · obtain hold | hput := Command.stored_execRedis hstored
      · exact hrouted.stored entry hold
      · exact hputs entry hput
    · exact hrouted.stored entry hstored
  exact hlocated.perform fault command

theorem spawned (hrouted : Routed system) (owner : Owner) {task : Task}
    (hmentions : ∀ entry ∈ task.mentions, system.store.Located entry) :
    Routed (system.spawn owner task) := by
  refine ⟨hrouted.stored, fun index thread hthread => ?_⟩
  obtain hold | ⟨_, rfl⟩ := System.thread_spawn hthread
  · exact hrouted.mentioned index thread hold
  · exact hmentions

theorem popped (hrouted : Routed system) (fault : Fault) (channel : Channel) :
    Routed (system.popped fault channel) where
  stored _ hstored := hrouted.located_perform (fun _ hputs => by cases hputs) hstored
  mentioned index thread hthread entry hentry :=
    (hrouted.mentioned index thread hthread entry hentry).perform fault _

/-- What BRPOP returns was in the queue of the channel it names. -/
theorem mem_queue_of_nextQueued {channels : List Channel} {channel : Channel} {id : JobId}
    (hnext : system.nextQueued channels = some (channel, id)) :
    (system.store.redis.queue channel).getLast? = some id := by
  simp only [System.nextQueued, Option.bind_eq_some_iff, Option.map_eq_some_iff] at hnext
  obtain ⟨_, _, _, hlast, heq⟩ := hnext
  cases heq
  exact hlast

theorem opened (hrouted : Routed system) {action : Action} {owner : Owner} {task : Task}
    (hopens : system.opens action = some (owner, task)) : Routed (system.spawn owner task) := by
  refine hrouted.spawned owner fun entry hentry => ?_
  cases action with
  | publish | cancel =>
    cases hopens
    cases hentry
  | reap opener channels =>
    cases hopens
    exact absurd (mem_of_eq (ReapPc.mentions_nextChannel channels) hentry) List.not_mem_nil
  | schedule opener channels =>
    cases hopens
    exact absurd (mem_of_eq (SchedulePc.holding_nextChannel channels) hentry) List.not_mem_nil
  | beat opener entries =>
    simp only [System.opens] at hopens
    split at hopens
    next hall =>
      cases hopens
      obtain ⟨thread, hthread, hactive⟩ :=
        List.any_eq_true.mp (List.all_eq_true.mp hall entry hentry)
      obtain ⟨index, hget⟩ := List.mem_iff_getElem?.mp hthread
      simp only [Bool.and_eq_true, decide_eq_true_eq] at hactive
      exact hrouted.mentioned index thread hget entry (Task.mentions_of_active hactive.2)
    next => cases hopens
  | tick | claim | advance | crash => cases hopens

theorem moved (hrouted : Routed system) {index : Nat} {env : Env} {owner : Owner} {task : Task}
    {move : Move Task} (hthread : system.threads[index]? = some ⟨owner, task⟩)
    (hmove : task.move system.now env system.store = some move) :
    Routed (system.moved index owner env.fault move) := by
  have hroute := RouteMove.of_move hmove
  have hmentioned := hrouted.mentioned index _ hthread
  refine ⟨fun entry => hrouted.located_perform fun put hput =>
    hmentioned put (hroute.puts put hput), ?_⟩
  intro other thread hother entry hentry
  obtain ⟨_, rfl⟩ | ⟨_, hold⟩ := System.thread_moved hother
  · obtain hknown | hstored | hlocated := hroute.known entry hentry
    · exact (hmentioned entry hknown).perform _ _
    · exact (hrouted.stored entry hstored).perform _ _
    · exact hlocated
  · exact (hrouted.mentioned other thread hold entry hentry).perform _ _

theorem step (hrouted : Routed system) {action : Action} {next : System}
    (hstep : system.step action = some next) : Routed next := by
  cases System.step_cases hstep with
  | tick => exact ⟨hrouted.stored, hrouted.mentioned⟩
  | opened _ owner task hopens => exact hrouted.opened hopens
  | lostPop _ _ fault channel => exact hrouted.popped fault channel
  | claimed owner channels fault channel id hnext =>
    refine (hrouted.popped fault channel).spawned owner fun entry hentry => ?_
    cases List.mem_singleton.mp hentry
    have hqueue := List.mem_of_getLast? (mem_queue_of_nextQueued hnext)
    exact (hrouted.stored (channel, id) (.inl hqueue)).perform fault _
  | moved index env owner task move hthread hmove => exact hrouted.moved hthread hmove
  | crashed owner =>
    refine ⟨hrouted.stored, fun index thread hthread entry hentry => ?_⟩
    obtain hdead | ⟨_, hold⟩ := System.thread_crashed hthread
    · rw [hdead] at hentry
      cases hentry
    · exact hrouted.mentioned index thread hold entry hentry

end Routed

/-- Whatever publishers, workers, reapers and schedulers do, and wherever one of them dies, no
channel ever holds the id of a row that is missing or belongs to another channel. -/
theorem routed_always (actions : List Action) :
    Always System.step Routed System.empty actions :=
  always_of_inductive (fun _ _ _ hrouted hstep => hrouted.step hstep) Routed.empty actions

end DjangoMojo.Jobs
