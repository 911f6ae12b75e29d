import DjangoMojo.Jobs.System

/-! # The order of a queue

Publishers, schedulers and reapers push ids at the right end of a channel's list, and the
engines pop that same end. What has been taken from a channel is compared here with what
has been pushed onto it, in the order of the commands.
-/

namespace DjangoMojo.Jobs

open Foundation

def Command.appends (channel : Channel) : Command → List JobId
  | .rpush other id => if other = channel then [id] else []
  | _ => []

theorem Command.queue_execRedis {channel : Channel} {command : Command} (redis : Redis)
    (hpop : ∀ other, command ≠ .brpop other) :
    (command.execRedis redis).queue channel = redis.queue channel ++ command.appends channel := by
  cases command with
  | rpush other id =>
    by_cases heq : channel = other
    · simp [execRedis, appends, heq]
    · simp [execRedis, appends, heq, Ne.symm heq]
  | brpop other => exact absurd rfl (hpop other)
  | _ => simp [execRedis, appends]

theorem Job.mirror_ne_brpop (job : Job) (id : JobId) (asked : Time) (channel : Channel) :
    job.mirror id asked ≠ .brpop channel := by
  rw [Job.mirror]
  split
  · split <;> exact nofun
  · exact nofun

theorem Task.move_ne_brpop {now : Time} {env : Env} {store : Store} {task : Task}
    {move : Move Task} (hmove : task.move now env store = some move) (channel : Channel) :
    move.command ≠ .brpop channel := by
  refine Task.move_cases (motive := fun _ move => move.command ≠ .brpop channel)
    (fun pc move => ?_) (fun delivery pc move => ?_) (fun cutoff pc move => ?_)
    (fun moment pc move => ?_) (fun pc move => ?_) (fun _ _ _ _ => nofun) hmove
  · cases pc with
    | mirror id job asked =>
      simp only [PublishPc.move]
      split <;> rintro ⟨⟩ <;> exact job.mirror_ne_brpop id asked channel
    | _ =>
      simp only [PublishPc.move]
      repeat' split
      all_goals rintro ⟨⟩ ⟨⟩
  · fun_cases DeliverPc.move now env store delivery pc <;> rintro ⟨⟩ ⟨⟩
  · fun_cases ReapPc.move now env store cutoff pc <;> rintro ⟨⟩ ⟨⟩
  · fun_cases SchedulePc.move env store moment pc <;> rintro ⟨⟩ ⟨⟩
  · fun_cases CancelPc.move now env store pc <;> rintro ⟨⟩ ⟨⟩

namespace System

/-- The ids that an action appends to the queue of a channel. -/
def pushedBy (system : System) (channel : Channel) : Action → List JobId
  | .advance index env =>
    match (system.threads[index]?).bind fun thread =>
        thread.task.move system.now env system.store with
    | some move => if move.command.lands env.fault then move.command.appends channel else []
    | none => []
  | _ => []

/-- The ids that an action takes from the queue of a channel. -/
def takenBy (system : System) (channel : Channel) : Action → List JobId
  | .claim _ channels fault =>
    match system.nextQueued channels with
    | some (other, id) =>
      if other = channel ∧ (Command.brpop other).lands fault then [id] else []
    | none => []
  | _ => []

end System

/-- A run with the record of one channel: every push and every pop so far, oldest first. -/
structure Watched where
  system : System
  pushed : List JobId
  taken : List JobId

namespace Watched

def empty : Watched := ⟨System.empty, [], []⟩

def step (channel : Channel) (watched : Watched) (action : Action) : Option Watched :=
  (watched.system.step action).map fun next =>
    ⟨next, watched.pushed ++ watched.system.pushedBy channel action,
      watched.taken ++ watched.system.takenBy channel action⟩

/-- The ids are claimed in the order in which they were pushed. -/
def FirstInFirstOut (watched : Watched) : Prop := watched.taken <+: watched.pushed

def findsOneQueued (channel : Channel) (watched : Watched) (action : Action) : Bool :=
  watched.system.takenBy channel action = [] ||
    (watched.system.store.redis.queue channel).length = 1

/-- What has been pushed is what was taken, followed by the queue. -/
def Ordered (channel : Channel) (watched : Watched) : Prop :=
  watched.pushed = watched.taken ++ watched.system.store.redis.queue channel

namespace Ordered

variable {channel : Channel} {watched : Watched}

theorem claimed (hordered : Ordered channel watched) {owner : Owner} {channels : List Channel}
    {fault : Fault} {other : Channel} {id : JobId}
    (hone : findsOneQueued channel watched (.claim owner channels fault) = true)
    (hnext : watched.system.nextQueued channels = some (other, id)) :
    watched.pushed = watched.taken ++
      watched.system.takenBy channel (.claim owner channels fault) ++
      (watched.system.popped fault other).store.redis.queue channel := by
  rw [hordered, List.append_assoc]
  congr 1
  simp only [findsOneQueued, System.takenBy, hnext, Bool.or_eq_true, decide_eq_true_eq] at hone ⊢
  change _ = _ ++ (watched.system.store.perform fault (.brpop other)).redis.queue channel
  rw [Store.perform]
  split at hone
  next htaken =>
    obtain ⟨rfl, hlands⟩ := htaken
    obtain hnil | hlength := hone
    · cases hnil
    obtain ⟨only, honly⟩ := List.length_eq_one_iff.mp hlength
    have hlast : watched.system.store.queueLast other = some id := by
      simp only [System.nextQueued, Option.bind_eq_some_iff, Option.map_eq_some_iff] at hnext
      obtain ⟨found, _, last, hlast, hpair⟩ := hnext
      cases hpair
      exact hlast
    rw [Store.queueLast, honly] at hlast
    cases hlast
    rw [if_pos ⟨rfl, hlands⟩, if_pos hlands, honly]
    simp [Command.execRedis, honly]
  next hleft =>
    rw [if_neg hleft]
    split
    next hlands =>
      have hne : channel ≠ other := fun heq => hleft ⟨heq.symm, hlands⟩
      simp [Command.execRedis, hne]
    next => rfl

theorem step {action : Action} {next : Watched} (hordered : Ordered channel watched)
    (hone : findsOneQueued channel watched action = true)
    (hstep : watched.step channel action = some next) : Ordered channel next := by
  obtain ⟨system, hsystem, rfl⟩ := Option.map_eq_some_iff.mp hstep
  change watched.pushed ++ watched.system.pushedBy channel action =
    watched.taken ++ watched.system.takenBy channel action ++ system.store.redis.queue channel
  cases System.step_cases hsystem with
  | tick | crashed =>
    simp only [System.pushedBy, System.takenBy, List.append_nil]
    exact hordered
  | opened _ owner task hopens =>
    cases action with
    | claim | advance => cases hopens
    | _ =>
      simp only [System.pushedBy, System.takenBy, List.append_nil]
      exact hordered
  | lostPop owner channels fault other id hnext hraised =>
    simp only [System.pushedBy, List.append_nil]
    exact hordered.claimed hone hnext
  | claimed owner channels fault other id hnext hraised =>
    simp only [System.pushedBy, List.append_nil]
    exact hordered.claimed hone hnext
  | moved index env owner task move hthread hmove =>
    simp only [System.takenBy, List.append_nil]
    rw [hordered, List.append_assoc]
    congr 1
    change _ = (watched.system.store.perform env.fault move.command).redis.queue channel
    simp only [System.pushedBy, hthread, Option.bind_some, hmove]
    rw [Store.perform]
    split
    · exact (Command.queue_execRedis _ (Task.move_ne_brpop hmove)).symm
    · exact List.append_nil _

end Ordered

def immediate : Request :=
  { channel := "default", func := "app.tasks.send", payload := "\x7b\x7d"
    expiresAt := 900000000 }

def oneAtATime : List Action :=
  [.publish "api" 1 immediate] ++ steps 0 2 ++ [.claim "a-engine" ["default"] .none] ++
  [.publish "api" 2 immediate] ++ steps 2 2 ++ [.claim "a-engine" ["default"] .none]

def backlog : List Action :=
  [.publish "api" 1 immediate] ++ steps 0 2 ++ [.publish "api" 2 immediate] ++ steps 1 2 ++
  [.claim "a-engine" ["default"] .none]

end Watched

end DjangoMojo.Jobs
