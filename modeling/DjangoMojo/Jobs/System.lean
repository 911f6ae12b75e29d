import DjangoMojo.Foundation.Trace
import DjangoMojo.Jobs.Delivery

/-! # The jobs system

Any number of publishers, engines, reapers, schedulers and operators over one
store. An action opens an operation or lets an open one take its next step, so
a list of actions is an interleaving. A process may die between any two steps
and takes its open operations with it.
-/

namespace DjangoMojo.Jobs

open Foundation

abbrev Owner := String

inductive Task where
  | publish (pc : PublishPc)
  | deliver (delivery : Delivery) (pc : DeliverPc)
  | reap (cutoff : Int) (pc : ReapPc)
  | schedule (moment : Time) (pc : SchedulePc)
  | cancel (pc : CancelPc)
  /-- The heartbeat's ZADDs for the entries of its snapshot of active jobs. -/
  | beat (touched : Int) (entries : List (Channel × JobId))
  | dead

namespace Task

def beatMove (env : Env) (touched : Int) : List (Channel × JobId) → Option (Move Task)
  | [] => none
  | (channel, id) :: rest =>
    some { next := .beat touched (if env.fault.raised then [] else rest)
           command := .zadd .processing channel [(touched, id)] }

def move (now : Time) (env : Env) (store : Store) : Task → Option (Move Task)
  | .publish pc => (pc.move now env store).map (Move.map .publish)
  | .deliver delivery pc => (pc.move now env store delivery).map (Move.map (.deliver delivery))
  | .reap cutoff pc => (pc.move now env store cutoff).map (Move.map (.reap cutoff))
  | .schedule moment pc => (pc.move env store moment).map (Move.map (.schedule moment))
  | .cancel pc => (pc.move now env store).map (Move.map .cancel)
  | .beat touched entries => beatMove env touched entries
  | .dead => none

theorem move_cases {now : Time} {env : Env} {store : Store} {motive : Task → Move Task → Prop}
    (publish : ∀ pc move, PublishPc.move now env store pc = some move →
      motive (.publish pc) (move.map .publish))
    (deliver : ∀ delivery pc move, DeliverPc.move now env store delivery pc = some move →
      motive (.deliver delivery pc) (move.map (.deliver delivery)))
    (reap : ∀ cutoff pc move, ReapPc.move now env store cutoff pc = some move →
      motive (.reap cutoff pc) (move.map (.reap cutoff)))
    (schedule : ∀ moment pc move, SchedulePc.move env store moment pc = some move →
      motive (.schedule moment pc) (move.map (.schedule moment)))
    (cancel : ∀ pc move, CancelPc.move now env store pc = some move →
      motive (.cancel pc) (move.map .cancel))
    (beat : ∀ touched channel id rest, motive (.beat touched ((channel, id) :: rest))
      ⟨.beat touched (if env.fault.raised then [] else rest),
        .zadd .processing channel [(touched, id)], []⟩)
    {task : Task} {move : Move Task} (hmove : task.move now env store = some move) :
    motive task move := by
  cases task with
  | publish pc =>
    obtain ⟨inner, hinner, rfl⟩ := Option.map_eq_some_iff.mp hmove
    exact publish pc inner hinner
  | deliver delivery pc =>
    obtain ⟨inner, hinner, rfl⟩ := Option.map_eq_some_iff.mp hmove
    exact deliver delivery pc inner hinner
  | reap cutoff pc =>
    obtain ⟨inner, hinner, rfl⟩ := Option.map_eq_some_iff.mp hmove
    exact reap cutoff pc inner hinner
  | schedule moment pc =>
    obtain ⟨inner, hinner, rfl⟩ := Option.map_eq_some_iff.mp hmove
    exact schedule moment pc inner hinner
  | cancel pc =>
    obtain ⟨inner, hinner, rfl⟩ := Option.map_eq_some_iff.mp hmove
    exact cancel pc inner hinner
  | beat touched entries =>
    cases entries with
    | nil => cases hmove
    | cons entry rest =>
      cases hmove
      exact beat touched entry.1 entry.2 rest
  | dead => cases hmove

/-- A delivery the engine keeps in `active_jobs`, with its channel. -/
def active : Task → Option (Channel × JobId)
  | .deliver delivery pc =>
    match pc with
    | .track | .done => none
    | _ => some (delivery.channel, delivery.id)
  | _ => none

end Task

structure Thread where
  owner : Owner
  task : Task

structure System where
  now : Time
  store : Store
  threads : List Thread
  /-- Newest first, each event with the index of the thread it is from. -/
  log : List (Nat × Event)

inductive Action where
  | tick (elapsed : Nat)
  | publish (owner : Owner) (id : JobId) (request : Request)
  | claim (owner : Owner) (channels : List Channel) (fault : Fault)
  | reap (owner : Owner) (channels : List Channel)
  | schedule (owner : Owner) (channels : List Channel)
  | cancel (owner : Owner) (id : JobId) (operator : Bool)
  | beat (owner : Owner) (entries : List (Channel × JobId))
  | advance (thread : Nat) (env : Env)
  | crash (owner : Owner)

/-- `channels_ordered`: the priority channel first. -/
def channelsOrdered (channels : List Channel) : List Channel :=
  if "priority" ∈ channels then "priority" :: channels.filter (· ≠ "priority") else channels

namespace System

def empty : System := ⟨0, .empty, [], []⟩

def spawn (system : System) (owner : Owner) (task : Task) : System :=
  { system with threads := system.threads ++ [⟨owner, task⟩] }

def moved (system : System) (thread : Nat) (owner : Owner) (fault : Fault)
    (move : Move Task) : System :=
  { system with
    store := system.store.perform fault move.command
    threads := system.threads.set thread ⟨owner, move.next⟩
    log := move.events.map (thread, ·) ++ system.log }

def crashed (system : System) (owner : Owner) : System :=
  { system with
    threads := system.threads.map fun thread =>
      if thread.owner = owner then ⟨thread.owner, .dead⟩ else thread }

def nextQueued (system : System) (channels : List Channel) : Option (Channel × JobId) :=
  (system.store.firstQueued (channelsOrdered channels)).bind fun channel =>
    (system.store.queueLast channel).map fun id => (channel, id)

def popped (system : System) (fault : Fault) (channel : Channel) : System :=
  { system with store := system.store.perform fault (.brpop channel) }

/-- The operation an action opens without touching the store. -/
def opens (system : System) : Action → Option (Owner × Task)
  | .publish owner id request => some (owner, .publish (.insert id request system.now))
  | .reap owner channels =>
    some (owner, .reap (milliseconds system.now - visibilityTimeoutMs)
      (ReapPc.nextChannel channels))
  | .schedule owner channels =>
    some (owner, .schedule system.now (SchedulePc.nextChannel channels))
  | .cancel owner id operator => some (owner, .cancel (.load id operator))
  | .beat owner entries =>
    if entries.all fun entry => system.threads.any fun thread =>
        thread.owner = owner && thread.task.active = some entry then
      some (owner, .beat (milliseconds system.now) entries)
    else none
  | _ => none

def step (system : System) : Action → Option System
  | .tick elapsed => some { system with now := system.now + elapsed }
  | .claim owner channels fault =>
    (system.nextQueued channels).map fun (channel, id) =>
      if fault.raised then system.popped fault channel
      else (system.popped fault channel).spawn owner (.deliver ⟨channel, id, owner⟩ .track)
  | .advance thread env =>
    (system.threads[thread]?).bind fun opened =>
      (opened.task.move system.now env system.store).map fun move =>
        system.moved thread opened.owner env.fault move
  | .crash owner => some (system.crashed owner)
  | action => (system.opens action).map fun (owner, task) => system.spawn owner task

theorem thread_spawn {system : System} {owner : Owner} {task : Task} {index : Nat}
    {thread : Thread} (hthread : (system.spawn owner task).threads[index]? = some thread) :
    system.threads[index]? = some thread ∨
      index = system.threads.length ∧ thread = ⟨owner, task⟩ := by
  rw [spawn, List.getElem?_append] at hthread
  split at hthread
  next hlt => exact .inl hthread
  next hge =>
    rw [List.getElem?_singleton] at hthread
    split at hthread
    next hzero =>
      cases hthread
      exact .inr ⟨by omega, rfl⟩
    next => cases hthread

theorem thread_moved {system : System} {moving : Nat} {owner : Owner} {fault : Fault}
    {move : Move Task} {index : Nat} {thread : Thread}
    (hthread : (system.moved moving owner fault move).threads[index]? = some thread) :
    index = moving ∧ thread = ⟨owner, move.next⟩ ∨
      index ≠ moving ∧ system.threads[index]? = some thread := by
  rw [moved, List.getElem?_set] at hthread
  split at hthread
  next heq =>
    split at hthread
    next => exact .inl ⟨heq.symm, (Option.some.inj hthread).symm⟩
    next => cases hthread
  next hne => exact .inr ⟨Ne.symm hne, hthread⟩

theorem thread_crashed {system : System} {owner : Owner} {index : Nat} {thread : Thread}
    (hthread : (system.crashed owner).threads[index]? = some thread) :
    thread.task = .dead ∨ thread.owner ≠ owner ∧ system.threads[index]? = some thread := by
  rw [crashed, List.getElem?_map, Option.map_eq_some_iff] at hthread
  obtain ⟨old, hold, rfl⟩ := hthread
  split
  next => exact .inl rfl
  next hne => exact .inr ⟨hne, hold⟩

inductive Step (system : System) : Action → System → Prop where
  | tick (elapsed : Nat) : Step system (.tick elapsed) { system with now := system.now + elapsed }
  | opened (action : Action) (owner : Owner) (task : Task)
      (hopens : system.opens action = some (owner, task)) :
      Step system action (system.spawn owner task)
  | lostPop (owner : Owner) (channels : List Channel) (fault : Fault) (channel : Channel)
      (id : JobId) (hnext : system.nextQueued channels = some (channel, id))
      (hraised : fault.raised = true) :
      Step system (.claim owner channels fault) (system.popped fault channel)
  | claimed (owner : Owner) (channels : List Channel) (fault : Fault) (channel : Channel)
      (id : JobId) (hnext : system.nextQueued channels = some (channel, id))
      (hraised : fault.raised = false) :
      Step system (.claim owner channels fault)
        ((system.popped fault channel).spawn owner (.deliver ⟨channel, id, owner⟩ .track))
  | moved (thread : Nat) (env : Env) (owner : Owner) (task : Task) (move : Move Task)
      (hthread : system.threads[thread]? = some ⟨owner, task⟩)
      (hmove : task.move system.now env system.store = some move) :
      Step system (.advance thread env) (system.moved thread owner env.fault move)
  | crashed (owner : Owner) : Step system (.crash owner) (system.crashed owner)

theorem step_cases {system next : System} {action : Action}
    (hstep : system.step action = some next) : Step system action next := by
  cases action with
  | tick elapsed =>
    cases hstep
    exact .tick elapsed
  | claim owner channels fault =>
    simp only [step, Option.map_eq_some_iff] at hstep
    obtain ⟨⟨channel, id⟩, hnext, rfl⟩ := hstep
    cases hraised : fault.raised with
    | true => simpa using Step.lostPop owner channels fault channel id hnext hraised
    | false => simpa using Step.claimed owner channels fault channel id hnext hraised
  | advance thread env =>
    simp only [step, Option.bind_eq_some_iff, Option.map_eq_some_iff] at hstep
    obtain ⟨⟨owner, task⟩, hthread, move, hmove, rfl⟩ := hstep
    exact .moved thread env owner task move hthread hmove
  | crash owner =>
    cases hstep
    exact .crashed owner
  | publish | reap | schedule | cancel | beat =>
    simp only [step, Option.map_eq_some_iff] at hstep
    obtain ⟨⟨owner, task⟩, hopens, rfl⟩ := hstep
    exact .opened _ owner task hopens

end System

def steps (thread count : Nat) : List Action := List.replicate count (.advance thread {})

def retriedTwice : Request :=
  { channel := "default", func := "app.tasks.send", payload := "\x7b\x7d"
    expiresAt := 900000000, maxRetries := 2 }

/-- The job is published, and popped and claimed by an engine that then stalls.
After the visibility timeout the reaper of a second engine returns it to the
queue, where that engine pops and claims it. -/
def reclaimed : List Action :=
  [.publish "api" 1 retriedTwice] ++ steps 0 2 ++
  [.claim "a-engine" ["default"] .none] ++ steps 1 3 ++
  [.tick 31000000, .reap "b-engine" ["default"]] ++ steps 2 7 ++
  [.claim "b-engine" ["default"] .none] ++ steps 3 3

end DjangoMojo.Jobs
