import DjangoMojo.Jobs.Routing

/-! # No lost job

A pending job is armed while it has a token. Steps that make a row pending hold
a token for it themselves, so a run loses no job as long as none of its steps
forfeits the last token of a pending job.
-/

namespace DjangoMojo.Jobs

open Foundation

inductive Token where
  | queued
  | zset (kind : Zset)
  | held (thread : Nat)

namespace System

/-- The id is in a structure of the channel, or an open operation is about to
put it there. -/
def Armed (system : System) (entry : Channel × JobId) : Prop :=
  Command.Stored system.store.redis entry ∨
    ∃ (index : Nat) (thread : Thread), system.threads[index]? = some thread ∧
      entry ∈ thread.task.holding

def holds (system : System) (entry : Channel × JobId) : Token → Bool
  | .queued => entry.2 ∈ system.store.redis.queue entry.1
  | .zset kind => entry.2 ∈ system.store.redis.zset kind entry.1
  | .held index => (system.threads[index]?).any fun thread => entry ∈ thread.task.holding

/-- The action gives a token up: a pop of the last copy in the queue whose reply
is lost, an id taken out of a ZSET for good, a write of a holder that fails
unapplied, or the death of the holder's process. -/
def forfeits (system : System) (entry : Channel × JobId) : Token → Action → Bool
  | .queued, .claim _ channels fault =>
    fault = .ambiguous && system.nextQueued channels = some entry &&
      entry.2 ∉ (system.store.redis.queue entry.1).dropLast
  | .zset kind, .advance index env =>
    (system.threads[index]?).any fun thread =>
      thread.task.forfeits env.fault system.store kind entry.1 entry.2
  | .held index, .advance moving env =>
    moving = index &&
      (system.threads[index]?).any fun thread => !thread.task.secures env.fault entry
  | .held index, .crash owner => (system.threads[index]?).any fun thread => thread.owner = owner
  | _, _ => false

def tokens (system : System) : List Token :=
  [.queued, .zset .sched, .zset .schedBroadcast, .zset .processing] ++
    (List.range system.threads.length).map .held

def tokensOf (system : System) (entry : Channel × JobId) : List Token :=
  system.tokens.filter (system.holds entry)

end System

def NoLostJob (system : System) : Prop :=
  ∀ id row, system.store.jobs.get id = some row → row.status = .pending →
    system.Armed (row.channel, id)

/-- The action does not forfeit the last tokens of a pending job. -/
def keepsTokens (system : System) (action : Action) : Bool :=
  system.store.jobs.keys.all fun id =>
    (system.store.jobs.get id).all fun row =>
      row.status ≠ .pending || (system.tokensOf (row.channel, id)).isEmpty ||
        (system.tokensOf (row.channel, id)).any fun token =>
          !system.forfeits (row.channel, id) token action

namespace System

variable {system : System} {entry : Channel × JobId}

theorem armed_of_holds {token : Token} (hholds : system.holds entry token = true) :
    system.Armed entry := by
  cases token with
  | queued => exact .inl (.inl (by simpa [holds] using hholds))
  | zset kind => exact .inl (.inr ⟨kind, by simpa [holds] using hholds⟩)
  | held index =>
    obtain ⟨thread, hthread, hentry⟩ := (Option.any_eq_true ..).mp hholds
    exact .inr ⟨index, thread, hthread, by simpa using hentry⟩

theorem token_of_armed (harmed : system.Armed entry) :
    ∃ token ∈ system.tokens, system.holds entry token = true := by
  obtain (hqueue | ⟨kind, hzset⟩) | ⟨index, thread, hthread, hentry⟩ := harmed
  · exact ⟨.queued, by simp [tokens], decide_eq_true hqueue⟩
  · exact ⟨.zset kind, by cases kind <;> simp [tokens], decide_eq_true hzset⟩
  · obtain ⟨hlt, _⟩ := List.getElem?_eq_some_iff.mp hthread
    exact ⟨.held index, by simp [tokens, hlt], by simp [holds, hthread, hentry]⟩

theorem armed_spawn (harmed : system.Armed entry) (owner : Owner) (task : Task) :
    (system.spawn owner task).Armed entry := by
  obtain hstored | ⟨index, thread, hthread, hentry⟩ := harmed
  · exact .inl hstored
  · refine .inr ⟨index, thread, ?_, hentry⟩
    obtain ⟨hlt, _⟩ := List.getElem?_eq_some_iff.mp hthread
    rw [spawn, List.getElem?_append_left hlt, hthread]

theorem armed_crashed {token : Token} {owner : Owner} (hholds : system.holds entry token = true)
    (hkept : system.forfeits entry token (.crash owner) = false) :
    (system.crashed owner).Armed entry := by
  cases token with
  | queued => exact .inl (.inl (of_decide_eq_true hholds))
  | zset kind => exact .inl (.inr ⟨kind, of_decide_eq_true hholds⟩)
  | held index =>
    obtain ⟨thread, hthread, hentry⟩ := (Option.any_eq_true ..).mp hholds
    have hother : thread.owner ≠ owner := by simpa [forfeits, hthread] using hkept
    refine .inr ⟨index, thread, ?_, by simpa using hentry⟩
    simp [crashed, hthread, hother]

theorem jobs_popped (fault : Fault) (channel : Channel) :
    (system.popped fault channel).store.jobs = system.store.jobs := by
  cases fault <;> rfl

/-- A pop takes at most one token: the last copy in the queue of the id it
returns. -/
theorem armed_popped (fault : Fault) {channels : List Channel} {channel : Channel} {id : JobId}
    (hnext : system.nextQueued channels = some (channel, id)) {token : Token}
    (hholds : system.holds entry token = true) :
    (system.popped fault channel).Armed entry ∨
      token = .queued ∧ entry = (channel, id) ∧ fault ≠ .lost ∧
        entry.2 ∉ (system.store.redis.queue entry.1).dropLast := by
  cases token with
  | queued =>
    have hqueue : entry.2 ∈ system.store.redis.queue entry.1 := of_decide_eq_true hholds
    by_cases hdrop : entry.2 ∈ (system.store.redis.queue entry.1).dropLast
    · refine .inl (.inl (.inl ?_))
      rw [popped, Store.perform]
      split
      · simp only [Command.execRedis]
        split <;> assumption
      · exact hqueue
    by_cases hchannel : entry.1 = channel
    · have hlast := Routed.mem_queue_of_nextQueued hnext
      subst hchannel
      rw [← List.dropLast_append_getLast? id hlast, List.mem_append,
        List.mem_singleton] at hqueue
      obtain hdropped | hid := hqueue
      · exact absurd hdropped hdrop
      by_cases hlost : fault = .lost
      · subst hlost
        exact .inl (.inl (.inl (of_decide_eq_true hholds)))
      · exact .inr ⟨rfl, Prod.ext rfl hid, hlost, hdrop⟩
    · refine .inl (.inl (.inl ?_))
      rw [popped, Store.perform]
      split
      · simp only [Command.execRedis, if_neg hchannel]
        exact hqueue
      · exact hqueue
  | zset kind =>
    refine .inl (.inl (.inr ⟨kind, ?_⟩))
    rw [popped, Store.perform]
    split <;> exact of_decide_eq_true hholds
  | held index =>
    obtain ⟨thread, hthread, hentry⟩ := (Option.any_eq_true ..).mp hholds
    exact .inl (.inr ⟨index, thread, hthread, by simpa using hentry⟩)

theorem armed_moved {index : Nat} {env : Env} {owner : Owner} {task : Task} {move : Move Task}
    {token : Token} (hthread : system.threads[index]? = some ⟨owner, task⟩)
    (hmove : task.move system.now env system.store = some move)
    (hholds : system.holds entry token = true)
    (hkept : system.forfeits entry token (.advance index env) = false) :
    (system.moved index owner env.fault move).Armed entry := by
  have htoken := TokenMove.of_move hmove
  have hself : (system.moved index owner env.fault move).threads[index]? =
      some ⟨owner, move.next⟩ := by
    obtain ⟨hlt, _⟩ := List.getElem?_eq_some_iff.mp hthread
    simp [moved, hlt]
  have hput (hlands : move.command.lands env.fault = true)
      (hputs : move.command.puts entry = true) :
      (system.moved index owner env.fault move).Armed entry := by
    refine .inl ?_
    change Command.Stored (system.store.perform env.fault move.command).redis entry
    rw [Store.perform, if_pos hlands]
    exact Command.stored_of_puts hputs
  cases token with
  | queued =>
    have hqueue : entry.2 ∈ system.store.redis.queue entry.1 := by simpa [holds] using hholds
    refine .inl (.inl ?_)
    change entry.2 ∈ (system.store.perform env.fault move.command).redis.queue entry.1
    rw [Store.perform]
    split
    · exact Command.mem_queue htoken.not_pop hqueue
    · exact hqueue
  | zset kind =>
    have hzset : entry.2 ∈ system.store.redis.zset kind entry.1 := by
      simpa [holds] using hholds
    have hforfeits : task.forfeits env.fault system.store kind entry.1 entry.2 = false := by
      simpa [forfeits, hthread] using hkept
    by_cases hlands : move.command.lands env.fault = true
    · cases htakes : move.command.takes system.store.redis kind entry.1 entry.2 with
      | true =>
        exact .inr ⟨index, _, hself,
          htoken.held kind entry.1 entry.2 hzset hforfeits hlands htakes⟩
      | false =>
        refine .inl (.inr ⟨kind, ?_⟩)
        change entry.2 ∈ (system.store.perform env.fault move.command).redis.zset kind entry.1
        rw [Store.perform, if_pos hlands]
        exact Command.mem_zset htakes hzset
    · refine .inl (.inr ⟨kind, ?_⟩)
      change entry.2 ∈ (system.store.perform env.fault move.command).redis.zset kind entry.1
      rw [Store.perform, if_neg hlands]
      exact hzset
  | held holder =>
    obtain ⟨thread, hholder, hentry⟩ := (Option.any_eq_true ..).mp hholds
    replace hentry : entry ∈ thread.task.holding := by simpa using hentry
    by_cases heq : holder = index
    · subst heq
      rw [hthread] at hholder
      cases hholder
      have hsecures : task.secures env.fault entry = true := by
        simpa [forfeits, hthread] using hkept
      obtain hnext | ⟨hlands, hputs⟩ := htoken.handed_on entry hentry hsecures
      · exact .inr ⟨holder, _, hself, hnext⟩
      · exact hput hlands hputs
    · refine .inr ⟨holder, thread, ?_, hentry⟩
      simp [moved, Ne.symm heq, hholder]

end System

namespace NoLostJob

variable {system : System}

theorem empty : NoLostJob System.empty := by
  intro id row hrow
  cases hrow

theorem token_of_keepsTokens (hnoLost : NoLostJob system) {action : Action}
    (hkeeps : keepsTokens system action = true) {id : JobId} {row : Job}
    (hrow : system.store.jobs.get id = some row) (hpending : row.status = .pending) :
    ∃ token, system.holds (row.channel, id) token = true ∧
      system.forfeits (row.channel, id) token action = false := by
  have hid : id ∈ system.store.jobs.keys := by
    rw [system.store.jobs.mem_keys, hrow]
    rfl
  have hany := List.all_eq_true.mp hkeeps id hid
  simp only [hrow, Option.all_some, hpending, ne_eq, not_true_eq_false, decide_false,
    Bool.false_or, Bool.or_eq_true, List.isEmpty_iff, List.any_eq_true,
    Bool.not_eq_true'] at hany
  obtain hnone | ⟨token, htoken, hkept⟩ := hany
  · obtain ⟨token, htoken, hholds⟩ := System.token_of_armed (hnoLost id row hrow hpending)
    exact absurd hholds (List.filter_eq_nil_iff.mp hnone token htoken)
  · exact ⟨token, (List.mem_filter.mp htoken).2, hkept⟩

/-- A row that a move leaves pending was pending before, or the thread that
made it pending is about to queue it. -/
theorem pending_moved (hrouted : Routed system) {index : Nat} {env : Env} {owner : Owner}
    {task : Task} {move : Move Task} (hthread : system.threads[index]? = some ⟨owner, task⟩)
    (hmove : task.move system.now env system.store = some move) {id : JobId} {after : Job}
    (hafter : (system.store.perform env.fault move.command).jobs.get id = some after)
    (hpending : after.status = .pending) :
    (∃ row, system.store.jobs.get id = some row ∧ row.status = .pending ∧
      row.channel = after.channel) ∨ (after.channel, id) ∈ move.next.holding := by
  rw [Store.get_perform] at hafter
  split at hafter
  case isFalse => exact .inl ⟨after, hafter, hpending, rfl⟩
  next hlands =>
  have hmentioned := hrouted.mentioned index _ hthread
  cases RowMove.of_move hmove with
  | keeps _ _ hkeeps =>
    obtain ⟨change, honRow, hchange⟩ := Command.onRow_keepsStatus hkeeps id
      (system.store.jobs.get id)
    rw [honRow] at hafter
    obtain ⟨row, hrow, rfl⟩ := Option.map_eq_some_iff.mp hafter
    obtain ⟨hstatus, _, _, hchannel⟩ := hchange row
    exact .inl ⟨row, hrow, hstatus ▸ hpending, hchannel.symm⟩
  | inserts new request asked hfault haccepts =>
    rw [Command.onRow] at hafter
    split at hafter
    next heq =>
      subst heq
      simp only [Store.accepts, Bool.and_eq_true, Option.isNone_iff_eq_none] at haccepts
      rw [haccepts.1] at hafter
      cases hafter
      exact .inr (List.mem_singleton_self _)
    next => exact .inl ⟨after, hafter, hpending, rfl⟩
  | resumes key other existing hfault hget hresume =>
    rw [Command.onRow] at hafter
    split at hafter
    next heq =>
      subst heq
      rw [Store.get_of_getByKey hget] at hafter
      cases hafter
      exact .inr (List.mem_singleton_self _)
    next => exact .inl ⟨after, hafter, hpending, rfl⟩
  | claims delivery job events hfault =>
    rw [Command.onRow] at hafter
    split at hafter
    next =>
      obtain ⟨row, hrow, rfl⟩ := Option.map_eq_some_iff.mp hafter
      rw [Command.claimRow] at hpending
      split at hpending
      next => cases hpending
      next hstatus => exact absurd hpending hstatus
    next => exact .inl ⟨after, hafter, hpending, rfl⟩
  | retries delivery job error hraises =>
    rw [Command.onRow] at hafter
    split at hafter
    next heq =>
      subst heq
      obtain ⟨row, hrow, rfl⟩ := Option.map_eq_some_iff.mp hafter
      have hraised : env.fault.raised = false := by
        cases hfault : env.fault <;> simp_all [Command.lands, Command.isDatabase, Fault.raised]
      obtain ⟨located, hlocated, hchannel⟩ := hmentioned (job.channel, delivery.id) (by
        simp [Task.mentions, DeliverPc.mentions])
      rw [hrow] at hlocated
      cases hlocated
      refine .inr ?_
      simp [hraised, Task.holding, DeliverPc.holding, hchannel]
    next => exact .inl ⟨after, hafter, hpending, rfl⟩
  | resets cutoff lease hfault =>
    rw [Command.onRow] at hafter
    split at hafter
    next heq =>
      subst heq
      obtain ⟨row, hrow, rfl⟩ := Option.map_eq_some_iff.mp hafter
      obtain ⟨located, hlocated, hchannel⟩ := hmentioned (lease.channel, lease.id)
        List.mem_cons_self
      rw [hrow] at hlocated
      cases hlocated
      refine .inr ?_
      have hsame : (Command.resetRow row).channel = lease.channel := by
        rw [Command.resetRow]
        split <;> exact hchannel
      rw [hsame]
      exact List.mem_singleton_self _
    next => exact .inl ⟨after, hafter, hpending, rfl⟩
  | finishes _ other status next write htask hwrite hterminal =>
    rw [Command.onRow] at hafter
    split at hafter
    next =>
      obtain ⟨row, hrow, rfl⟩ := Option.map_eq_some_iff.mp hafter
      rw [Write.apply_status, hwrite, Option.getD_some] at hpending
      rw [hpending] at hterminal
      cases hterminal
    next => exact .inl ⟨after, hafter, hpending, rfl⟩

theorem step (hrouted : Routed system) (hnoLost : NoLostJob system) {action : Action}
    {next : System} (hkeeps : keepsTokens system action = true)
    (hstep : system.step action = some next) : NoLostJob next := by
  have htoken (id : JobId) (row : Job) (hrow : system.store.jobs.get id = some row)
      (hpending : row.status = .pending) :=
    token_of_keepsTokens hnoLost hkeeps hrow hpending
  intro id row hrow hpending
  cases System.step_cases hstep with
  | tick elapsed =>
    obtain ⟨token, hholds, _⟩ := htoken id row hrow hpending
    exact System.armed_of_holds hholds
  | opened _ owner task hopens =>
    obtain ⟨token, hholds, _⟩ := htoken id row hrow hpending
    exact System.armed_spawn (System.armed_of_holds hholds) owner task
  | crashed owner =>
    obtain ⟨token, hholds, hkept⟩ := htoken id row hrow hpending
    exact System.armed_crashed hholds hkept
  | lostPop owner channels fault channel popped hnext hraised =>
    rw [System.jobs_popped] at hrow
    obtain ⟨token, hholds, hkept⟩ := htoken id row hrow hpending
    obtain harmed | ⟨rfl, heq, hlost, hdrop⟩ := System.armed_popped fault hnext hholds
    · exact harmed
    · have hambiguous : fault = .ambiguous := by
        cases fault <;> first | rfl | exact absurd rfl hlost | cases hraised
      rw [heq] at hkept hdrop
      have hforfeits : system.forfeits (channel, popped) .queued
          (.claim owner channels fault) = true := by
        simpa [System.forfeits, hambiguous, hnext] using hdrop
      rw [hforfeits] at hkept
      cases hkept
  | claimed owner channels fault channel popped hnext hraised =>
    change (system.popped fault channel).store.jobs.get id = some row at hrow
    rw [System.jobs_popped] at hrow
    obtain ⟨token, hholds, hkept⟩ := htoken id row hrow hpending
    obtain harmed | ⟨_, heq, _, _⟩ := System.armed_popped fault hnext hholds
    · exact System.armed_spawn harmed owner _
    · refine .inr ⟨system.threads.length, ⟨owner, .deliver ⟨channel, popped, owner⟩ .track⟩, ?_, ?_⟩
      · simp [System.spawn, System.popped]
      · rw [heq]
        exact List.mem_singleton_self _
  | moved index env owner task move hthread hmove =>
    obtain ⟨before, hbefore, hstatus, hchannel⟩ | hheld :=
      pending_moved hrouted hthread hmove hrow hpending
    · obtain ⟨token, hholds, hkept⟩ := htoken id before hbefore hstatus
      rw [← hchannel]
      exact System.armed_moved hthread hmove hholds hkept
    · refine .inr ⟨index, ⟨owner, move.next⟩, ?_, hheld⟩
      obtain ⟨hlt, _⟩ := List.getElem?_eq_some_iff.mp hthread
      simp [System.moved, hlt]

end NoLostJob

/-- No job is lost in a run none of whose steps forfeits the last tokens of a
pending job. -/
theorem noLostJob_of_keepsTokens (actions : List Action)
    (hkeeps : EachStep System.step (fun system action _ => keepsTokens system action)
      System.empty actions) :
    Always System.step NoLostJob System.empty actions := by
  have hinvariant : Always System.step (fun system => Routed system ∧ NoLostJob system)
      System.empty actions := by
    refine always_of_eachStep ?_ ⟨Routed.empty, NoLostJob.empty⟩ hkeeps
    intro system action next hboth hkeeps hstep
    exact ⟨hboth.1.step hstep, NoLostJob.step hboth.1 hboth.2 hkeeps hstep⟩
  exact hinvariant.imp fun _ hboth => hboth.2

/-- The reclaimed job is queued, tracked, returned by the reaper and claimed
again without ever losing its last token. -/
theorem noLostJob_reclaimed : Always System.step NoLostJob System.empty reclaimed :=
  noLostJob_of_keepsTokens _ (by decide)

/-- The engine dies after BRPOP returned the id and before the ZADD. -/
def crashedAfterPop : List Action :=
  [.publish "api" 1 retriedTwice] ++ steps 0 2 ++
  [.claim "a-engine" ["default"] .none, .crash "a-engine"]

/-- The job stays pending, and its id is nowhere. -/
theorem not_noLostJob_crashedAfterPop :
    ¬ Always System.step NoLostJob System.empty crashedAfterPop := by
  refine not_always_of_run (fun system => (system.store.jobs.get 1).all fun row =>
    row.status ≠ .pending ||
      system.tokens.any fun token => system.holds (row.channel, 1) token) ?_ (by decide)
  intro system hnoLost
  simp only [Option.all_eq_true, Bool.or_eq_true, decide_eq_true_eq, List.any_eq_true]
  intro row hrow
  by_cases hpending : row.status = .pending
  · exact .inr (System.token_of_armed (hnoLost 1 row hrow hpending))
  · exact .inl hpending

end DjangoMojo.Jobs
