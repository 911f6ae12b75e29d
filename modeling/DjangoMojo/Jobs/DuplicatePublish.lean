import DjangoMojo.Jobs.RowWrites

/-! # Publishing twice under one key

A call that finds a pending row under its idempotency key mirrors that row
again, and marks it failed when the mirror raises. Each row is created by one
call, so the failure is harmless exactly when the failing call created the row
itself, or the call that created it has not queued it.
-/

namespace DjangoMojo.Jobs

open Foundation

def creatorOf (log : List (Nat × Event)) (id : JobId) : Option Nat :=
  (log.find? fun entry => entry.2 = .created id).map Prod.fst

/-- The failing step of a publish call leaves the status of every row alone
that another call created and queued. -/
def FailureHarmless (system : System) (action : Action) (next : System) : Prop :=
  ∀ index env owner failing error, action = .advance index env →
    system.threads[index]? = some ⟨owner, .publish (.markFailed failing error)⟩ →
    ∀ id creator, creator ≠ index → (creator, .created id) ∈ system.log →
      (creator, .queued id) ∈ system.log →
      (next.store.jobs.get id).map Job.status = (system.store.jobs.get id).map Job.status

/-- A row marked failed was inserted by the failing call, or has not been queued
by the call that inserted it, or is failed already. -/
def failsUnqueuedRow (system : System) : Action → Bool
  | .advance index env =>
    match system.threads[index]? with
    | some ⟨_, .publish (.markFailed id _)⟩ =>
      env.fault.raised ||
        ((creatorOf system.log id).all fun creator =>
          creator = index || (creator, .queued id) ∉ system.log) ||
        (system.store.jobs.get id).all fun row => row.status = .failed
    | _ => true
  | _ => true

structure CreatedOnce (system : System) : Prop where
  exists_row : ∀ creator id, (creator, .created id) ∈ system.log →
    (system.store.jobs.get id).isSome = true
  unique : ∀ creator other id, (creator, .created id) ∈ system.log →
    (other, .created id) ∈ system.log → creator = other

theorem creatorOf_eq_some {system : System} (honce : CreatedOnce system) {creator : Nat}
    {id : JobId} :
    creatorOf system.log id = some creator ↔ (creator, .created id) ∈ system.log := by
  rw [creatorOf, Option.map_eq_some_iff]
  constructor
  · rintro ⟨⟨found, event⟩, hfind, rfl⟩
    have hevent : event = .created id := by simpa using List.find?_some hfind
    exact hevent ▸ List.mem_of_find?_eq_some hfind
  · intro hmem
    have hsome : (system.log.find? fun entry => entry.2 = .created id).isSome :=
      List.find?_isSome.mpr ⟨_, hmem, by simp⟩
    obtain ⟨⟨found, event⟩, hfind⟩ := Option.isSome_iff_exists.mp hsome
    have hevent : event = .created id := by simpa using List.find?_some hfind
    subst hevent
    exact ⟨_, hfind, honce.unique found creator id (List.mem_of_find?_eq_some hfind) hmem⟩

theorem PublishPc.inserts_of_created {now : Time} {env : Env} {store : Store} {pc : PublishPc}
    {move : Move PublishPc} (hmove : pc.move now env store = some move) {id : JobId}
    (hcreated : .created id ∈ move.events) :
    ∃ job, store.accepts id job = true ∧ move.command = .insert id job ∧ env.fault = .none := by
  cases pc with
  | insert other request asked =>
    simp only [PublishPc.move] at hmove
    split at hmove
    · cases hmove
      simp at hcreated
    split at hmove
    next hraised haccepts =>
      cases hmove
      cases List.mem_singleton.mp hcreated
      exact ⟨request.job, haccepts, rfl, Fault.eq_none_of_not_raised hraised⟩
    next =>
      repeat' split at hmove
      all_goals cases hmove; simp at hcreated
  | returned | raised => cases hmove
  | _ =>
    simp only [PublishPc.move] at hmove
    repeat' split at hmove
    all_goals cases hmove; simp at hcreated

theorem Task.inserts_of_created {now : Time} {env : Env} {store : Store} {task : Task}
    {move : Move Task} (hmove : task.move now env store = some move) {id : JobId}
    (hcreated : .created id ∈ move.events) :
    ∃ job, store.accepts id job = true ∧ move.command = .insert id job ∧ env.fault = .none := by
  revert hcreated
  refine Task.move_cases (motive := fun _ move => .created id ∈ move.events →
    ∃ job, store.accepts id job = true ∧ move.command = .insert id job ∧ env.fault = .none)
    (fun _ _ hpc => PublishPc.inserts_of_created hpc) ?_ ?_ ?_ ?_ (by simp) hmove
  · intro delivery pc move
    fun_cases DeliverPc.move now env store delivery pc <;> rintro ⟨⟩ <;> simp
  · intro cutoff pc move
    fun_cases ReapPc.move now env store cutoff pc <;> rintro ⟨⟩ <;> simp
  · intro moment pc move
    fun_cases SchedulePc.move env store moment pc <;> rintro ⟨⟩ <;> simp
  · intro pc move
    fun_cases CancelPc.move now env store pc <;> rintro ⟨⟩ <;> simp

namespace CreatedOnce

variable {system : System}

theorem empty : CreatedOnce System.empty := ⟨by simp [System.empty], by simp [System.empty]⟩

theorem isSome_perform (store : Store) (fault : Fault) (command : Command) {id : JobId}
    (hrow : (store.jobs.get id).isSome = true) :
    ((store.perform fault command).jobs.get id).isSome = true := by
  rw [Store.get_perform]
  split
  · exact command.onRow_isSome id hrow
  · exact hrow

theorem moved (honce : CreatedOnce system) {index : Nat} {env : Env} {owner : Owner} {task : Task}
    {move : Move Task} (hmove : task.move system.now env system.store = some move) :
    CreatedOnce (system.moved index owner env.fault move) := by
  have hlog (creator : Nat) (id : JobId)
      (hmem : (creator, .created id) ∈ (system.moved index owner env.fault move).log) :
      creator = index ∧ .created id ∈ move.events ∨ (creator, .created id) ∈ system.log := by
    obtain hnew | hold := List.mem_append.mp hmem
    · obtain ⟨event, hevent, heq⟩ := List.mem_map.mp hnew
      cases heq
      exact .inl ⟨rfl, hevent⟩
    · exact .inr hold
  have habsent (creator : Nat) (id : JobId) (hnew : .created id ∈ move.events) :
      (creator, .created id) ∉ system.log := by
    obtain ⟨job, haccepts, _, _⟩ := Task.inserts_of_created hmove hnew
    intro hold
    have hsome := honce.exists_row creator id hold
    simp only [Store.accepts, Bool.and_eq_true, Option.isNone_iff_eq_none] at haccepts
    rw [haccepts.1] at hsome
    cases hsome
  constructor
  · intro creator id hmem
    change ((system.store.perform env.fault move.command).jobs.get id).isSome = true
    obtain ⟨_, hnew⟩ | hold := hlog creator id hmem
    · obtain ⟨job, _, hcommand, hfault⟩ := Task.inserts_of_created hmove hnew
      rw [Store.get_perform, hcommand, hfault, if_pos (Command.lands_none _), Command.onRow,
        if_pos rfl]
      rfl
    · exact isSome_perform _ _ _ (honce.exists_row creator id hold)
  · intro creator other id hcreator hother
    obtain ⟨hcreator, hnew⟩ | hcreator := hlog creator id hcreator
    · obtain ⟨hother, _⟩ | hother := hlog other id hother
      · rw [hcreator, hother]
      · exact absurd hother (habsent other id hnew)
    · obtain ⟨_, hnew⟩ | hother := hlog other id hother
      · exact absurd hcreator (habsent creator id hnew)
      · exact honce.unique creator other id hcreator hother

theorem step (honce : CreatedOnce system) {action : Action} {next : System}
    (hstep : system.step action = some next) : CreatedOnce next := by
  cases System.step_cases hstep with
  | tick | opened | crashed => exact ⟨honce.exists_row, honce.unique⟩
  | lostPop _ _ fault | claimed _ _ fault =>
    exact ⟨fun creator id hmem => isSome_perform _ fault _ (honce.exists_row creator id hmem),
      honce.unique⟩
  | moved index env owner task move hthread hmove => exact honce.moved hmove

end CreatedOnce

/-- In every run a publish call that reports a row as its own has inserted it, no other call
reports the same row, and the row is still there. -/
theorem createdOnce_always (actions : List Action) :
    Always System.step CreatedOnce System.empty actions :=
  always_of_inductive (fun _ _ _ honce hstep => honce.step hstep) CreatedOnce.empty actions

/-- The write of a failing call changes the status of a row exactly when the row
is not failed yet, so it is harmless exactly when that row is not queued by
another creator. -/
theorem markFailed_iff {system : System} (honce : CreatedOnce system) {index : Nat} {env : Env}
    {owner : Owner} {failing : JobId} {error : String} {next : Task}
    (hthread : system.threads[index]? = some ⟨owner, .publish (.markFailed failing error)⟩) :
    FailureHarmless system (.advance index env)
        (system.moved index owner env.fault ⟨next, .save failing (.failedToQueue error), []⟩) ↔
      failsUnqueuedRow system (.advance index env) = true := by
  have hafter := system.store.status_save env.fault failing
    (show (Write.failedToQueue error).status? = some .failed from rfl)
  simp only [failsUnqueuedRow, hthread, Bool.or_eq_true, Option.all_eq_true, decide_eq_true_eq]
  constructor
  · intro hharmless
    by_cases hraised : env.fault.raised = true
    · exact .inl (.inl hraised)
    by_cases howner : ∀ creator, creatorOf system.log failing = some creator →
        creator = index ∨ (creator, .queued failing) ∉ system.log
    · exact .inl (.inr howner)
    push Not at howner
    obtain ⟨creator, hcreator, hne, hqueued⟩ := howner
    have hstatus := hharmless index env owner failing error rfl hthread failing creator hne
      ((creatorOf_eq_some honce).mp hcreator) hqueued
    refine .inr fun row hrow => ?_
    change ((system.store.perform env.fault _).jobs.get failing).map Job.status = _ at hstatus
    rw [hafter, if_pos ⟨by simpa using hraised, rfl⟩, hrow] at hstatus
    exact (Option.some.inj hstatus).symm
  · intro hcondition other otherEnv otherOwner otherFailing otherError haction hother id creator
      hne hcreated hqueued
    cases haction
    rw [hthread] at hother
    cases hother
    change ((system.store.perform env.fault _).jobs.get id).map Job.status = _
    rw [hafter]
    split
    case isFalse => rfl
    next hsaved =>
    obtain ⟨hraised, rfl⟩ := hsaved
    obtain (hfault | howner) | hfailed := hcondition
    · rw [hraised] at hfault
      cases hfault
    · obtain hsame | hunqueued := howner creator ((creatorOf_eq_some honce).mpr hcreated)
      · exact absurd hsame hne
      · exact absurd hqueued hunqueued
    · cases hrow : system.store.jobs.get id with
      | none => rfl
      | some row => simp [hfailed row hrow]

theorem failureHarmless_step_iff {system next : System} {action : Action}
    (honce : CreatedOnce system) (hstep : system.step action = some next) :
    FailureHarmless system action next ↔ failsUnqueuedRow system action = true := by
  cases System.step_cases hstep with
  | tick | lostPop | claimed | crashed =>
    exact iff_of_true (fun _ _ _ _ _ haction => by cases haction) rfl
  | opened action owner task hopens =>
    cases action with
    | advance => cases hopens
    | _ => exact iff_of_true (fun _ _ _ _ _ haction => by cases haction) rfl
  | moved index env owner task move hthread hmove =>
    by_cases hfailing : ∃ failing error, task = .publish (.markFailed failing error)
    · obtain ⟨failing, error, rfl⟩ := hfailing
      cases hmove
      exact markFailed_iff honce hthread
    · refine iff_of_true ?_ ?_
      · intro other otherEnv otherOwner failing error haction hother
        cases haction
        rw [hthread] at hother
        cases hother
        exact absurd ⟨failing, error, rfl⟩ hfailing
      · simp only [failsUnqueuedRow, hthread]
        split
        next heq =>
          cases heq
          exact absurd ⟨_, _, rfl⟩ hfailing
        next => rfl

/-- A second call with the key of a queued job finds the pending row, cannot
reach Redis and marks the row failed. -/
def unreachableDuplicate : List Action :=
  [.publish "api" 1 { retriedTwice with idempotencyKey := some "welcome-7" }] ++ steps 0 2 ++
  [.publish "web" 2 { retriedTwice with idempotencyKey := some "welcome-7" }] ++ steps 1 3 ++
  [.advance 1 { fault := .lost }, .advance 1 {}]

end DjangoMojo.Jobs
