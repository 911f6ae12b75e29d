import DjangoMojo.Jobs.Attempts

/-! # The execution fence

The compare-and-set claim hands out each attempt number once, but the handler
is started on the row as `refresh_from_db` reads it later. The numbers of the
starts increase as long as every delivery that starts the handler still owns
the newest claim of its row.
-/

namespace DjangoMojo.Jobs

open Foundation

/-- The successive starts of every job have increasing attempt numbers. -/
def StartsIncrease (system : System) : Prop :=
  ∀ id, (starts system.log id).Pairwise (· > ·)

/-- A step that starts a handler is taken by the delivery with the newest claim
of the row. -/
def startsOnOwnClaim (system : System) : Action → Bool
  | .advance index env =>
    match system.threads[index]? with
    | some ⟨_, .deliver delivery (.begin _)⟩ =>
      env.raises || lastClaim system.log delivery.id = some index
    | _ => true
  | _ => true

/-- No start has a number above the attempt column, none has reached it while
the newest claim waits for its start, and that claim's delivery starts with
the number in the column. -/
structure Fenced (system : System) : Prop where
  started_le : ∀ id, ∀ attempt ∈ starts system.log id, attempt ≤ system.store.attempt id
  started_lt : ∀ index thread id, system.threads[index]? = some thread →
    thread.task.awaiting = some id → lastClaim system.log id = some index →
    ∀ attempt ∈ starts system.log id, attempt < system.store.attempt id
  loaded : ∀ index owner delivery job,
    system.threads[index]? = some ⟨owner, .deliver delivery (.begin job)⟩ →
    lastClaim system.log delivery.id = some index →
    job.attempt = system.store.attempt delivery.id
  increase : StartsIncrease system

namespace Fenced

theorem empty : Fenced System.empty :=
  ⟨by simp [System.empty, starts], by simp [System.empty], by simp [System.empty],
    by simp [StartsIncrease, System.empty, starts]⟩

/-- A step that neither claims nor starts keeps the fence: the deliveries
waiting for their start are among those that waited before. -/
theorem frame {system next : System} (hfenced : Fenced system)
    (hattempt : ∀ id, next.store.attempt id = system.store.attempt id)
    (hstarts : ∀ id, starts next.log id = starts system.log id)
    (hclaims : ∀ id, lastClaim next.log id = lastClaim system.log id)
    (hthreads : ∀ (index : Nat) (thread : Thread), next.threads[index]? = some thread →
      thread.task.awaiting = none ∨ system.threads[index]? = some thread) : Fenced next where
  started_le id attempt hstarted := by
    rw [hattempt]
    exact hfenced.started_le id attempt (hstarts id ▸ hstarted)
  started_lt index thread id hthread hawaits hclaim attempt hstarted := by
    rw [hattempt]
    obtain hnone | hold := hthreads index thread hthread
    · rw [hnone] at hawaits
      cases hawaits
    · exact hfenced.started_lt index thread id hold hawaits (hclaims id ▸ hclaim) attempt
        (hstarts id ▸ hstarted)
  loaded index owner delivery job hthread hclaim := by
    rw [hattempt]
    obtain hnone | hold := hthreads index _ hthread
    · cases hnone
    · exact hfenced.loaded index owner delivery job hold (hclaims delivery.id ▸ hclaim)
  increase id := hstarts id ▸ hfenced.increase id

variable {system : System}

theorem spawned (hfenced : Fenced system) {owner : Owner} {task : Task}
    (hawaits : task.awaiting = none) : Fenced (system.spawn owner task) := by
  refine hfenced.frame (fun _ => rfl) (fun _ => rfl) (fun _ => rfl) ?_
  intro index thread hthread
  obtain hold | ⟨_, rfl⟩ := System.thread_spawn hthread
  · exact .inr hold
  · exact .inl hawaits

theorem popped (hfenced : Fenced system) (fault : Fault) (channel : Channel) :
    Fenced (system.popped fault channel) :=
  hfenced.frame (fun id => system.store.attempt_perform fault rfl id) (fun _ => rfl)
    (fun _ => rfl) (fun _ _ hthread => .inr hthread)

theorem crashed (hfenced : Fenced system) (owner : Owner) : Fenced (system.crashed owner) := by
  refine hfenced.frame (fun _ => rfl) (fun _ => rfl) (fun _ => rfl) ?_
  intro index thread hthread
  obtain hdead | ⟨_, hold⟩ := System.thread_crashed hthread
  · exact .inl (by rw [hdead]; rfl)
  · exact .inr hold

theorem quiet (hfenced : Fenced system) {index : Nat} {owner : Owner} {fault : Fault}
    {move : Move Task} (hnext : move.next.awaiting = none)
    (hevents : ∀ event ∈ move.events, event.isQuiet = true)
    (hcommand : move.command.keepsAttempt = true) :
    Fenced (system.moved index owner fault move) := by
  refine hfenced.frame (fun id => system.store.attempt_perform fault hcommand id)
    (starts_append_quiet hevents index system.log)
    (lastClaim_append_quiet hevents index system.log) ?_
  intro other thread hthread
  obtain ⟨_, rfl⟩ | ⟨_, hold⟩ := System.thread_moved hthread
  · exact .inl hnext
  · exact .inr hold

/-- The claim raises the column above every start, so the deliveries that lose
the newest claim and the one that wins it are both in order. -/
theorem claims (hfenced : Fenced system) {index : Nat} {owner : Owner} {delivery : Delivery}
    {job row : Job} (hrow : system.store.jobs.get delivery.id = some row)
    (hpending : row.status = .pending) :
    Fenced (system.moved index owner .none
      ⟨.deliver delivery (.refresh job), .claim delivery.id system.now delivery.runner,
        [.claimed delivery.id]⟩) := by
  have hattempt := Store.attempt_claim system.now delivery.runner hrow hpending
  constructor
  · intro id attempt hstarted
    have hle := hfenced.started_le id attempt hstarted
    change attempt ≤ Store.attempt (system.store.perform .none _) id
    rw [hattempt]
    split <;> omega
  · intro other thread id hthread hawaits hclaim attempt hstarted
    change lastClaim ((index, .claimed delivery.id) :: system.log) id = some other at hclaim
    change attempt < Store.attempt (system.store.perform .none _) id
    rw [lastClaim_claimed] at hclaim
    rw [hattempt]
    by_cases heq : id = delivery.id
    · have hle := hfenced.started_le id attempt hstarted
      rw [if_pos heq]
      omega
    · rw [if_neg (Ne.symm heq)] at hclaim
      rw [if_neg heq]
      obtain ⟨_, rfl⟩ | ⟨_, hold⟩ := System.thread_moved hthread
      · exact absurd (Option.some.inj hawaits).symm heq
      · exact hfenced.started_lt other thread id hold hawaits hclaim attempt hstarted
  · intro other opener loading loaded hthread hclaim
    change lastClaim ((index, .claimed delivery.id) :: system.log) loading.id = some other
      at hclaim
    change loaded.attempt = Store.attempt (system.store.perform .none _) loading.id
    rw [lastClaim_claimed] at hclaim
    rw [hattempt]
    obtain ⟨_, hnext⟩ | ⟨hne, hold⟩ := System.thread_moved hthread
    · cases hnext
    · by_cases heq : loading.id = delivery.id
      · rw [if_pos heq.symm] at hclaim
        exact absurd (Option.some.inj hclaim).symm hne
      · rw [if_neg (Ne.symm heq)] at hclaim
        rw [if_neg heq]
        exact hfenced.loaded other opener loading loaded hold hclaim
  · exact hfenced.increase

theorem refreshes (hfenced : Fenced system) {index : Nat} {owner : Owner}
    {delivery : Delivery} {job row : Job} {fault : Fault}
    (hthread : system.threads[index]? = some ⟨owner, .deliver delivery (.refresh job)⟩)
    (hrow : system.store.jobs.get delivery.id = some row) :
    Fenced (system.moved index owner fault ⟨.deliver delivery (.begin row), .read, []⟩) := by
  have hattempt (id : JobId) : Store.attempt (system.store.perform fault .read) id =
      system.store.attempt id := system.store.attempt_perform fault rfl id
  constructor
  · intro id attempt hstarted
    change attempt ≤ Store.attempt (system.store.perform fault .read) id
    rw [hattempt]
    exact hfenced.started_le id attempt hstarted
  · intro other thread id hnext hawaits hclaim attempt hstarted
    change attempt < Store.attempt (system.store.perform fault .read) id
    rw [hattempt]
    obtain ⟨rfl, rfl⟩ | ⟨_, hold⟩ := System.thread_moved hnext
    · exact hfenced.started_lt other _ id hthread hawaits hclaim attempt hstarted
    · exact hfenced.started_lt other thread id hold hawaits hclaim attempt hstarted
  · intro other opener loading loaded hnext hclaim
    change loaded.attempt = Store.attempt (system.store.perform fault .read) loading.id
    rw [hattempt]
    obtain ⟨_, hsame⟩ | ⟨_, hold⟩ := System.thread_moved hnext
    · cases hsame
      simp [Store.attempt, hrow]
    · exact hfenced.loaded other opener loading loaded hold hclaim
  · exact hfenced.increase

/-- A start on the newest claim takes the number in the column, which no start
has reached. -/
theorem starts (hfenced : Fenced system) {index : Nat} {owner : Owner}
    {delivery : Delivery} {job : Job} {fault : Fault}
    (hthread : system.threads[index]? = some ⟨owner, .deliver delivery (.begin job)⟩)
    (hclaim : lastClaim system.log delivery.id = some index) :
    Fenced (system.moved index owner fault
      ⟨.deliver delivery (.running job), .read, [.started delivery.id job.attempt]⟩) := by
  have hattempt (id : JobId) : Store.attempt (system.store.perform fault .read) id =
      system.store.attempt id := system.store.attempt_perform fault rfl id
  have hloaded := hfenced.loaded index owner delivery job hthread hclaim
  have hbelow := hfenced.started_lt index _ delivery.id hthread rfl hclaim
  constructor
  · intro id attempt hstarted
    change attempt ∈ Jobs.starts ((index, .started delivery.id job.attempt) :: system.log) id
      at hstarted
    change attempt ≤ Store.attempt (system.store.perform fault .read) id
    rw [hattempt]
    rw [starts_started] at hstarted
    split at hstarted
    next heq =>
      subst heq
      obtain rfl | hold := List.mem_cons.mp hstarted
      · exact le_of_eq hloaded
      · exact hfenced.started_le _ attempt hold
    next => exact hfenced.started_le id attempt hstarted
  · intro other thread id hnext hawaits hother attempt hstarted
    change attempt ∈ Jobs.starts ((index, .started delivery.id job.attempt) :: system.log) id
      at hstarted
    change attempt < Store.attempt (system.store.perform fault .read) id
    change lastClaim ((index, .started delivery.id job.attempt) :: system.log) id = some other
      at hother
    rw [lastClaim_started] at hother
    rw [starts_started] at hstarted
    rw [hattempt]
    obtain ⟨_, rfl⟩ | ⟨hne, hold⟩ := System.thread_moved hnext
    · cases hawaits
    · split at hstarted
      next heq =>
        subst heq
        rw [hclaim] at hother
        exact absurd (Option.some.inj hother).symm hne
      next => exact hfenced.started_lt other thread id hold hawaits hother attempt hstarted
  · intro other opener loading loaded hnext hother
    change lastClaim ((index, .started delivery.id job.attempt) :: system.log) loading.id =
      some other at hother
    change loaded.attempt = Store.attempt (system.store.perform fault .read) loading.id
    rw [lastClaim_started] at hother
    rw [hattempt]
    obtain ⟨_, hsame⟩ | ⟨_, hold⟩ := System.thread_moved hnext
    · cases hsame
    · exact hfenced.loaded other opener loading loaded hold hother
  · intro id
    change (Jobs.starts ((index, .started delivery.id job.attempt) :: system.log) id).Pairwise _
    rw [starts_started]
    split
    next heq =>
      subst heq
      refine List.pairwise_cons.mpr ⟨?_, hfenced.increase _⟩
      intro attempt hstarted
      rw [gt_iff_lt, hloaded]
      exact hbelow attempt hstarted
    next => exact hfenced.increase id

theorem step {action : Action} {next : System} (hfenced : Fenced system)
    (hown : startsOnOwnClaim system action = true)
    (hstep : system.step action = some next) : Fenced next := by
  cases System.step_cases hstep with
  | tick elapsed =>
    exact hfenced.frame (fun _ => rfl) (fun _ => rfl) (fun _ => rfl)
      (fun _ _ hthread => .inr hthread)
  | opened _ owner task hopens => exact hfenced.spawned (System.opens_awaiting hopens)
  | lostPop _ _ fault channel => exact hfenced.popped fault channel
  | claimed owner _ fault channel id => exact (hfenced.popped fault channel).spawned rfl
  | crashed owner => exact hfenced.crashed owner
  | moved index env owner task move hthread hmove =>
    cases hcase : AttemptMove.of_move hmove with
    | quiet _ _ hnext hevents hcommand => exact hfenced.quiet hnext hevents hcommand
    | claims delivery job row hrow hpending hfault =>
      rw [hfault]
      exact hfenced.claims hrow hpending
    | refreshes delivery job row hrow => exact hfenced.refreshes hthread hrow
    | starts delivery job hraises =>
      simp only [startsOnOwnClaim, hthread, hraises, Bool.false_or,
        decide_eq_true_eq] at hown
      exact hfenced.starts hthread hown

end Fenced

/-- The numbers of successive starts increase along every run in which each
handler is started by the delivery that still owns the newest claim. -/
theorem startsIncrease_of_startsOnOwnClaim (actions : List Action)
    (hown : EachStep System.step (fun system action _ => startsOnOwnClaim system action)
      System.empty actions) :
    Always System.step StartsIncrease System.empty actions :=
  Always.imp (fun _ hfenced => hfenced.increase)
    (always_of_eachStep (fun _ _ _ hfenced hown hstep => hfenced.step hown hstep)
      Fenced.empty hown)

theorem startsIncrease_reclaimed :
    Always System.step StartsIncrease System.empty (reclaimed ++ steps 3 2) :=
  startsIncrease_of_startsOnOwnClaim _ (by decide)

/-- Both deliveries of the reclaimed job refresh the row after the second
claim, and both start the handler with attempt 2. -/
theorem not_startsIncrease_staleRefresh :
    ¬ Always System.step StartsIncrease System.empty
      (reclaimed ++ steps 3 2 ++ steps 1 2) :=
  not_always_of_run (fun system => decide ((starts system.log 1).Pairwise (· > ·)))
    (fun _ hincrease => decide_eq_true (hincrease 1)) (by decide)

end DjangoMojo.Jobs
