import DjangoMojo.Cases.Dispatch

/-! # No promoted case loses its handlers

A case whose dispatch is confirmed has the handlers of its latest Event published. The marker
does not name the Event it confirms, so this holds of the runs in which every confirmation
comes while its Event is still the latest, and in which the sweep dispatches with the urgency
of the projection it reads.
-/

namespace DjangoMojo.Cases

open Foundation

namespace Dispatcher

variable (jobs : Jobs)

/-! ### What is promised, and when -/

def HasJob (state : Dispatcher) (event : ProjectedEvent) (entry : Nat × String) : Prop :=
  ∃ job ∈ state.jobs, job.event = event.id ∧ job.index = entry.1 ∧ job.spec = entry.2

def IsPublished (state : Dispatcher) (event : ProjectedEvent) : Prop :=
  event.publication.shouldDispatch = false ∨
    ∀ entry ∈ jobs.chain event.publication.handler, state.HasJob event entry

/-- A confirmed case has the handlers of its latest Event published, unless the Event is pruned;
and a handler of an Event is published under one key. -/
structure HandlersKept (state : Dispatcher) : Prop where
  published : ∀ case row, state.db.cases.get case = some row →
    row.projectionDispatchedAt.isSome → ∀ transition, state.latestProjection case = some transition →
    ∀ event, state.eventOf transition = some event → state.IsPublished jobs event
  one_key : ∀ first ∈ state.log, ∀ second ∈ state.log, first.event = second.event →
    first.index = second.index → first.key = second.key

/-- A confirmation comes while its Event is still the one of the latest projection, and a case
that the sweep has loaded has the urgency of the projection that the sweep reads. -/
def IsTimely (state : Dispatcher) (action : DispatchAction) (_ : Dispatcher) : Bool :=
  match action with
  | .thread number (.confirm _) =>
    match state.threads[number]? with
    | some (.confirming case event) =>
      (state.latestProjection case).all fun transition => transition.projectedEvent = some event
    | _ => true
  | .thread number .read =>
    match state.threads[number]? with
    | some (.redispatching case urgency) =>
      (state.latestProjection case).all fun transition => transition.toUrgency = urgency
    | _ => true
  | _ => true

/-! ### What the threads and the tables keep -/

def keyOf (event : ProjectedEvent) (entry : Nat × String) : JobKey :=
  ⟨event.case, event.urgency, entry.1, jobs.digest entry.2⟩

def ThreadSound (state : Dispatcher) : Thread → Prop
  | .dispatching case urgency event rest _ =>
    event ∈ state.db.events ∧ event.case = case ∧ event.urgency = urgency ∧
    ∃ before, jobs.chain event.publication.handler = before ++ rest ∧
      ∀ entry ∈ before, state.HasJob event entry
  | .confirming _ id => ∃ event ∈ state.db.events, event.id = id ∧
      (id ∈ state.pruned ∨ state.IsPublished jobs event)
  | .redispatching .. => True

structure Sound (state : Dispatcher) : Prop where
  ids : (state.db.events.map ProjectedEvent.id) = List.range' 1 state.db.events.length
  cases : ∀ event ∈ state.db.events, ∃ row, state.db.cases.get event.case = some row ∧
    event.urgency.rank ≤ projectedRank row.projectedUrgency
  unique : ∀ first ∈ state.db.events, ∀ second ∈ state.db.events, first.case = second.case →
    first.urgency = second.urgency → first = second
  transitions : ∀ transition ∈ state.db.transitions.filter Database.isProjection,
    ∃ event ∈ state.db.events, transition.projectedEvent = some event.id ∧
      event.case = transition.case ∧ event.urgency = transition.toUrgency
  queued : ∀ job ∈ state.jobs, ∃ event ∈ state.db.events, job.event = event.id ∧
    (job.index, job.spec) ∈ jobs.chain event.publication.handler ∧
    job.key = keyOf jobs event (job.index, job.spec)
  log : ∀ call ∈ state.log, ∃ event ∈ state.db.events, ∃ spec, call.event = event.id ∧
    (call.index, spec) ∈ jobs.chain event.publication.handler ∧
    call.key = keyOf jobs event (call.index, spec)
  threads : ∀ thread ∈ state.threads, ThreadSound jobs state thread
  marker : ∀ case row, state.db.cases.get case = some row → row.projectionDispatchedAt.isSome →
    ∀ transition, state.latestProjection case = some transition →
      ∃ event ∈ state.db.events, transition.projectedEvent = some event.id ∧
        (event.id ∈ state.pruned ∨ state.IsPublished jobs event)

variable {jobs} {state next : Dispatcher}

theorem chain_index {handler : String} {index : Nat} {first second : String}
    (hfirst : (index, first) ∈ jobs.chain handler)
    (hsecond : (index, second) ∈ jobs.chain handler) : first = second := by
  unfold Jobs.chain at hfirst hsecond
  dsimp only at hfirst hsecond
  have hspec : ∀ {specs : List (List Char)} {text : String},
      (index, text) ∈ specs.zipIdx.filterMap (fun entry =>
        if urlScheme entry.1 ∈ handlerSchemes then some (entry.2, String.ofList entry.1) else none) →
      ∃ spec, specs[index]? = some spec ∧ String.ofList spec = text := by
    intro specs text hmem
    obtain ⟨⟨spec, place⟩, hentry, heq⟩ := List.mem_filterMap.mp hmem
    dsimp only at heq
    split at heq
    · cases heq
      exact ⟨spec, List.mk_mem_zipIdx_iff_getElem?.mp hentry, rfl⟩
    · cases heq
  obtain ⟨spec, hget, rfl⟩ := hspec hfirst
  obtain ⟨other, hother, rfl⟩ := hspec hsecond
  cases hget.symm.trans hother
  rfl


structure Grows (state next : Dispatcher) : Prop where
  events : ∀ event ∈ state.db.events, event ∈ next.db.events
  jobs : ∀ job ∈ state.jobs, job ∈ next.jobs
  pruned : ∀ event ∈ state.pruned, event ∈ next.pruned

namespace Grows

variable {event : ProjectedEvent} {entry : Nat × String}

theorem hasJob (hgrows : Grows state next) (hjob : state.HasJob event entry) :
    next.HasJob event entry := by
  obtain ⟨job, hmem, hfields⟩ := hjob
  exact ⟨job, hgrows.jobs job hmem, hfields⟩

theorem isPublished (hgrows : Grows state next) (hpublished : state.IsPublished jobs event) :
    next.IsPublished jobs event :=
  hpublished.imp_right fun hall entry hentry => hgrows.hasJob (hall entry hentry)

theorem threadSound (hgrows : Grows state next) {thread : Thread}
    (hthread : ThreadSound jobs state thread) : ThreadSound jobs next thread := by
  cases thread with
  | dispatching case urgency event rest published =>
    obtain ⟨hevent, hcase, hurgency, before, hchain, hdone⟩ := hthread
    exact ⟨hgrows.events event hevent, hcase, hurgency, before, hchain,
      fun entry hentry => hgrows.hasJob (hdone entry hentry)⟩
  | confirming case id =>
    obtain ⟨event, hevent, hid, hdone⟩ := hthread
    exact ⟨event, hgrows.events event hevent, hid,
      hdone.imp (hgrows.pruned id) hgrows.isPublished⟩
  | redispatching => trivial

end Grows

namespace Sound

theorem start (receipts : Table Nat ReceiptRow) : Sound jobs (Dispatcher.start receipts) where
  ids := rfl
  cases := by
    intro event hevent
    cases hevent
  unique := by
    intro first hfirst
    cases hfirst
  transitions := by
    intro transition htransition
    cases htransition
  queued := by
    intro job hjob
    cases hjob
  log := by
    intro call hcall
    cases hcall
  threads := by
    intro thread hthread
    cases hthread
  marker := by
    intro case row hrow
    cases hrow

theorem event_ext (hsound : Sound jobs state) {first second : ProjectedEvent}
    (hfirst : first ∈ state.db.events) (hsecond : second ∈ state.db.events)
    (hid : first.id = second.id) : first = second := by
  have hnodup : (state.db.events.map ProjectedEvent.id).Nodup := by
    rw [hsound.ids]
    exact List.nodup_range'
  exact List.inj_on_of_nodup_map hnodup hfirst hsecond hid

/-- A step that keeps the projections and the queue keeps the books. -/
theorem recorded (hsound : Sound jobs state)
    (hkeeps : Database.KeepsProjections state.db next.db) (hjobs : next.jobs = state.jobs)
    (hlog : next.log = state.log) (hpruned : next.pruned = state.pruned)
    (hthreads : ∀ thread ∈ next.threads, ThreadSound jobs state thread) : Sound jobs next := by
  have hgrows : Grows state next := by
    constructor
    · rw [hkeeps.events]
      exact fun _ => id
    · rw [hjobs]
      exact fun _ => id
    · rw [hpruned]
      exact fun _ => id
  constructor
  · rw [hkeeps.events]
    exact hsound.ids
  · intro event hevent
    rw [hkeeps.events] at hevent
    obtain ⟨row, hrow, hrank⟩ := hsound.cases event hevent
    rcases hkeeps.marker event.case with hsame | ⟨habsent, _⟩
    · rw [Database.marker, Database.marker, hrow, Option.map_some] at hsame
      obtain ⟨found, hfound, hmarker⟩ := Option.map_eq_some_iff.mp hsame
      have hprojected : found.projectedUrgency = row.projectedUrgency := congrArg Prod.fst hmarker
      exact ⟨found, hfound, hprojected ▸ hrank⟩
    · rw [hrow] at habsent
      cases habsent
  · rw [hkeeps.events]
    exact hsound.unique
  · rw [hkeeps.events, hkeeps.transitions]
    exact hsound.transitions
  · rw [hkeeps.events, hjobs]
    exact hsound.queued
  · rw [hkeeps.events, hlog]
    exact hsound.log
  · exact fun thread hthread => hgrows.threadSound (hthreads thread hthread)
  · intro case row hrow hconfirmed transition hlatest
    unfold latestProjection at hlatest
    rw [hkeeps.transitions] at hlatest
    rcases hkeeps.marker case with hsame | ⟨_, hblank⟩
    · rw [Database.marker, Database.marker, hrow, Option.map_some] at hsame
      obtain ⟨found, hfound, hmarker⟩ := Option.map_eq_some_iff.mp hsame.symm
      have hdispatched : found.projectionDispatchedAt = row.projectionDispatchedAt :=
        congrArg Prod.snd hmarker
      obtain ⟨event, hevent, hid, hdone⟩ :=
        hsound.marker case found hfound (hdispatched ▸ hconfirmed) transition hlatest
      exact ⟨event, hgrows.events event hevent, hid,
        hdone.imp (hgrows.pruned event.id) hgrows.isPublished⟩
    · rw [Database.marker, hrow, Option.map_some] at hblank
      have hnone : row.projectionDispatchedAt = none := congrArg Prod.snd (Option.some.inj hblank)
      rw [hnone] at hconfirmed
      cases hconfirmed

/-- The thread that goes on with a projection is at the start of its chain, or has nothing to
publish. -/
theorem afterProjection_sound {case : Nat} {row : CaseRow} {event : ProjectedEvent}
    (hevent : event ∈ state.db.events) (hcase : event.case = case)
    (hurgency : event.urgency = row.urgency) :
    ThreadSound jobs state (afterProjection jobs case row event) := by
  unfold afterProjection
  split
  · exact ⟨hevent, hcase, hurgency, [], rfl, fun _ hentry => nomatch hentry⟩
  next hdispatch =>
    exact ⟨event, hevent, rfl, .inr (.inl (Bool.eq_false_iff.mpr hdispatch))⟩

/-- The transaction of a projection, with the thread that goes on with it. -/
theorem projected (hsound : Sound jobs state) {settings : Settings} {case : Nat}
    {publication : Publication} {row : CaseRow} {event : ProjectedEvent}
    (hproject : state.db.projectCase settings case publication = some (next.db, row, event))
    (hjobs : next.jobs = state.jobs) (hlog : next.log = state.log)
    (hpruned : next.pruned = state.pruned)
    (hthreads : next.threads = state.threads ++ [afterProjection jobs case row event]) :
    Sound jobs next := by
  obtain ⟨before, hbefore, rfl, hevent, hrank, hcases, hevents, _, transition, htransitions, hcase,
    hkind, hrefers, hto⟩ := Database.projectCase_cases hproject
  have hid : event.id = state.db.events.length + 1 := by rw [hevent]; rfl
  have hof : event.case = case := by rw [hevent]; rfl
  have hurgency : event.urgency = before.urgency := by rw [hevent]; rfl
  have hgrows : Grows state next := by
    constructor
    · rw [hevents]
      exact fun _ => List.mem_append_left _
    · rw [hjobs]
      exact fun _ => id
    · rw [hpruned]
      exact fun _ => id
  have hmem : event ∈ next.db.events := by
    rw [hevents]
    exact List.mem_append_right _ (List.mem_singleton_self event)
  have hprojections : next.db.transitions.filter Database.isProjection =
      state.db.transitions.filter Database.isProjection ++ [transition] := by
    rw [htransitions, List.filter_append, List.filter_cons_of_pos (by simp [Database.isProjection, hkind]),
      List.filter_nil]
  -- the ratchet keeps the new Event apart from those of the same case
  have hapart : ∀ other ∈ state.db.events, other.case = event.case →
      other.urgency ≠ event.urgency := by
    intro other hother hsame heq
    obtain ⟨row, hrow, hbelow⟩ := hsound.cases other hother
    rw [hsame, hof] at hrow
    cases hbefore.symm.trans hrow
    rw [heq, hurgency] at hbelow
    exact absurd hrank hbelow.not_gt
  constructor
  · rw [hevents, List.map_append, hsound.ids, List.map_singleton, hid, List.length_append,
      List.length_singleton, List.range'_1_concat, Nat.add_comm 1]
  · intro other hother
    rw [hevents] at hother
    rcases List.mem_append.mp hother with hold | hnew
    · obtain ⟨row, hrow, hbelow⟩ := hsound.cases other hold
      rw [hcases, Table.get_put]
      split
      next heq =>
        rw [heq, hbefore] at hrow
        cases hrow
        exact ⟨_, rfl, (hbelow.trans_lt hrank).le⟩
      · exact ⟨row, hrow, hbelow⟩
    · rw [List.mem_singleton.mp hnew, hcases, hof, Table.get_put, if_pos rfl]
      exact ⟨_, rfl, hurgency ▸ le_rfl⟩
  · intro first hfirst second hsecond hcases heq
    rw [hevents] at hfirst hsecond
    rcases List.mem_append.mp hfirst with hfirst | hfirst
    · rcases List.mem_append.mp hsecond with hsecond | hsecond
      · exact hsound.unique first hfirst second hsecond hcases heq
      · rw [List.mem_singleton.mp hsecond] at hcases heq
        exact absurd heq (hapart first hfirst hcases)
    · rw [List.mem_singleton.mp hfirst] at hcases heq ⊢
      rcases List.mem_append.mp hsecond with hsecond | hsecond
      · exact absurd heq.symm (hapart second hsecond hcases.symm)
      · exact (List.mem_singleton.mp hsecond).symm
  · intro other hother
    rw [hprojections] at hother
    rcases List.mem_append.mp hother with hold | hnew
    · obtain ⟨found, hfound, hfacts⟩ := hsound.transitions other hold
      exact ⟨found, hgrows.events found hfound, hfacts⟩
    · rw [List.mem_singleton.mp hnew]
      exact ⟨event, hmem, hrefers, hof.trans hcase.symm, hurgency.trans hto.symm⟩
  · intro job hjob
    rw [hjobs] at hjob
    obtain ⟨found, hfound, hfacts⟩ := hsound.queued job hjob
    exact ⟨found, hgrows.events found hfound, hfacts⟩
  · intro call hcall
    rw [hlog] at hcall
    obtain ⟨found, hfound, hfacts⟩ := hsound.log call hcall
    exact ⟨found, hgrows.events found hfound, hfacts⟩
  · intro thread hthread
    rw [hthreads] at hthread
    rcases List.mem_append.mp hthread with hold | hnew
    · exact hgrows.threadSound (hsound.threads thread hold)
    · rw [List.mem_singleton.mp hnew]
      exact afterProjection_sound hmem hof hurgency
  · intro other found hfound hconfirmed latest hlatest
    rw [hcases, Table.get_put] at hfound
    split at hfound
    · -- the marker of the case itself is cleared
      cases hfound
      cases hconfirmed
    next hne =>
      have hold : state.latestProjection other = some latest := by
        unfold latestProjection at hlatest ⊢
        rw [hprojections, List.filter_append, List.filter_cons_of_neg
          (by simpa [hcase] using Ne.symm hne), List.filter_nil, List.append_nil] at hlatest
        exact hlatest
      obtain ⟨event, hevent, hid, hdone⟩ := hsound.marker other found hfound hconfirmed latest hold
      exact ⟨event, hgrows.events event hevent, hid,
        hdone.imp (hgrows.pruned event.id) hgrows.isPublished⟩

/-! ### Commands of the threads -/

theorem setThread_sound (hsound : Sound jobs state) {number : Nat} {thread : Thread}
    (hthread : ThreadSound jobs state thread) : Sound jobs (state.setThread number thread) := by
  refine hsound.recorded (.refl _) rfl rfl rfl fun other hother => ?_
  rcases List.mem_or_eq_of_mem_set hother with hold | rfl
  · exact hsound.threads other hold
  · exact hthread

theorem endThread_sound (hsound : Sound jobs state) (number : Nat) :
    Sound jobs (state.endThread number) :=
  hsound.recorded (.refl _) rfl rfl rfl fun other hother =>
    hsound.threads other (List.mem_of_mem_eraseIdx hother)

/-- A sweep that reads the projection of the urgency it has loaded dispatches its Event. -/
theorem afterRead_sound (hsound : Sound jobs state) {case : Nat} {urgency : Urgency}
    (htimely : ∀ transition, state.latestProjection case = some transition →
      transition.toUrgency = urgency)
    {thread : Thread} (hthread : state.afterRead jobs case urgency = some thread) :
    ThreadSound jobs state thread := by
  obtain ⟨transition, hlatest, hthread⟩ := Option.bind_eq_some_iff.mp hthread
  have hmem := List.mem_filter.mp (List.mem_of_getLast? hlatest)
  have hcase : transition.case = case := by simpa using hmem.2
  obtain ⟨event, hevent, hrefers, hof, hurgency⟩ := hsound.transitions transition hmem.1
  split at hthread
  next found hfound =>
    cases hthread
    unfold eventOf at hfound
    rw [hrefers, Option.bind_some] at hfound
    split at hfound
    · cases hfound
    · have hfoundMem := List.mem_of_find?_eq_some hfound
      have hid : found.id = event.id := by simpa using List.find?_some hfound
      cases hsound.event_ext hfoundMem hevent hid
      exact ⟨hevent, hof.trans hcase, hurgency.trans (htimely transition hlatest), [], rfl,
        fun _ hentry => nomatch hentry⟩
  next hnone =>
    rw [hrefers, Option.map_some] at hthread
    cases hthread
    refine ⟨event, hevent, rfl, .inl ?_⟩
    by_contra hpruned
    unfold eventOf at hnone
    rw [hrefers, Option.bind_some, if_neg hpruned, List.find?_eq_none] at hnone
    exact hnone event hevent (by simp)

/-- A job that holds the key of a handler is a job of that handler. -/
theorem hasJob_of_key (hsound : Sound jobs state) {event : ProjectedEvent} {entry : Nat × String}
    (hevent : event ∈ state.db.events) (hentry : entry ∈ jobs.chain event.publication.handler)
    {job : HandlerJob} (hjob : job ∈ state.jobs) (hkey : job.key = keyOf jobs event entry) :
    state.HasJob event entry := by
  obtain ⟨other, hother, hid, hchain, hown⟩ := hsound.queued job hjob
  rw [hown, keyOf, keyOf, JobKey.mk.injEq] at hkey
  obtain ⟨hcase, hurgency, hindex, _⟩ := hkey
  cases hsound.unique other hother event hevent hcase hurgency
  dsimp only at hindex
  rw [hindex] at hchain
  exact ⟨job, hjob, hid, hindex, chain_index hchain hentry⟩

theorem publish_sound (hsound : Sound jobs state) {number case index : Nat} {urgency : Urgency}
    {event : ProjectedEvent} {spec : String} {rest : List (Nat × String)} {published : Bool}
    (hthread : ThreadSound jobs state (.dispatching case urgency event ((index, spec) :: rest)
      published)) :
    Sound jobs ((state.publish
      ⟨⟨case, urgency, index, jobs.digest spec⟩, event.id, index, spec⟩).setThread number
        (.dispatching case urgency event rest true)) := by
  obtain ⟨hevent, rfl, rfl, before, hchain, hdone⟩ := hthread
  have hentry : (index, spec) ∈ jobs.chain event.publication.handler := by
    rw [hchain]
    exact List.mem_append_right _ List.mem_cons_self
  generalize hjob : (⟨⟨event.case, event.urgency, index, jobs.digest spec⟩, event.id, index, spec⟩ :
    HandlerJob) = job
  have hgrows : Grows state (state.publish job) := by
    refine ⟨fun _ => id, fun other hother => ?_, fun _ => id⟩
    unfold publish
    dsimp only
    split
    · exact hother
    · exact List.mem_append_left _ hother
  have hqueued : (state.publish job).HasJob event (index, spec) := by
    by_cases hany : state.jobs.any fun other => other.key = job.key
    · obtain ⟨other, hother, hkey⟩ := List.any_eq_true.mp hany
      refine hgrows.hasJob (hsound.hasJob_of_key hevent hentry hother ?_)
      rw [of_decide_eq_true hkey, ← hjob, keyOf]
    · refine ⟨job, ?_, by rw [← hjob], by rw [← hjob], by rw [← hjob]⟩
      unfold publish
      dsimp only
      rw [if_neg hany]
      exact List.mem_append_right _ (List.mem_singleton_self job)
  have hpublished : Sound jobs (state.publish job) := by
    refine ⟨hsound.ids, hsound.cases, hsound.unique, hsound.transitions, ?_, ?_, ?_, ?_⟩
    · intro other hother
      unfold publish at hother
      dsimp only at hother
      split at hother
      · exact hsound.queued other hother
      rcases List.mem_append.mp hother with hold | hnew
      · exact hsound.queued other hold
      · rw [List.mem_singleton.mp hnew, ← hjob]
        exact ⟨event, hevent, rfl, hentry, rfl⟩
    · intro call hcall
      rcases List.mem_append.mp hcall with hold | hnew
      · exact hsound.log call hold
      · rw [List.mem_singleton.mp hnew, ← hjob]
        exact ⟨event, hevent, spec, rfl, hentry, rfl⟩
    · exact fun thread hmem => hgrows.threadSound (hsound.threads thread hmem)
    · intro case row hrow hconfirmed transition hlatest
      obtain ⟨event, hevent, hid, hdone⟩ :=
        hsound.marker case row hrow hconfirmed transition hlatest
      exact ⟨event, hevent, hid, hdone.imp_right hgrows.isPublished⟩
  refine hpublished.setThread_sound ⟨hevent, rfl, rfl, before ++ [(index, spec)], ?_, ?_⟩
  · rw [hchain, List.append_assoc]
    rfl
  · intro entry hmem
    rcases List.mem_append.mp hmem with hold | hnew
    · exact hgrows.hasJob (hdone entry hold)
    · rw [List.mem_singleton.mp hnew]
      exact hqueued

/-- At the end of its chain a dispatch has published the handlers of its Event. -/
theorem confirming_sound {case : Nat} {urgency : Urgency} {event : ProjectedEvent}
    {published : Bool}
    (hthread : ThreadSound jobs state (.dispatching case urgency event [] published)) :
    ThreadSound jobs state (.confirming case event.id) := by
  obtain ⟨hevent, _, _, before, hchain, hdone⟩ := hthread
  rw [List.append_nil] at hchain
  exact ⟨event, hevent, rfl, .inr (.inr fun entry hentry => hdone entry (hchain ▸ hentry))⟩

/-- A confirmation that comes in time is of the Event of the latest projection. -/
theorem confirm_sound (hsound : Sound jobs state) {now : Time} {number case confirmed : Nat}
    (hthread : ThreadSound jobs state (.confirming case confirmed))
    (htimely : ∀ transition, state.latestProjection case = some transition →
      transition.projectedEvent = some confirmed)
    (hdb : next.db = state.db.confirmDispatch now case) (hjobs : next.jobs = state.jobs)
    (hlog : next.log = state.log) (hpruned : next.pruned = state.pruned)
    (hthreads : next.threads = state.threads.eraseIdx number) : Sound jobs next := by
  have hgrows : Grows state next := by
    constructor
    · rw [hdb]
      exact fun _ => id
    · rw [hjobs]
      exact fun _ => id
    · rw [hpruned]
      exact fun _ => id
  have hevents : next.db.events = state.db.events := by rw [hdb]; rfl
  have htransitions : next.db.transitions = state.db.transitions := by rw [hdb]; rfl
  have hrows : ∀ other, next.db.cases.get other = if other = case then
      (state.db.cases.get other).map fun row => { row with projectionDispatchedAt := some now }
      else state.db.cases.get other := by
    intro other
    rw [hdb]
    exact Table.get_modify ..
  constructor
  · rw [hevents]
    exact hsound.ids
  · intro event hevent
    rw [hevents] at hevent
    obtain ⟨row, hrow, hrank⟩ := hsound.cases event hevent
    rw [hrows, hrow]
    split
    · exact ⟨_, rfl, hrank⟩
    · exact ⟨row, rfl, hrank⟩
  · rw [hevents]
    exact hsound.unique
  · rw [hevents, htransitions]
    exact hsound.transitions
  · rw [hevents, hjobs]
    exact hsound.queued
  · rw [hevents, hlog]
    exact hsound.log
  · intro thread hmem
    rw [hthreads] at hmem
    exact hgrows.threadSound (hsound.threads thread (List.mem_of_mem_eraseIdx hmem))
  · intro other row hrow hconfirmed transition hlatest
    unfold latestProjection at hlatest
    rw [htransitions] at hlatest
    rw [hrows] at hrow
    split at hrow
    next heq =>
      subst heq
      obtain ⟨event, hevent, rfl, hdone⟩ := hthread
      exact ⟨event, hgrows.events event hevent, htimely transition hlatest,
        hdone.imp (hgrows.pruned event.id) hgrows.isPublished⟩
    · obtain ⟨event, hevent, hrefers, hdone⟩ :=
        hsound.marker other row hrow hconfirmed transition hlatest
      exact ⟨event, hgrows.events event hevent, hrefers,
        hdone.imp (hgrows.pruned event.id) hgrows.isPublished⟩

theorem pruned_sound (hsound : Sound jobs state) (event : Nat) :
    Sound jobs { state with pruned := event :: state.pruned } := by
  have hgrows : Grows state { state with pruned := event :: state.pruned } :=
    ⟨fun _ => id, fun _ => id, fun _ => List.mem_cons_of_mem _⟩
  refine ⟨hsound.ids, hsound.cases, hsound.unique, hsound.transitions, hsound.queued, hsound.log,
    fun thread hmem => hgrows.threadSound (hsound.threads thread hmem), ?_⟩
  intro case row hrow hconfirmed transition hlatest
  obtain ⟨event, hevent, hrefers, hdone⟩ :=
    hsound.marker case row hrow hconfirmed transition hlatest
  exact ⟨event, hevent, hrefers, hdone.imp (hgrows.pruned event.id) hgrows.isPublished⟩

/-! ### Steps and runs -/

theorem threadStep_sound (hsound : Sound jobs state) {number : Nat} {command : Command}
    {thread : Thread} (hget : state.threads[number]? = some thread)
    (htimely : IsTimely state (.thread number command) next)
    (hnext : state.threadStep jobs number command thread = some next) : Sound jobs next := by
  have hthread := hsound.threads thread (List.mem_of_getElem? hget)
  unfold threadStep at hnext
  split at hnext
  next case urgency =>
    have hread : ∀ transition, state.latestProjection case = some transition →
        transition.toUrgency = urgency := by
      intro transition hlatest
      simpa [IsTimely, hget, hlatest] using htimely
    cases hafter : state.afterRead jobs case urgency with
    | none =>
      rw [hafter] at hnext
      cases hnext
      exact hsound.endThread_sound number
    | some thread =>
      rw [hafter] at hnext
      cases hnext
      exact hsound.setThread_sound (hsound.afterRead_sound hread hafter)
  next =>
    cases hnext
    exact hsound.publish_sound hthread
  next =>
    cases hnext
    split
    · exact hsound.setThread_sound (confirming_sound hthread)
    · exact hsound.endThread_sound number
  next now case id =>
    cases hnext
    refine hsound.confirm_sound hthread (fun transition hlatest => ?_) rfl rfl rfl rfl rfl
    simpa [IsTimely, hget, hlatest] using htimely
  next =>
    cases hnext
    exact hsound.endThread_sound number
  next => cases hnext

theorem step_sound (hsound : Sound jobs state) {action : DispatchAction}
    (htimely : IsTimely state action next) (hnext : step jobs state action = some next) :
    Sound jobs next := by
  cases action with
  | record action =>
    simp only [step] at hnext
    split at hnext
    next hrecord =>
      obtain ⟨system, hsystem, rfl⟩ := Option.map_eq_some_iff.mp hnext
      exact hsound.recorded (step_keepsProjections hrecord hsystem) rfl rfl rfl hsound.threads
    · cases hnext
  | project settings case publication =>
    simp only [step] at hnext
    split at hnext
    · cases hnext
      exact hsound.recorded (.refl _) rfl rfl rfl hsound.threads
    next hproject =>
      cases hnext
      exact hsound.projected hproject rfl rfl rfl rfl
  | load settings case =>
    obtain ⟨row, _, hload⟩ := Option.bind_eq_some_iff.mp hnext
    split at hload
    · cases hload
      refine hsound.recorded (.refl _) rfl rfl rfl fun thread hmem => ?_
      rcases List.mem_append.mp hmem with hold | hnew
      · exact hsound.threads thread hold
      · rw [List.mem_singleton.mp hnew]
        trivial
    · cases hload
  | thread number command =>
    obtain ⟨thread, hget, hcommand⟩ := Option.bind_eq_some_iff.mp hnext
    exact hsound.threadStep_sound hget htimely hcommand
  | prune event =>
    cases hnext
    exact hsound.pruned_sound event

theorem handlersKept (hsound : Sound jobs state) : HandlersKept jobs state where
  published := by
    intro case row hrow hconfirmed transition hlatest event hevent
    obtain ⟨other, hother, hrefers, hdone⟩ :=
      hsound.marker case row hrow hconfirmed transition hlatest
    unfold eventOf at hevent
    rw [hrefers, Option.bind_some] at hevent
    split at hevent
    · cases hevent
    next hpresent =>
      have hmem := List.mem_of_find?_eq_some hevent
      have hid : event.id = other.id := by simpa using List.find?_some hevent
      cases hsound.event_ext hmem hother hid
      exact hdone.resolve_left hpresent
  one_key := by
    intro first hfirst second hsecond hevent hindex
    obtain ⟨event, hmem, spec, hid, hchain, hkey⟩ := hsound.log first hfirst
    obtain ⟨other, hother, text, hotherId, hotherChain, hotherKey⟩ := hsound.log second hsecond
    cases hsound.event_ext hmem hother (hid.symm.trans (hevent.trans hotherId))
    rw [hindex] at hchain
    rw [hkey, hotherKey, hindex, chain_index hchain hotherChain]

end Sound

/-- In every run whose confirmations and sweeps are timely, a confirmed case has its handlers
published, and a handler is published under one key. -/
theorem handlersKept_of_timely (jobs : Jobs) (receipts : Table Nat ReceiptRow)
    (actions : List DispatchAction)
    (htimely : EachStep (step jobs) (fun state action next => IsTimely state action next)
      (start receipts) actions) :
    Always (step jobs) (HandlersKept jobs) (start receipts) actions := by
  have hsound : Always (step jobs) (Sound jobs) (start receipts) actions :=
    always_of_eachStep (fun _ _ _ hstate hcondition hnext => hstate.step_sound hcondition hnext)
      (Sound.start receipts) htimely
  exact hsound.imp fun _ hstate => hstate.handlersKept

/-! ### A confirmation that comes late -/

def plainJobs : Jobs := ⟨.ascii, id⟩

def jobHandler : Publication := ⟨"job://apps.security.review", true⟩

/-- A change that no deployment explains is projected, and its handler is published. -/
def projectedChange : List DispatchAction :=
  [.record (.contribute plainSettings ⟨2, true, 0, 1, .change "system_config", 12, 0⟩),
    .project plainSettings 12 jobHandler, .thread 0 .publish, .thread 0 .finish]

theorem projectedChange_kept : Always (step plainJobs) (HandlersKept plainJobs)
    (start threeReceipts) (projectedChange ++ [.thread 0 (.confirm 1)]) :=
  handlersKept_of_timely plainJobs threeReceipts _ (by decide)

/-- Before the confirmation, a sustained probe corroborates the change, and the process that
projects the case again dies before it publishes. -/
def confirmedLate : List DispatchAction :=
  projectedChange ++
    [.record (.contribute plainSettings ⟨1, true, 0, 1000, impossiblePath, 11, 0⟩),
      .record (.corroborate plainSettings 12), .project plainSettings 12 jobHandler,
      .thread 1 .die, .thread 0 (.confirm 1)]

/-- A confirmed case whose latest Event has a handler that no job runs. -/
def losesHandlers (jobs : Jobs) (case : Nat) (state : Dispatcher) : Bool :=
  (state.db.cases.get case).any fun row => row.projectionDispatchedAt.isSome &&
    ((state.latestProjection case).bind state.eventOf).any fun event =>
      event.publication.shouldDispatch &&
      (jobs.chain event.publication.handler).any fun _ =>
        state.jobs.all fun job => job.event ≠ event.id

theorem not_losesHandlers {state : Dispatcher} (hkept : HandlersKept jobs state) (case : Nat) :
    losesHandlers jobs case state = false := by
  by_contra hloses
  rw [Bool.not_eq_false, losesHandlers, Option.any_eq_true] at hloses
  obtain ⟨row, hrow, hloses⟩ := hloses
  rw [Bool.and_eq_true, Option.any_eq_true] at hloses
  obtain ⟨hconfirmed, event, hevent, hloses⟩ := hloses
  obtain ⟨transition, hlatest, hevent⟩ := Option.bind_eq_some_iff.mp hevent
  rw [Bool.and_eq_true, List.any_eq_true] at hloses
  obtain ⟨hdispatch, entry, hentry, hnone⟩ := hloses
  rcases hkept.published case row hrow hconfirmed transition hlatest event hevent with hfalse | hall
  · rw [hdispatch] at hfalse
    cases hfalse
  · obtain ⟨job, hjob, hid, _⟩ := hall entry hentry
    rw [List.all_eq_true] at hnone
    exact absurd hid (by simpa using hnone job hjob)

theorem not_always_handlersKept : ¬ ∀ (jobs : Jobs) (receipts : Table Nat ReceiptRow)
    (actions : List DispatchAction),
    Always (step jobs) (HandlersKept jobs) (start receipts) actions := by
  intro hall
  refine not_always_of_run (fun state => !losesHandlers plainJobs 12 state) ?_ ?_
    (hall plainJobs threeReceipts confirmedLate)
  · intro state hkept
    rw [not_losesHandlers hkept]
    rfl
  · decide

end Dispatcher

end DjangoMojo.Cases
