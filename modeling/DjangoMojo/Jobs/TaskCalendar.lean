import DjangoMojo.Jobs.ScheduledTask

/-! # The calendar of a scheduled task

What a sequence of hourly dispatches publishes for a task, instant by instant,
against the instants at which the task is scheduled in its owner's wall time.
-/

namespace DjangoMojo.Jobs

open Foundation CivilTime

/-- The instants published for one task, in order of publication. -/
def runsOf (id : JobId) (published : List TaskRun) : List Time :=
  (published.filter fun run => run.taskId = id).map TaskRun.runAt

theorem mem_runsOf {id : JobId} {published : List TaskRun} {time : Time} :
    time ∈ runsOf id published ↔ ∃ run ∈ published, run.taskId = id ∧ run.runAt = time := by
  simp only [runsOf, List.mem_map, List.mem_filter, decide_eq_true_eq, and_assoc]

/-- Every run is at a whole second, and no task has two at one instant. -/
structure Recorded (published : List TaskRun) : Prop where
  whole : ∀ run ∈ published, run.runAt % 1000000 = 0
  once : ∀ id, (runsOf id published).Nodup

theorem Recorded.nil : Recorded [] := ⟨by simp, fun _ => List.nodup_nil⟩

section Publication

variable (fails : JobId → Time → Bool) {published : List TaskRun}

theorem key_eq_iff {first second : TaskRun} (hfirst : first.runAt % 1000000 = 0)
    (hsecond : second.runAt % 1000000 = 0) :
    first.key = second.key ↔ first.taskId = second.taskId ∧ first.runAt = second.runAt := by
  simp only [TaskRun.key, Prod.mk.injEq]
  exact and_congr_right fun _ => ⟨eq_of_ediv_eq hfirst hsecond, fun heq => by rw [heq]⟩

theorem publishRun_of_known (hrecorded : Recorded published) {run : TaskRun}
    (hwhole : run.runAt % 1000000 = 0) :
    (published.any fun other => other.key = run.key) = true ↔
      run.runAt ∈ runsOf run.taskId published := by
  rw [List.any_eq_true, mem_runsOf]
  refine exists_congr fun other => and_congr_right fun hmem => ?_
  rw [decide_eq_true_eq, key_eq_iff (hrecorded.whole other hmem) hwhole]

theorem recorded_publishRun (hrecorded : Recorded published) {run : TaskRun}
    (hwhole : run.runAt % 1000000 = 0) :
    Recorded (publishRun fails published run) ∧
      ∀ id time, time ∈ runsOf id (publishRun fails published run) ↔
        time ∈ runsOf id published ∨
          run.taskId = id ∧ run.runAt = time ∧ fails id time = false := by
  rw [publishRun]
  split
  next hfails =>
    refine ⟨hrecorded, fun id time => ⟨.inl, ?_⟩⟩
    rintro (hold | ⟨rfl, rfl, hsucceeds⟩)
    · exact hold
    · rw [hfails] at hsucceeds
      cases hsucceeds
  next hsucceeds =>
    rw [Bool.not_eq_true] at hsucceeds
    have hknown := publishRun_of_known hrecorded hwhole
    split
    next hany =>
      refine ⟨hrecorded, fun id time => ⟨.inl, ?_⟩⟩
      rintro (hold | ⟨rfl, rfl, _⟩)
      · exact hold
      · exact hknown.mp hany
    next hany =>
      have hnew : run.runAt ∉ runsOf run.taskId published := fun hmem => hany (hknown.mpr hmem)
      have hruns (id : JobId) : runsOf id (published ++ [run]) =
          runsOf id published ++ if run.taskId = id then [run.runAt] else [] := by
        simp only [runsOf, List.filter_append, List.map_append]
        by_cases heq : run.taskId = id <;> simp [heq]
      refine ⟨⟨?_, fun id => ?_⟩, fun id time => ?_⟩
      · intro other hmem
        obtain hold | rfl := List.mem_append.mp hmem |>.imp_right List.mem_singleton.mp
        · exact hrecorded.whole other hold
        · exact hwhole
      · rw [hruns]
        split
        next heq =>
          subst heq
          refine (hrecorded.once _).append (List.nodup_singleton _) ?_
          rw [List.disjoint_singleton]
          exact hnew
        next =>
          rw [List.append_nil]
          exact hrecorded.once id
      · rw [hruns, List.mem_append]
        refine or_congr_right ?_
        split
        next heq =>
          subst heq
          rw [List.mem_singleton]
          constructor
          · rintro rfl
            exact ⟨rfl, rfl, hsucceeds⟩
          · rintro ⟨_, rfl, _⟩
            rfl
        next hne => simp [hne]

theorem recorded_publishRuns (runs : List TaskRun) (hwhole : ∀ run ∈ runs, run.runAt % 1000000 = 0)
    (hrecorded : Recorded published) :
    Recorded (runs.foldl (publishRun fails) published) ∧
      ∀ id time, time ∈ runsOf id (runs.foldl (publishRun fails) published) ↔
        time ∈ runsOf id published ∨
          ∃ run ∈ runs, run.taskId = id ∧ run.runAt = time ∧ fails id time = false := by
  induction runs generalizing published with
  | nil => exact ⟨hrecorded, by simp⟩
  | cons run rest ih =>
    obtain ⟨hfirst, hmem⟩ :=
      recorded_publishRun fails hrecorded (hwhole run List.mem_cons_self)
    obtain ⟨hrest, hothers⟩ :=
      ih (fun other hother => hwhole other (List.mem_cons_of_mem _ hother)) hfirst
    refine ⟨hrest, fun id time => ?_⟩
    rw [List.foldl_cons, hothers, hmem, List.exists_mem_cons_iff, or_assoc]

end Publication

namespace ScheduledTask

variable (tables : TextTables) (zones : Zones)

def times (task : ScheduledTask) : List (Int × Int) :=
  (task.runTimes.mapM (parseTime tables)).getD []

def ShowsRunTime (task : ScheduledTask) (time : Time) : Prop :=
  (time + task.offset zones) % minute = 0 ∧
    (hourOf (time + task.offset zones), minuteOf (time + task.offset zones)) ∈ task.times tables

/-- The wall time is a run time on a run day of the owner's calendar. -/
def Scheduled (task : ScheduledTask) (time : Time) : Prop :=
  task.ShowsRunTime tables zones time ∧
    task.matchesDay (weekdayOf (time + task.offset zones)) = true

/-- The checks that `_validate` makes, for some settings and some owner. -/
def Accepted (task : ScheduledTask) : Prop :=
  ∃ quoted settings maxPerUser pk existing,
    task.validate tables quoted settings maxPerUser pk existing = .ok ()

variable {tables}

theorem parse_of_validateTime {text : String} (hvalid : validateTime tables text = .ok ()) :
    ∃ time, parseTime tables text = some time ∧ 0 ≤ time.2 ∧ time.2 < 60 := by
  rw [validateTime] at hvalid
  split at hvalid
  · cases hvalid
  · split at hvalid
    next hrange =>
      obtain ⟨time, htime, hin⟩ := (Option.any_eq_true _ _).mp hrange
      simp only [inRange, Bool.and_eq_true, decide_eq_true_eq] at hin
      exact ⟨time, htime, hin.1.2, by omega⟩
    next => cases hvalid

theorem parse_of_validateTimes {texts : List String}
    (hvalid : validateTimes tables texts = .ok ()) :
    ∃ times, texts.mapM (parseTime tables) = some times ∧
      ∀ time ∈ times, 0 ≤ time.2 ∧ time.2 < 60 := by
  induction texts with
  | nil => exact ⟨[], rfl, by simp⟩
  | cons text rest ih =>
    rw [validateTimes] at hvalid
    split at hvalid
    next hfirst =>
      obtain ⟨time, htime, hrange⟩ := parse_of_validateTime hfirst
      obtain ⟨times, htimes, hranges⟩ := ih hvalid
      refine ⟨time :: times, ?_, ?_⟩
      · rw [List.mapM_cons, htime, htimes]
        rfl
      · rintro other (_ | ⟨_, hother⟩)
        · exact hrange
        · exact hranges other hother
    next => cases hvalid

theorem parse_of_accepted {task : ScheduledTask} (haccepted : task.Accepted tables) :
    task.runTimes.mapM (parseTime tables) = some (task.times tables) ∧
      ∀ time ∈ task.times tables, 0 ≤ time.2 ∧ time.2 < 60 := by
  obtain ⟨quoted, settings, maxPerUser, pk, existing, hvalid⟩ := haccepted
  have htimes : validateTimes tables task.runTimes = .ok () := by
    simp only [validate, bind, Except.bind] at hvalid
    split at hvalid
    · cases hvalid
    · split at hvalid
      next => cases hvalid
      next hok => exact hok
  obtain ⟨parsed, hparse, hrange⟩ := parse_of_validateTimes htimes
  rw [times, hparse]
  exact ⟨rfl, hrange⟩

/-- What a dispatch at `now` leaves of an instant: its UTC weekday is a run day,
the wall time shows at least the minutes of the offset, and it is not past. -/
def Reached (task : ScheduledTask) (now time : Time) : Prop :=
  task.matchesDay (weekdayOf time) = true ∧
    task.offset zones % hour ≤ minuteOf (time + task.offset zones) * minute ∧ now ≤ time

theorem due_of_accepted {task : ScheduledTask} (haccepted : task.Accepted tables) (now : Time) :
    ∃ instants, task.due tables zones now = some instants ∧
      ∀ time, time ∈ instants ↔ task.matchesDay (weekdayOf now) = true ∧ now ≤ time ∧
        ∃ clock ∈ task.times tables, clock.1 = hourOf (now + task.offset zones) ∧
          time + task.offset zones = atClock (now + task.offset zones) clock.1 clock.2 := by
  rw [due]
  split
  next hday =>
    simp only [runTimesForHour, (parse_of_accepted haccepted).1, Option.map_some]
    refine ⟨_, rfl, fun time => ?_⟩
    simp only [List.mem_filter, List.mem_map, decide_eq_true_eq, Bool.not_eq_true',
      decide_eq_false_iff_not, not_lt, hday, true_and]
    constructor
    · rintro ⟨⟨clock, ⟨hmem, hhour⟩, rfl⟩, hnow⟩
      exact ⟨hnow, clock, hmem, hhour, sub_add_cancel _ _⟩
    · rintro ⟨hnow, clock, hmem, hhour, htime⟩
      exact ⟨⟨clock, ⟨hmem, hhour⟩, by rw [← htime, add_sub_cancel_right]⟩, hnow⟩
  next hday => exact ⟨[], rfl, by simp [hday]⟩

theorem mem_due {task : ScheduledTask} (haccepted : task.Accepted tables) (call : HourlyCall)
    (first : Int) :
    ∃ instants, task.due tables zones (first * hour + call.late) = some instants ∧
      ∀ time, time ∈ instants ↔ time / hour = first ∧ task.ShowsRunTime tables zones time ∧
        task.Reached zones (first * hour + call.late) time := by
  obtain ⟨instants, hdue, hmem⟩ := due_of_accepted zones haccepted (first * hour + call.late)
  refine ⟨instants, hdue, fun time => ?_⟩
  rw [hmem, exists_atClock_iff (parse_of_accepted haccepted).2]
  have htop := ediv_hour_of_late call.within first
  rw [ShowsRunTime, Reached]
  constructor
  · rintro ⟨hday, hnow, hsame, hfull, hlisted⟩
    obtain ⟨hhour, hminutes⟩ := (shifted_hour_iff call.within hfull hnow).mp hsame
    rw [weekdayOf_congr (htop.trans hhour.symm)] at hday
    exact ⟨hhour, ⟨hfull, hlisted⟩, hday, hminutes, hnow⟩
  · rintro ⟨hhour, ⟨hfull, hlisted⟩, hday, hminutes, hnow⟩
    rw [← weekdayOf_congr (htop.trans hhour.symm)] at hday
    exact ⟨hday, hnow, (shifted_hour_iff call.within hfull hnow).mpr ⟨hhour, hminutes⟩,
      hfull, hlisted⟩

end ScheduledTask

section Dispatch

variable {tables : TextTables} {zones : Zones}

theorem mem_enabledTasks {tasks : Table JobId ScheduledTask} {id : JobId} {task : ScheduledTask} :
    (id, task) ∈ enabledTasks tasks ↔ tasks.get id = some task ∧ task.enabled = true := by
  rw [enabledTasks, List.mem_filterMap]
  constructor
  · rintro ⟨other, hmem, hrow⟩
    obtain ⟨row, hget, heq⟩ := Option.map_eq_some_iff.mp hrow
    cases heq
    obtain ⟨selected, hselected, henabled⟩ := Table.mem_select.mp (List.mem_reverse.mp hmem)
    rw [hget] at hselected
    cases hselected
    exact ⟨hget, henabled⟩
  · rintro ⟨hget, henabled⟩
    exact ⟨id, List.mem_reverse.mpr (Table.mem_select.mpr ⟨task, hget, henabled⟩), by rw [hget]; rfl⟩

/-- The loop over accepted tasks adds, for each of them, the run times of the
hour that the call reaches and whose publication does not raise. -/
theorem recorded_dispatchEach (call : HourlyCall) (first : Int)
    (entries : List (JobId × ScheduledTask))
    (haccepted : ∀ entry ∈ entries, entry.2.Accepted tables) {published : List TaskRun}
    (hrecorded : Recorded published) :
    let after := dispatchEach tables zones call.fails (first * hour + call.late) entries published
    Recorded after ∧ ∀ id time, time ∈ runsOf id after ↔ time ∈ runsOf id published ∨
      ∃ task, (id, task) ∈ entries ∧ time / hour = first ∧
        task.ShowsRunTime tables zones time ∧
        task.Reached zones (first * hour + call.late) time ∧ call.fails id time = false := by
  induction entries generalizing published with
  | nil => exact ⟨hrecorded, by simp [dispatchEach]⟩
  | cons entry rest ih =>
    obtain ⟨id, task⟩ := entry
    obtain ⟨instants, hdue, hmem⟩ := ScheduledTask.mem_due zones
      (haccepted (id, task) List.mem_cons_self) call first
    have hwhole : ∀ run ∈ instants.map (task.run id), run.runAt % 1000000 = 0 := by
      intro run hrun
      obtain ⟨time, htime, rfl⟩ := List.mem_map.mp hrun
      exact second_of_minute ((hmem time).mp htime).2.1.1
    obtain ⟨hfirst, hpublished⟩ :=
      recorded_publishRuns call.fails (instants.map (task.run id)) hwhole hrecorded
    obtain ⟨hrest, hothers⟩ :=
      ih (fun other hother => haccepted other (List.mem_cons_of_mem _ hother)) hfirst
    simp only [dispatchEach, hdue]
    refine ⟨hrest, fun other time => ?_⟩
    rw [hothers, hpublished, or_assoc]
    refine or_congr_right ?_
    constructor
    · rintro (⟨run, hrun, rfl, rfl, hsucceeds⟩ | ⟨row, hrow, hreached⟩)
      · obtain ⟨instant, hinstant, rfl⟩ := List.mem_map.mp hrun
        obtain ⟨hhour, hshows, hreached⟩ := (hmem instant).mp hinstant
        exact ⟨task, List.mem_cons_self, hhour, hshows, hreached, hsucceeds⟩
      · exact ⟨row, List.mem_cons_of_mem _ hrow, hreached⟩
    · rintro ⟨row, hrow, hhour, hshows, hreached, hsucceeds⟩
      obtain heq | hrest := List.mem_cons.mp hrow
      · cases heq
        refine .inl ⟨task.run id time, List.mem_map_of_mem ?_, rfl, rfl, hsucceeds⟩
        exact (hmem time).mpr ⟨hhour, hshows, hreached⟩
      · exact .inr ⟨row, hrest, hhour, hshows, hreached, hsucceeds⟩

theorem recorded_dispatchHourly (zones : Zones) {tasks : Table JobId ScheduledTask}
    (haccepted : ∀ id task, tasks.get id = some task → task.Accepted tables) (first : Int)
    (calls : List HourlyCall) {published : List TaskRun} (hrecorded : Recorded published) :
    let after := dispatchHourly tables zones tasks first calls published
    Recorded after ∧ ∀ id time, time ∈ runsOf id after ↔ time ∈ runsOf id published ∨
      ∃ task, tasks.get id = some task ∧ task.enabled = true ∧
        ∃ (index : Nat) (call : HourlyCall), calls[index]? = some call ∧
          time / hour = first + index ∧ task.ShowsRunTime tables zones time ∧
          task.Reached zones ((first + index) * hour + call.late) time ∧
          call.fails id time = false := by
  induction calls generalizing first published with
  | nil => exact ⟨hrecorded, by simp [dispatchHourly]⟩
  | cons call rest ih =>
    obtain ⟨hfirst, hmem⟩ := recorded_dispatchEach call first (enabledTasks tasks)
      (fun entry hentry => haccepted _ _ (mem_enabledTasks.mp hentry).1) hrecorded
    obtain ⟨hrest, hothers⟩ := ih (first + 1) hfirst
    refine ⟨hrest, fun id time => (hothers id time).trans ?_⟩
    rw [hmem, or_assoc]
    refine or_congr_right ?_
    constructor
    · rintro (⟨task, hentry, hcall⟩ | ⟨task, htask, henabled, index, later, hlater, hcall⟩)
      · obtain ⟨htask, henabled⟩ := mem_enabledTasks.mp hentry
        refine ⟨task, htask, henabled, 0, call, rfl, ?_⟩
        simpa using hcall
      · refine ⟨task, htask, henabled, index + 1, later, hlater, ?_⟩
        rwa [Nat.cast_succ, add_comm (index : Int) 1, ← add_assoc]
    · rintro ⟨task, htask, henabled, index, later, hlater, hcall⟩
      cases index with
      | zero =>
        cases hlater
        refine .inl ⟨task, mem_enabledTasks.mpr ⟨htask, henabled⟩, ?_⟩
        simpa using hcall
      | succ index =>
        refine .inr ⟨task, htask, henabled, index, later, hlater, ?_⟩
        rwa [Nat.cast_succ, add_comm (index : Int) 1, ← add_assoc] at hcall

end Dispatch

section Calendar

variable (tables : TextTables) (zones : Zones) (tasks : Table JobId ScheduledTask) (first : Int)
  (calls : List HourlyCall) (id : JobId) (task : ScheduledTask)

/-- Over the hours of the calls the task is published once at each instant at
which it is scheduled, and at no other. -/
def PublishesCalendar : Prop :=
  let runs := runsOf id (dispatchHourly tables zones tasks first calls [])
  runs.Nodup ∧ ∀ time, first * hour ≤ time → time < (first + calls.length) * hour →
    (time ∈ runs ↔ task.Scheduled tables zones time)

/-- At every run time of the wall clock within the hour of a call, the local
weekday is a run day exactly when the call reaches the instant and its
publication does not raise. -/
def MeetsCalendar : Prop :=
  ∀ (index : Nat) (call : HourlyCall) (time : Time), calls[index]? = some call →
    time / hour = first + index → task.ShowsRunTime tables zones time →
      (task.matchesDay (weekdayOf (time + task.offset zones)) = true ↔
        task.Reached zones ((first + index) * hour + call.late) time ∧
          call.fails id time = false)

/-- The calendar is published exactly when every run time within the calls meets
the condition. -/
theorem publishesCalendar_iff_meetsCalendar
    (haccepted : ∀ id task, tasks.get id = some task → task.Accepted tables)
    (htask : tasks.get id = some task) (henabled : task.enabled = true) :
    PublishesCalendar tables zones tasks first calls id task ↔
      MeetsCalendar tables zones first calls id task := by
  obtain ⟨hrecorded, hruns⟩ := recorded_dispatchHourly zones haccepted first calls .nil
  have hmem (time : Time) {index : Nat} {call : HourlyCall} (hcall : calls[index]? = some call)
      (hhour : time / hour = first + index) :
      time ∈ runsOf id (dispatchHourly tables zones tasks first calls []) ↔
        task.ShowsRunTime tables zones time ∧
          task.Reached zones ((first + index) * hour + call.late) time ∧
          call.fails id time = false := by
    rw [hruns]
    constructor
    · rintro (hnone | ⟨row, hrow, _, other, later, hlater, hother, hshows, hreached⟩)
      · cases hnone
      · obtain rfl : other = index := by
          have hsame := hother.symm.trans hhour
          rw [add_right_inj] at hsame
          exact_mod_cast hsame
        rw [htask] at hrow
        rw [hcall] at hlater
        cases hrow
        cases hlater
        exact ⟨hshows, hreached⟩
    · intro hboth
      exact .inr ⟨task, htask, henabled, index, call, hcall, hhour, hboth⟩
  constructor
  · intro hpublishes index call time hcall hhour hshows
    obtain ⟨hlt, _⟩ := List.getElem?_eq_some_iff.mp hcall
    have hwithin : first ≤ time / hour ∧ time / hour < first + calls.length := by
      rw [hhour]
      exact ⟨le_add_of_nonneg_right (Int.natCast_nonneg index),
        add_lt_add_right (Int.ofNat_lt.mpr hlt) first⟩
    obtain ⟨hlower, hupper⟩ := within_hours_iff.mpr hwithin
    have hiff := (hmem time hcall hhour).symm.trans (hpublishes.2 time hlower hupper)
    rw [ScheduledTask.Scheduled] at hiff
    tauto
  · intro hmeets
    refine ⟨hrecorded.once id, fun time hlower hupper => ?_⟩
    obtain ⟨hfirst, hlast⟩ := within_hours_iff.mp ⟨hlower, hupper⟩
    obtain ⟨index, hindex⟩ := Int.eq_ofNat_of_zero_le (sub_nonneg.mpr hfirst)
    have hhour : time / hour = first + index := by omega
    obtain ⟨call, hcall⟩ : ∃ call, calls[index]? = some call :=
      ⟨_, List.getElem?_eq_getElem (by omega)⟩
    rw [hmem time hcall hhour, ScheduledTask.Scheduled]
    exact and_congr_right fun hshows => (hmeets index call time hcall hhour hshows).symm

/-- A task without run days keeps its calendar in a zone of whole hours when
every call is made at the top of its hour and publishes without raising. -/
theorem meetsCalendar_of_punctual (hdays : task.runDays = [])
    (hoffset : task.offset zones % hour = 0)
    (hcalls : ∀ call ∈ calls, call.late = 0 ∧ ∀ time, call.fails id time = false) :
    MeetsCalendar tables zones first calls id task := by
  intro index call time hcall hhour hshows
  obtain ⟨hlate, hsucceeds⟩ := hcalls call (List.mem_of_getElem? hcall)
  have hday (weekday : Int) : task.matchesDay weekday = true := by
    rw [ScheduledTask.matchesDay, hdays]
    rfl
  refine iff_of_true (hday _) ⟨⟨hday _, ?_, ?_⟩, hsucceeds time⟩
  · rw [hoffset]
    exact minutes_nonneg _
  · rw [hlate, ← hhour, add_zero]
    exact Int.ediv_mul_le time (by decide)

end Calendar

def pacificZones : Zones := ⟨fun _ => none, -28⟩

def onTime : HourlyCall := { late := 0, within := by decide }

def dailyTask : ScheduledTask :=
  { timezone := none, taskType := "job", runTimes := ["09:30"], runDays := [] }

theorem publishesCalendar_dailyTask :
    PublishesCalendar .ascii pacificZones (Table.empty.insert 1 dailyTask) 16 [onTime, onTime] 1
      dailyTask := by
  refine (publishesCalendar_iff_meetsCalendar .ascii pacificZones
    (Table.empty.insert 1 dailyTask) 16 [onTime, onTime] 1 dailyTask ?_ rfl rfl).mpr ?_
  · intro id task htask
    rw [Table.get_insert] at htask
    split at htask
    next =>
      cases htask
      exact ⟨fun text => text, {}, 10, some 1, 0, by decide⟩
    next => cases htask
  · exact meetsCalendar_of_punctual _ _ _ _ _ _ rfl (by decide) (by simp [onTime])

def fridayTask : ScheduledTask :=
  { timezone := none, taskType := "job", runTimes := ["20:30"], runDays := [4] }

/-- The call of that hour asks for a Saturday and publishes nothing. -/
theorem not_publishesCalendar_fridayTask :
    fridayTask.Accepted .ascii ∧
      ¬ PublishesCalendar .ascii pacificZones (Table.empty.insert 1 fridayTask) 51 [onTime] 1
        fridayTask := by
  refine ⟨⟨fun text => text, {}, 10, some 1, 0, by decide⟩, ?_⟩
  intro ⟨_, hruns⟩
  have hiff := hruns (51 * hour + 30 * minute) (by decide) (by decide)
  have hscheduled : fridayTask.Scheduled .ascii pacificZones (51 * hour + 30 * minute) := by
    refine ⟨⟨by decide, ?_⟩, by decide⟩
    decide
  have hnone : runsOf 1 (dispatchHourly .ascii pacificZones (Table.empty.insert 1 fridayTask) 51
      [onTime] []) = [] := by
    decide
  rw [hnone] at hiff
  exact List.not_mem_nil (hiff.mpr hscheduled)

end DjangoMojo.Jobs
