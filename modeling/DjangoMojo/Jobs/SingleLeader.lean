import DjangoMojo.Jobs.SchedulerLock

/-! # A single leader

An instance that renews or releases reads the key and then writes it. The read
protects the write as long as nobody takes the key in between.
-/

namespace DjangoMojo.Jobs.SchedulerLock

open Foundation

namespace Cluster

/-- A landed PEXPIRE or DELETE never meets the lock value of another instance. -/
def OwnWrites (cluster : Cluster) (action : Action) (_ : Cluster) : Prop :=
  ∀ index fault renewDue scheduler, action = .advance index fault renewDue →
    cluster.instances[index]? = some scheduler → scheduler.pc.writes = true → fault ≠ .lost →
      ∀ other holder, other ≠ index → cluster.instances[other]? = some holder →
        cluster.stored ≠ some holder.lockValue

/-- The step is no SET NX that takes the key while some instance stands between
a matching GET and its PEXPIRE or DELETE. -/
def takesUnwatched (cluster : Cluster) : Action → Bool
  | .advance index fault _ =>
    (cluster.instances[index]?).all fun scheduler =>
      scheduler.pc ≠ .acquire || fault = .lost || cluster.stored.isSome ||
        cluster.instances.all fun other => !other.pc.writes
  | _ => true

/-- Lock values are distinct, and an instance about to write sees no value but
its own. -/
structure Exclusive (cluster : Cluster) : Prop where
  distinct : (cluster.instances.map Instance.lockValue).Nodup
  own : ∀ scheduler ∈ cluster.instances, scheduler.pc.writes = true →
    ∀ value, cluster.stored = some value → value = scheduler.lockValue

end Cluster

namespace Instance

/-- What a move can do: it keeps the lock value, and it ends before a write only
when the GET just issued returned the own value. -/
theorem move_cases {stored : Option LockValue} {fault : Fault} {renewDue : Bool}
    {scheduler next : Instance} {command : Command}
    (hmove : scheduler.move stored fault renewDue = some (next, command)) :
    next.lockValue = scheduler.lockValue ∧
      (next.pc.writes = true → stored = some scheduler.lockValue ∧ command = .get) ∧
      (command = .setNx → scheduler.pc = .acquire) := by
  rw [move] at hmove
  cases hpc : scheduler.pc with
  | loop =>
    simp only [hpc] at hmove
    split at hmove
    · cases hmove
      simp [Pc.writes]
    · split at hmove <;> cases hmove <;> simp [Pc.writes]
  | renew =>
    simp only [hpc] at hmove
    split at hmove
    next hmatches =>
      cases hmove
      simp only [Bool.and_eq_true, decide_eq_true_eq] at hmatches
      exact ⟨rfl, fun _ => ⟨hmatches.2, rfl⟩, by simp⟩
    next =>
      cases hmove
      simp [Pc.writes]
  | release =>
    simp only [hpc] at hmove
    split at hmove
    next =>
      cases hmove
      simp [Pc.writes]
    next =>
      split at hmove
      next hmatches =>
        cases hmove
        exact ⟨rfl, fun _ => ⟨hmatches, rfl⟩, by simp⟩
      next =>
        cases hmove
        simp [Pc.writes]
  | acquire | check | extend | delete =>
    simp only [hpc] at hmove
    split at hmove <;> cases hmove <;> simp [Pc.writes]
  | exited =>
    simp only [hpc] at hmove
    cases hmove

theorem writes_stop {scheduler : Instance} : scheduler.stop.pc.writes = false := by
  rw [stop]
  split
  · cases scheduler.hasLock <;> rfl
  · rfl

theorem lockValue_stop (scheduler : Instance) : scheduler.stop.lockValue = scheduler.lockValue := by
  rw [stop]
  split <;> rfl

end Instance

namespace Cluster

theorem stored_of_perform {cluster : Cluster} {fault : Fault} {value : LockValue}
    {command : Command} (hkeeps : command = .setNx → fault = .lost ∨ cluster.stored.isSome = true)
    {seen : LockValue} (hseen : (cluster.perform fault value command).stored = some seen) :
    cluster.stored = some seen := by
  rw [perform] at hseen
  split at hseen
  next => exact hseen
  next hlands =>
    cases command with
    | none | get => exact hseen
    | setNx =>
      rw [exec, if_pos ((hkeeps rfl).resolve_left hlands)] at hseen
      exact hseen
    | pexpire =>
      simp only [exec, stored, Option.map_eq_some_iff, Option.filter_eq_some_iff] at hseen ⊢
      obtain ⟨entry, ⟨⟨holder, hholder, rfl⟩, _⟩, rfl⟩ := hseen
      exact hholder
    | delete => cases hseen

namespace Exclusive

variable {cluster : Cluster}

theorem empty (lockTtl : Time) : Exclusive (Cluster.empty lockTtl) :=
  ⟨List.nodup_nil, by simp [Cluster.empty]⟩

theorem frame (hexclusive : Exclusive cluster) {next : Cluster}
    (hinstances : next.instances = cluster.instances)
    (hstored : ∀ value, next.stored = some value → cluster.stored = some value) :
    Exclusive next := by
  refine ⟨by rw [hinstances]; exact hexclusive.distinct, ?_⟩
  rw [hinstances]
  intro scheduler hmem hwrites value hvalue
  exact hexclusive.own scheduler hmem hwrites value (hstored value hvalue)

theorem update (hexclusive : Exclusive cluster) {index : Nat} {scheduler next : Instance}
    (hscheduler : cluster.instances[index]? = some scheduler)
    (hvalue : next.lockValue = scheduler.lockValue)
    (hown : next.pc.writes = true → ∀ value, cluster.stored = some value →
      value = scheduler.lockValue) : Exclusive (cluster.update index next) := by
  constructor
  · have hsame : (cluster.instances.set index next).map Instance.lockValue =
        cluster.instances.map Instance.lockValue := by
      apply List.ext_getElem?
      intro other
      rw [List.getElem?_map, List.getElem?_map, List.getElem?_set]
      split
      next heq =>
        subst heq
        obtain ⟨hlt, _⟩ := List.getElem?_eq_some_iff.mp hscheduler
        rw [if_pos hlt, hscheduler, Option.map_some, Option.map_some, hvalue]
      next => rfl
    change ((cluster.instances.set index next).map Instance.lockValue).Nodup
    rw [hsame]
    exact hexclusive.distinct
  · intro other hmem hwrites value hstored
    obtain hold | rfl := List.mem_or_eq_of_mem_set hmem
    · exact hexclusive.own other hold hwrites value hstored
    · rw [hvalue]
      exact hown hwrites value hstored

theorem tick (hexclusive : Exclusive cluster) (elapsed : Nat) :
    Exclusive { cluster with now := cluster.now + elapsed } := by
  refine hexclusive.frame rfl fun value hvalue => ?_
  simp only [stored, Option.map_eq_some_iff, Option.filter_eq_some_iff,
    decide_eq_true_eq] at hvalue ⊢
  obtain ⟨entry, ⟨hkey, hlive⟩, rfl⟩ := hvalue
  exact ⟨entry, ⟨hkey, lt_of_le_of_lt (by simp) hlive⟩, rfl⟩

theorem start (hexclusive : Exclusive cluster) {value : LockValue}
    (hfresh : ∀ scheduler ∈ cluster.instances, scheduler.lockValue ≠ value) :
    Exclusive { cluster with instances := cluster.instances ++ [{ lockValue := value }] } := by
  constructor
  · rw [List.map_append, List.nodup_append]
    refine ⟨hexclusive.distinct, List.nodup_singleton _, ?_⟩
    intro first hfirst second hsecond
    obtain ⟨scheduler, hmem, rfl⟩ := List.mem_map.mp hfirst
    obtain rfl : second = value := by simpa using hsecond
    exact hfresh scheduler hmem
  · intro scheduler hmem hwrites seen hseen
    obtain hold | hnew := List.mem_append.mp hmem
    · exact hexclusive.own scheduler hold hwrites seen hseen
    · obtain rfl := List.mem_singleton.mp hnew
      cases hwrites

theorem moved (hexclusive : Exclusive cluster) {index : Nat} {fault : Fault} {renewDue : Bool}
    {scheduler next : Instance} {command : Command}
    (hscheduler : cluster.instances[index]? = some scheduler)
    (hmove : scheduler.move cluster.stored fault renewDue = some (next, command))
    (hunwatched : cluster.takesUnwatched (.advance index fault renewDue) = true) :
    Exclusive ((cluster.perform fault scheduler.lockValue command).update index next) := by
  obtain ⟨hvalue, hwrites, htakes⟩ := Instance.move_cases hmove
  have hinstances : (cluster.perform fault scheduler.lockValue command).instances =
      cluster.instances := by
    rw [perform]
    split
    · rfl
    · cases command with
      | setNx =>
        rw [exec]
        split <;> rfl
      | _ => rfl
  have hindex : (cluster.perform fault scheduler.lockValue command).instances[index]? =
      some scheduler := by
    rw [hinstances]
    exact hscheduler
  by_cases hkeeps : command = .setNx → fault = .lost ∨ cluster.stored.isSome = true
  · refine (hexclusive.frame hinstances fun _ => stored_of_perform hkeeps).update hindex hvalue ?_
    intro hnext value hstored
    have hown := (hwrites hnext).1
    rw [stored_of_perform hkeeps hstored, Option.some.injEq] at hown
    exact hown
  · push Not at hkeeps
    obtain ⟨hcommand, hlands, hfree⟩ := hkeeps
    -- The key is taken, and by the condition no instance is about to write.
    have hquiet : ∀ other ∈ cluster.instances, other.pc.writes = false := by
      simpa [takesUnwatched, hscheduler, htakes hcommand, hlands, hfree] using hunwatched
    have hperformed : Exclusive (cluster.perform fault scheduler.lockValue command) := by
      refine ⟨by rw [hinstances]; exact hexclusive.distinct, ?_⟩
      rw [hinstances]
      intro other hmem hother
      rw [hquiet other hmem] at hother
      cases hother
    refine hperformed.update hindex hvalue fun hnext => ?_
    rw [(hwrites hnext).2] at hcommand
    cases hcommand

theorem step {action : Action} {next : Cluster} (hexclusive : Exclusive cluster)
    (hunwatched : cluster.takesUnwatched action = true)
    (hstep : cluster.step action = some next) : Exclusive next := by
  cases action with
  | tick elapsed =>
    cases hstep
    exact hexclusive.tick elapsed
  | start value =>
    simp only [Cluster.step] at hstep
    split at hstep
    next hfresh =>
      cases hstep
      exact hexclusive.start (by simpa using hfresh)
    next => cases hstep
  | advance index fault renewDue =>
    simp only [Cluster.step, Option.bind_eq_some_iff, Option.map_eq_some_iff] at hstep
    obtain ⟨scheduler, hscheduler, ⟨moved, command⟩, hmove, rfl⟩ := hstep
    exact hexclusive.moved hscheduler hmove hunwatched
  | stop index =>
    simp only [Cluster.step, Option.map_eq_some_iff] at hstep
    obtain ⟨scheduler, hscheduler, rfl⟩ := hstep
    refine hexclusive.update hscheduler scheduler.lockValue_stop fun hwrites => ?_
    rw [Instance.writes_stop] at hwrites
    cases hwrites
  | crash index =>
    simp only [Cluster.step, Option.map_eq_some_iff] at hstep
    obtain ⟨scheduler, hscheduler, rfl⟩ := hstep
    exact hexclusive.update hscheduler rfl fun hwrites => by cases hwrites
  | forceRelease =>
    cases hstep
    exact hexclusive.frame rfl fun value hvalue => by cases hvalue

theorem ownWrites (hexclusive : Exclusive cluster) (action : Action) (next : Cluster) :
    OwnWrites cluster action next := by
  intro index fault renewDue scheduler _ hscheduler hwrites _ other holder hne hholder hstored
  have hvalue := hexclusive.own scheduler (List.mem_of_getElem? hscheduler) hwrites
    holder.lockValue hstored
  have hfirst : (cluster.instances.map Instance.lockValue)[other]? =
      (cluster.instances.map Instance.lockValue)[index]? := by
    rw [List.getElem?_map, List.getElem?_map, hholder, hscheduler, Option.map_some,
      Option.map_some, hvalue]
  obtain ⟨hlt, _⟩ := List.getElem?_eq_some_iff.mp hholder
  exact hne ((List.getElem?_inj (by simpa using hlt) hexclusive.distinct).mp hfirst)

end Exclusive

end Cluster

open Cluster

/-- No instance extends or deletes another's lock in a run in which nobody takes
the key between a matching GET and its write. -/
theorem ownWrites_of_takesUnwatched (lockTtl : Time) (actions : List Action)
    (hunwatched : EachStep Cluster.step (fun cluster action _ => cluster.takesUnwatched action)
      (Cluster.empty lockTtl) actions) :
    EachStep Cluster.step OwnWrites (Cluster.empty lockTtl) actions :=
  EachStep.of_invariant
    (fun _ _ _ hexclusive hunwatched hstep =>
      ⟨hexclusive.step hunwatched hstep, hexclusive.ownWrites _ _⟩)
    (Exclusive.empty lockTtl) hunwatched

def advances (index : Nat) (renewals : List Bool) : List Action :=
  renewals.map fun renewDue => .advance index .none renewDue

/-- One instance takes the lock and renews it, a second one fails to take it and
takes it after the first has released it. -/
def handedOver : List Action :=
  [.start 7, .start 8] ++ advances 0 [false, false, true, false, false] ++
  advances 1 [false, false] ++ [.stop 0] ++ advances 0 [false, false] ++
  advances 1 [false, false]

theorem ownWrites_handedOver :
    EachStep Cluster.step OwnWrites (Cluster.empty 5000000) handedOver :=
  ownWrites_of_takesUnwatched 5000000 handedOver (by decide)

/-- An instance reads its own value when it releases, stalls until the key has
expired and another one has taken it, and then deletes it. -/
def stalledRelease : List Action :=
  [.start 7, .start 8] ++ advances 0 [false, false] ++ [.stop 0] ++ advances 0 [false] ++
  [.tick 5000001] ++ advances 1 [false, false] ++ advances 0 [false]

/-- The second leader's key is deleted by the first. -/
theorem not_ownWrites_stalledRelease :
    ¬ EachStep Cluster.step OwnWrites (Cluster.empty 5000000) stalledRelease := by
  let check (cluster : Cluster) (action : Action) : Bool :=
    match action with
    | .advance 0 .none _ =>
      cluster.instances.head?.all fun scheduler =>
        !scheduler.pc.writes || (cluster.instances[1]?).all fun holder =>
          cluster.stored ≠ some holder.lockValue
    | _ => true
  have hcheck (cluster : Cluster) (action : Action) (next : Cluster)
      (hown : OwnWrites cluster action next) : check cluster action = true := by
    simp only [check]
    split
    next renewDue =>
      rw [Option.all_eq_true]
      intro scheduler hscheduler
      rw [Bool.or_eq_true, Bool.not_eq_true', Option.all_eq_true]
      rw [or_iff_not_imp_left, Bool.not_eq_false]
      intro hwrites holder hholder
      rw [List.head?_eq_getElem?] at hscheduler
      exact decide_eq_true
        (hown 0 .none renewDue scheduler rfl hscheduler hwrites (by simp) 1 holder (by simp) hholder)
    next => rfl
  have hfails : ¬ EachStep Cluster.step (fun cluster action _ => check cluster action)
      (Cluster.empty 5000000) stalledRelease := by decide
  exact fun heach => hfails (heach.imp hcheck)

end DjangoMojo.Jobs.SchedulerLock
