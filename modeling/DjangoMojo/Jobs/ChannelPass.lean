import DjangoMojo.Jobs.Process

/-! # One pass of the scheduler over a channel

`_process_channel` as one call: the batches are popped off both sorted sets in
turn, the entries that are due go to the queue of the channel, and the others
are put back. No process comes between its commands here; the pass as steps
among those of other processes is `SchedulePc`.
-/

namespace DjangoMojo.Jobs

open Foundation

/-- What a pass works on: the Redis keys, the number of `rpush` calls so far
and the counter of the scheduler. -/
structure Pass where
  redis : Redis
  calls : Nat
  jobsScheduled : Nat

namespace Pass

def exec (pass : Pass) (command : Command) : Pass :=
  { pass with redis := command.execRedis pass.redis }

/-- An `rpush` call that the server answers. -/
def enqueue (pass : Pass) (channel : Channel) (id : JobId) : Pass :=
  { pass.exec (.rpush channel id) with
    calls := pass.calls + 1
    jobsScheduled := pass.jobsScheduled + 1 }

/-- An `rpush` call that raises. -/
def failed (pass : Pass) : Pass := { pass with calls := pass.calls + 1 }

variable (fails : Nat → Bool) (nowMs : Time) (channel : Channel)

/-- One popped batch, with the entries that go back. `fails` tells which of the
`rpush` calls raise. -/
def routeBatch (pass : Pass) : List (Int × JobId) → Pass × List (Int × JobId)
  | [] => (pass, [])
  | entry :: rest =>
    if nowMs < entry.1 then
      let routed := routeBatch pass rest
      (routed.1, entry :: routed.2)
    else if fails pass.calls then
      let routed := routeBatch pass.failed rest
      (routed.1, entry :: routed.2)
    else routeBatch (pass.enqueue channel entry.2) rest

theorem zset_routeBatch (pass : Pass) (batch : List (Int × JobId)) :
    (routeBatch fails nowMs channel pass batch).1.redis.zset = pass.redis.zset := by
  induction batch generalizing pass with
  | nil => rfl
  | cons entry rest ih =>
    rw [routeBatch]
    split
    · exact ih pass
    · split
      · exact ih pass.failed
      · exact ih (pass.enqueue channel entry.2)

/-- `zpopmin` and the batch that it popped. -/
def popBatch (zset : Zset) (pass : Pass) : Pass × List (Int × JobId) :=
  routeBatch fails nowMs channel (pass.exec (.zpopmin zset channel schedulerBatch))
    ((pass.redis.zset zset channel).lowest schedulerBatch)

theorem zset_popBatch (zset : Zset) (pass : Pass) :
    (popBatch fails nowMs channel zset pass).1.redis.zset zset channel =
      (pass.redis.zset zset channel).dropLowest schedulerBatch := by
  rw [popBatch, zset_routeBatch]
  simp [exec, Command.execRedis]

/-- The loop over one sorted set: it ends with an empty set, or with the batch
of which something had to go back. -/
def drain (zset : Zset) (pass : Pass) : Pass :=
  if (pass.redis.zset zset channel).entries = [] then pass
  else
    let popped := popBatch fails nowMs channel zset pass
    if popped.2 = [] then drain zset popped.1
    else popped.1.exec (.zadd zset channel popped.2)
termination_by (pass.redis.zset zset channel).entries.length
decreasing_by
  rename_i hfull _
  rw [zset_popBatch, SortedSet.dropLowest, List.length_drop]
  have hpos := List.length_pos_of_ne_nil hfull
  have hbatch : 0 < schedulerBatch := by decide
  omega

/-- `pause` is what `GET` on the pause flag answers, `none` when it raises. -/
def processChannel (pause : Option Bool) (pass : Pass) : Pass :=
  if pause = some true then pass
  else drain fails nowMs channel .schedBroadcast (drain fails nowMs channel .sched pass)

variable {fails nowMs channel} {pass next last : Pass} {moved : List (Int × JobId)}

/-- From one state of the pass to another, `moved` went to the end of the queue. -/
structure Enqueues (channel : Channel) (pass next : Pass) (moved : List (Int × JobId)) : Prop where
  queue : ∀ other, next.redis.queue other =
    if other = channel then pass.redis.queue other ++ moved.map Prod.snd
    else pass.redis.queue other
  lock : next.redis.reaperLock = pass.redis.reaperLock
  calls : pass.calls ≤ next.calls
  counted : next.jobsScheduled = pass.jobsScheduled + moved.length

/-- None of the `rpush` calls in between raised. -/
def NoneFails (fails : Nat → Bool) (pass next : Pass) : Prop :=
  ∀ call, pass.calls ≤ call → call < next.calls → fails call = false

namespace Enqueues

theorem of_quiet (hredis : ∀ other, next.redis.queue other = pass.redis.queue other)
    (hlock : next.redis.reaperLock = pass.redis.reaperLock) (hcalls : pass.calls ≤ next.calls)
    (hcounted : next.jobsScheduled = pass.jobsScheduled) : Enqueues channel pass next [] where
  queue other := by simp [hredis other]
  lock := hlock
  calls := hcalls
  counted := hcounted

theorem enqueue (pass : Pass) (entry : Int × JobId) :
    Enqueues channel pass (pass.enqueue channel entry.2) [entry] where
  queue _ := rfl
  lock := rfl
  calls := Nat.le_succ _
  counted := rfl

theorem trans {later : List (Int × JobId)} (hfirst : Enqueues channel pass next moved)
    (hsecond : Enqueues channel next last later) :
    Enqueues channel pass last (moved ++ later) where
  queue other := by
    rw [hsecond.queue, hfirst.queue]
    split
    · rw [List.map_append, List.append_assoc]
    · rfl
  lock := hsecond.lock.trans hfirst.lock
  calls := hfirst.calls.trans hsecond.calls
  counted := by rw [hsecond.counted, hfirst.counted, List.length_append, Nat.add_assoc]

theorem noneFails_left {later : List (Int × JobId)} (hsecond : Enqueues channel next last later)
    (hnone : NoneFails fails pass last) : NoneFails fails pass next := fun call hlow hhigh =>
  hnone call hlow (hhigh.trans_le hsecond.calls)

theorem noneFails_right (hfirst : Enqueues channel pass next moved)
    (hnone : NoneFails fails pass last) : NoneFails fails next last := fun call hlow hhigh =>
  hnone call (hfirst.calls.trans hlow) hhigh

end Enqueues

/-- A batch splits into the entries that went to the queue, in order, and those
that go back; without a failed call only entries that are not due go back. -/
theorem routeBatch_splits (fails : Nat → Bool) (nowMs : Time) (channel : Channel)
    (pass : Pass) (batch : List (Int × JobId)) :
    ∃ moved, Enqueues channel pass (routeBatch fails nowMs channel pass batch).1 moved ∧
      List.Sublist moved batch ∧
      (moved ++ (routeBatch fails nowMs channel pass batch).2).Perm batch ∧
      (∀ entry ∈ moved, entry.1 ≤ nowMs) ∧
      (NoneFails fails pass (routeBatch fails nowMs channel pass batch).1 →
        ∀ entry ∈ (routeBatch fails nowMs channel pass batch).2, nowMs < entry.1) := by
  induction batch generalizing pass with
  | nil =>
    exact ⟨[], .of_quiet (fun _ => rfl) rfl le_rfl rfl, .slnil, .nil, by simp,
      fun _ entry hentry => nomatch hentry⟩
  | cons entry rest ih =>
    rw [routeBatch]
    by_cases hlate : nowMs < entry.1
    case pos =>
      obtain ⟨moved, henqueues, hsub, hperm, hdue, hheld⟩ := ih pass
      rw [if_pos hlate]
      refine ⟨moved, henqueues, hsub.cons _, ?_, hdue, fun hnone other hother => ?_⟩
      · exact List.perm_middle.trans (hperm.cons entry)
      · obtain rfl | hrest := List.mem_cons.mp hother
        · exact hlate
        · exact hheld hnone other hrest
    rw [if_neg hlate]
    cases hfails : fails pass.calls with
    | true =>
      obtain ⟨moved, henqueues, hsub, hperm, hdue, _⟩ := ih pass.failed
      have hfailed : Enqueues channel pass pass.failed [] :=
        .of_quiet (fun _ => rfl) rfl (Nat.le_succ _) rfl
      rw [if_pos rfl]
      refine ⟨moved, hfailed.trans henqueues, hsub.cons _, ?_, hdue, fun hnone => ?_⟩
      · exact List.perm_middle.trans (hperm.cons entry)
      · have hcall := hnone pass.calls le_rfl henqueues.calls
        rw [hfails] at hcall
        cases hcall
    | false =>
      obtain ⟨moved, henqueues, hsub, hperm, hdue, hheld⟩ := ih (pass.enqueue channel entry.2)
      have hfirst : Enqueues channel pass (pass.enqueue channel entry.2) [entry] :=
        .enqueue pass entry
      rw [if_neg Bool.false_ne_true]
      refine ⟨entry :: moved, hfirst.trans henqueues, hsub.cons_cons entry,
        hperm.cons entry, ?_, fun hnone => hheld (hfirst.noneFails_right hnone)⟩
      intro other hother
      obtain rfl | hrest := List.mem_cons.mp hother
      · exact not_lt.mp hlate
      · exact hdue other hrest

/-- `moved` left a sorted set: nothing else left it, and nothing came. -/
structure Leaves (before after : SortedSet JobId) (moved : List (Int × JobId)) : Prop where
  sublist : List.Sublist moved before.entries
  split : ∀ entry, entry ∈ before.entries ↔ entry ∈ moved ∨ entry ∈ after.entries
  gone : ∀ entry ∈ moved, entry.2 ∉ after

namespace Leaves

variable {before middle after : SortedSet JobId} {batch notDue : List (Int × JobId)}

theorem refl (before : SortedSet JobId) : Leaves before before [] where
  sublist := List.nil_sublist _
  split entry := by simp
  gone _ hentry := nomatch hentry

theorem batch_trans (count : Nat) (hrest : Leaves (before.dropLowest count) after moved) :
    Leaves before after (before.lowest count ++ moved) where
  sublist := by
    have hboth := List.Sublist.append_left hrest.sublist (before.lowest count)
    rwa [SortedSet.lowest, SortedSet.dropLowest, List.take_append_drop] at hboth
  split entry := by
    rw [List.mem_append, or_assoc, ← hrest.split, SortedSet.lowest, SortedSet.dropLowest,
      ← List.mem_append, List.take_append_drop]
  gone entry hentry := by
    obtain hbatch | hmoved := List.mem_append.mp hentry
    · intro hmem
      obtain ⟨other, hother, hsame⟩ := List.mem_map.mp hmem
      have hdropped := (hrest.split other).mpr (.inr hother)
      have hnodup := before.nodup
      rw [← List.take_append_drop count before.entries, List.map_append] at hnodup
      exact List.disjoint_of_nodup_append hnodup (List.mem_map_of_mem hbatch)
        (hsame ▸ List.mem_map_of_mem hdropped)
    · exact hrest.gone entry hmoved

theorem reinsert (count : Nat) (hsub : List.Sublist moved (before.lowest count))
    (hperm : (moved ++ notDue).Perm (before.lowest count)) :
    Leaves before ((before.dropLowest count).addAll notDue) moved := by
  have hnodup := before.nodup
  rw [← List.take_append_drop count before.entries, List.map_append] at hnodup
  have hapart := List.disjoint_of_nodup_append hnodup
  have hbatch : ((moved ++ notDue).map Prod.snd).Nodup :=
    (hperm.map Prod.snd).nodup_iff.mpr hnodup.of_append_left
  rw [List.map_append] at hbatch
  have hfresh : ∀ member ∈ notDue.map Prod.snd, member ∉ before.dropLowest count :=
    fun member hmember hdropped => by
      obtain ⟨entry, hentry, rfl⟩ := List.mem_map.mp hmember
      have hlow := hperm.mem_iff.mp (List.mem_append_right moved hentry)
      exact hapart (List.mem_map_of_mem hlow) hdropped
  refine ⟨hsub.trans (List.take_sublist _ _), fun entry => ?_, fun entry hentry hadded => ?_⟩
  · rw [SortedSet.mem_entries_addAll hbatch.of_append_right hfresh]
    have hlow := hperm.mem_iff (a := entry)
    rw [List.mem_append, SortedSet.lowest] at hlow
    conv_lhs => rw [← List.take_append_drop count before.entries, List.mem_append, ← hlow]
    rw [SortedSet.dropLowest]
    tauto
  · obtain hdropped | hback := SortedSet.mem_addAll.mp hadded
    · exact hapart (List.mem_map_of_mem (hsub.subset hentry)) hdropped
    · exact List.disjoint_of_nodup_append hbatch (List.mem_map_of_mem hentry) hback

end Leaves

theorem zset_exec_of_ne {zset kind : Zset} {other : Channel}
    (hother : ¬ (kind = zset ∧ other = channel)) (pass : Pass) (notDue : List (Int × JobId)) :
    (pass.exec (.zpopmin zset channel schedulerBatch)).redis.zset kind other =
        pass.redis.zset kind other ∧
      (pass.exec (.zadd zset channel notDue)).redis.zset kind other =
        pass.redis.zset kind other :=
  ⟨if_neg hother, if_neg hother⟩

theorem zset_popBatch_of_ne {zset kind : Zset} {other : Channel}
    (hother : ¬ (kind = zset ∧ other = channel)) (pass : Pass) :
    (popBatch fails nowMs channel zset pass).1.redis.zset kind other =
      pass.redis.zset kind other := by
  rw [popBatch, zset_routeBatch]
  exact (zset_exec_of_ne hother pass []).1

theorem popBatch_splits (fails : Nat → Bool) (nowMs : Time) (channel : Channel)
    (zset : Zset) (pass : Pass) :
    ∃ moved, Enqueues channel pass (popBatch fails nowMs channel zset pass).1 moved ∧
      List.Sublist moved ((pass.redis.zset zset channel).lowest schedulerBatch) ∧
      (moved ++ (popBatch fails nowMs channel zset pass).2).Perm
        ((pass.redis.zset zset channel).lowest schedulerBatch) ∧
      (∀ entry ∈ moved, entry.1 ≤ nowMs) ∧
      (NoneFails fails pass (popBatch fails nowMs channel zset pass).1 →
        ∀ entry ∈ (popBatch fails nowMs channel zset pass).2, nowMs < entry.1) := by
  obtain ⟨moved, henqueues, hrest⟩ := routeBatch_splits fails nowMs channel
    (pass.exec (.zpopmin zset channel schedulerBatch))
    ((pass.redis.zset zset channel).lowest schedulerBatch)
  have hpop : Enqueues channel pass (pass.exec (.zpopmin zset channel schedulerBatch)) [] :=
    .of_quiet (fun _ => rfl) rfl le_rfl rfl
  exact ⟨moved, hpop.trans henqueues, hrest⟩

structure Drains (fails : Nat → Bool) (nowMs : Time) (channel : Channel) (zset : Zset)
    (pass next : Pass) (moved : List (Int × JobId)) : Prop where
  enqueues : Enqueues channel pass next moved
  leaves : Leaves (pass.redis.zset zset channel) (next.redis.zset zset channel) moved
  due : ∀ entry ∈ moved, entry.1 ≤ nowMs
  others : ∀ kind other, ¬ (kind = zset ∧ other = channel) →
    next.redis.zset kind other = pass.redis.zset kind other
  all : NoneFails fails pass next →
    ∀ entry ∈ (pass.redis.zset zset channel).entries, entry.1 ≤ nowMs → entry ∈ moved

theorem lowest_le {set : SortedSet JobId} {count : Nat} {low entry : Int × JobId}
    (hlow : low ∈ set.lowest count) (hentry : entry ∈ (set.dropLowest count).entries) :
    low.1 ≤ entry.1 := by
  have hsorted := set.sorted
  rw [← List.take_append_drop count set.entries, List.pairwise_append] at hsorted
  have hprecedes : toLex low ≤ toLex entry := hsorted.2.2 low hlow entry hentry
  exact (Prod.Lex.le_iff.mp hprecedes).elim le_of_lt fun hsame => hsame.1.le

theorem drain_spec (fails : Nat → Bool) (nowMs : Time) (channel : Channel)
    (zset : Zset) (pass : Pass) :
    ∃ moved, Drains fails nowMs channel zset pass (drain fails nowMs channel zset pass) moved := by
  induction pass using drain.induct fails nowMs channel zset with
  | case1 pass hempty =>
    rw [drain, if_pos hempty]
    exact ⟨[], .of_quiet (fun _ => rfl) rfl le_rfl rfl, .refl _, by simp, fun _ _ _ => rfl,
      fun _ entry hentry => absurd (hempty ▸ hentry) List.not_mem_nil⟩
  | case2 pass hfull popped hnone ih =>
    obtain ⟨batch, henqueues, hsub, hperm, hdue, _⟩ :=
      popBatch_splits fails nowMs channel zset pass
    obtain ⟨moved, hdrains⟩ := ih
    rw [drain, if_neg hfull, if_pos hnone]
    rw [show (popBatch fails nowMs channel zset pass).2 = [] from hnone, List.append_nil] at hperm
    obtain rfl := hsub.eq_of_length hperm.length_eq
    have hleaves := hdrains.leaves
    rw [show popped.1.redis.zset zset channel = _ from zset_popBatch ..] at hleaves
    refine ⟨_, henqueues.trans hdrains.enqueues, hleaves.batch_trans schedulerBatch, ?_,
      fun kind other hother => ?_, fun hnofail entry hentry hscore => ?_⟩
    · intro entry hentry
      exact (List.mem_append.mp hentry).elim (hdue entry) (hdrains.due entry)
    · exact (hdrains.others kind other hother).trans (zset_popBatch_of_ne hother pass)
    · rw [← List.take_append_drop schedulerBatch (pass.redis.zset zset channel).entries] at hentry
      refine List.mem_append.mpr ((List.mem_append.mp hentry).imp_right fun hdropped => ?_)
      refine hdrains.all (henqueues.noneFails_right hnofail) entry ?_ hscore
      rw [show popped.1.redis.zset zset channel = _ from zset_popBatch ..]
      exact hdropped
  | case3 pass hfull popped hsome =>
    obtain ⟨moved, henqueues, hsub, hperm, hdue, hheld⟩ :=
      popBatch_splits fails nowMs channel zset pass
    rw [drain, if_neg hfull, if_neg hsome]
    have hleft : (popped.1.exec (.zadd zset channel popped.2)).redis.zset zset channel =
        ((pass.redis.zset zset channel).dropLowest schedulerBatch).addAll popped.2 := by
      rw [← zset_popBatch fails nowMs channel zset pass]
      exact if_pos ⟨rfl, rfl⟩
    have hback : Enqueues channel popped.1 (popped.1.exec (.zadd zset channel popped.2)) [] :=
      .of_quiet (fun _ => rfl) rfl le_rfl rfl
    refine ⟨moved, ?_, hleft ▸ .reinsert schedulerBatch hsub hperm, hdue,
      fun kind other hother => ?_, fun hnofail entry hentry hscore => ?_⟩
    · have hall := henqueues.trans hback
      rwa [List.append_nil] at hall
    · exact (zset_exec_of_ne hother popped.1 popped.2).2.trans (zset_popBatch_of_ne hother pass)
    · have hlate := hheld hnofail
      obtain ⟨back, hmem⟩ := List.exists_mem_of_ne_nil _ hsome
      rw [← List.take_append_drop schedulerBatch (pass.redis.zset zset channel).entries] at hentry
      obtain hlow | hdropped := List.mem_append.mp hentry
      · refine (List.mem_append.mp (hperm.mem_iff.mpr hlow)).elim id fun hmember => ?_
        exact absurd hscore (not_le.mpr (hlate entry hmember))
      · have hfirst := lowest_le (hperm.mem_iff.mp (List.mem_append_right moved hmem)) hdropped
        exact absurd (hfirst.trans hscore) (not_le.mpr (hlate back hmem))

/-- Each entry of a sorted set is in one place afterwards: once in the queue,
or in the set with its score. Only entries that are due move, in order of score. -/
structure Promotes (nowMs : Time) (before after : SortedSet JobId)
    (moved : List (Int × JobId)) : Prop where
  once : (moved.map Prod.snd).Nodup
  onePlace : ∀ entry ∈ before.entries,
    entry ∈ moved ∧ entry.2 ∉ after ∨ entry.2 ∉ moved.map Prod.snd ∧ entry ∈ after.entries
  nothingNew : ∀ entry, entry ∈ moved ∨ entry ∈ after.entries → entry ∈ before.entries
  due : ∀ entry ∈ moved, entry.1 ≤ nowMs
  ordered : moved.Pairwise fun first second => first.1 ≤ second.1

theorem Leaves.promotes {before after : SortedSet JobId} (hleaves : Leaves before after moved)
    (hdue : ∀ entry ∈ moved, entry.1 ≤ nowMs) : Promotes nowMs before after moved where
  once := before.nodup.sublist (hleaves.sublist.map Prod.snd)
  onePlace entry hentry := by
    obtain hmoved | hstays := (hleaves.split entry).mp hentry
    · exact .inl ⟨hmoved, hleaves.gone entry hmoved⟩
    · refine .inr ⟨fun hmember => ?_, hstays⟩
      obtain ⟨other, hother, hsame⟩ := List.mem_map.mp hmember
      exact hleaves.gone other hother (hsame ▸ List.mem_map_of_mem hstays)
  nothingNew entry := (hleaves.split entry).mpr
  due := hdue
  ordered := by
    refine (before.sorted.sublist hleaves.sublist).imp fun {first second} hprecedes => ?_
    have hlex : toLex first ≤ toLex second := hprecedes
    exact (Prod.Lex.le_iff.mp hlex).elim le_of_lt fun hsame => hsame.1.le

/-- A pass keeps every job id of the two sorted sets in one place; without a
failed call it moves all that is due, and a paused channel is left as it is. -/
theorem processChannel_conserves (fails : Nat → Bool) (nowMs : Time) (channel : Channel)
    (pause : Option Bool) (pass : Pass) :
    ∃ plain broadcast,
      (processChannel fails nowMs channel pause pass).redis.queue channel =
        pass.redis.queue channel ++ plain.map Prod.snd ++ broadcast.map Prod.snd ∧
      Promotes nowMs (pass.redis.zset .sched channel)
        ((processChannel fails nowMs channel pause pass).redis.zset .sched channel) plain ∧
      Promotes nowMs (pass.redis.zset .schedBroadcast channel)
        ((processChannel fails nowMs channel pause pass).redis.zset .schedBroadcast channel)
        broadcast ∧
      (pause = some true → processChannel fails nowMs channel pause pass = pass) ∧
      (pause ≠ some true →
        NoneFails fails pass (processChannel fails nowMs channel pause pass) →
        (∀ entry ∈ (pass.redis.zset .sched channel).entries, entry.1 ≤ nowMs → entry ∈ plain) ∧
        ∀ entry ∈ (pass.redis.zset .schedBroadcast channel).entries, entry.1 ≤ nowMs →
          entry ∈ broadcast) := by
  by_cases hpause : pause = some true
  case pos =>
    rw [processChannel, if_pos hpause]
    exact ⟨[], [], by simp, (Leaves.refl _).promotes (by simp), (Leaves.refl _).promotes (by simp),
      fun _ => rfl, fun hopen => absurd hpause hopen⟩
  rw [processChannel, if_neg hpause]
  obtain ⟨plain, hplain⟩ := drain_spec fails nowMs channel .sched pass
  obtain ⟨broadcast, hbroadcast⟩ := drain_spec fails nowMs channel .schedBroadcast
    (drain fails nowMs channel .sched pass)
  have hsched := hbroadcast.others .sched channel (by simp)
  have hmiddle := hplain.others .schedBroadcast channel (by simp)
  refine ⟨plain, broadcast, ?_, ?_, ?_, fun hpaused => absurd hpaused hpause,
    fun _ hnone => ⟨?_, ?_⟩⟩
  · have hqueue := (hplain.enqueues.trans hbroadcast.enqueues).queue channel
    rwa [if_pos rfl, List.map_append, ← List.append_assoc] at hqueue
  · rw [hsched]
    exact hplain.leaves.promotes hplain.due
  · rw [← hmiddle]
    exact hbroadcast.leaves.promotes hbroadcast.due
  · exact hplain.all (hbroadcast.enqueues.noneFails_left hnone)
  · have hall := hbroadcast.all (hplain.enqueues.noneFails_right hnone)
    rwa [hmiddle] at hall

end Pass

/-! ### The pass as steps of the scheduler -/

theorem Command.zpopmin_of_empty {redis : Redis} {zset : Zset} {channel : Channel}
    (hempty : (redis.zset zset channel).entries = []) (count : Nat) :
    (Command.zpopmin zset channel count).execRedis redis = redis := by
  have hsets : ((Command.zpopmin zset channel count).execRedis redis).zset = redis.zset := by
    funext kind other
    simp only [Command.execRedis]
    split
    next hsame =>
      rw [hsame.1, hsame.2]
      exact SortedSet.dropLowest_of_empty hempty count
    next => rfl
  exact congrArg (fun sets => { redis with zset := sets }) hsets

namespace SchedulePc

/-- One step of a scheduler pass while every other process stands still. -/
def StepsAlone (moment : Time) (before after : SchedulePc × Store) : Prop :=
  ∃ env move, before.1.move env before.2 moment = some move ∧
    after = (move.next, before.2.perform env.fault move.command)

open Relation (ReflTransGen)

section

variable (fails : Nat → Bool) (moment : Time) (zset : Zset) (channel : Channel)
  (rest : List Channel) (jobs : Table JobId Job)

theorem routeBatch_steps (pass : Pass) (batch notDue : List (Int × JobId)) :
    ReflTransGen (StepsAlone moment)
      (afterEntry zset channel rest batch notDue, ⟨jobs, pass.redis⟩)
      (afterEntry zset channel rest []
          (notDue ++ (pass.routeBatch fails moment channel batch).2),
        ⟨jobs, (pass.routeBatch fails moment channel batch).1.redis⟩) := by
  induction batch generalizing pass notDue with
  | nil =>
    rw [Pass.routeBatch, List.append_nil]
  | cons entry batch ih =>
    have hroute : afterEntry zset channel rest (entry :: batch) notDue =
        .route zset channel rest (entry :: batch) notDue := by cases notDue <;> rfl
    rw [hroute, Pass.routeBatch]
    by_cases hlate : moment < entry.1
    case pos =>
      have hrest := ih pass (notDue ++ [entry])
      rw [List.append_assoc] at hrest
      rw [if_pos hlate]
      exact .head ⟨{}, _, if_pos hlate, rfl⟩ hrest
    rw [if_neg hlate]
    cases fails pass.calls with
    | true =>
      have hrest := ih pass.failed (notDue ++ [entry])
      rw [List.append_assoc] at hrest
      rw [if_pos rfl]
      exact .head ⟨{ fault := .lost }, _, if_neg hlate, rfl⟩ hrest
    | false =>
      rw [if_neg Bool.false_ne_true]
      refine .head ⟨{}, _, if_neg hlate, rfl⟩ ?_
      exact ih (pass.enqueue channel entry.2) notDue

theorem popBatch_steps {pass : Pass} (hfull : (pass.redis.zset zset channel).entries ≠ []) :
    ReflTransGen (StepsAlone moment) (.pop zset channel rest, ⟨jobs, pass.redis⟩)
      (afterEntry zset channel rest [] (pass.popBatch fails moment channel zset).2,
        ⟨jobs, (pass.popBatch fails moment channel zset).1.redis⟩) := by
  obtain ⟨entry, entries, hentries⟩ := List.exists_cons_of_ne_nil hfull
  have hlowest : (pass.redis.zset zset channel).lowest schedulerBatch =
      entry :: entries.take 9 := by rw [SortedSet.lowest, hentries]; rfl
  have hroute := routeBatch_steps fails moment zset channel rest jobs
    (pass.exec (.zpopmin zset channel schedulerBatch))
    ((pass.redis.zset zset channel).lowest schedulerBatch) []
  rw [List.nil_append] at hroute
  refine .head ⟨{}, _, rfl, rfl⟩ ?_
  rw [Pass.popBatch]
  rw [hlowest] at hroute ⊢
  exact hroute

theorem drain_steps (pass : Pass) :
    ReflTransGen (StepsAlone moment) (.pop zset channel rest, ⟨jobs, pass.redis⟩)
      (nextZset channel rest zset, ⟨jobs, (pass.drain fails moment channel zset).redis⟩) := by
  induction pass using Pass.drain.induct fails moment channel zset with
  | case1 pass hempty =>
    have hlowest : (pass.redis.zset zset channel).lowest schedulerBatch = [] := by
      rw [SortedSet.lowest, hempty]
      rfl
    have hquiet := Command.zpopmin_of_empty hempty schedulerBatch
    rw [Pass.drain, if_pos hempty]
    have hmove : (SchedulePc.pop zset channel rest).move {} ⟨jobs, pass.redis⟩ moment =
        some ⟨nextZset channel rest zset, .zpopmin zset channel schedulerBatch, []⟩ := by
      simp only [SchedulePc.move, hlowest]
      rfl
    refine .single ⟨{}, _, hmove, ?_⟩
    change _ = (nextZset channel rest zset,
      Store.mk jobs ((Command.zpopmin zset channel schedulerBatch).execRedis pass.redis))
    rw [hquiet]
  | case2 pass hfull popped hnone ih =>
    rw [Pass.drain, if_neg hfull, if_pos hnone]
    have hsteps := popBatch_steps fails moment zset channel rest jobs hfull
    rw [show (pass.popBatch fails moment channel zset).2 = [] from hnone] at hsteps
    exact hsteps.trans ih
  | case3 pass hfull popped hsome =>
    rw [Pass.drain, if_neg hfull, if_neg hsome]
    refine (popBatch_steps fails moment zset channel rest jobs hfull).tail ?_
    obtain ⟨entry, notDue, hcons⟩ := List.exists_cons_of_ne_nil hsome
    have hnext : afterEntry zset channel rest [] popped.2 =
        .reinsert zset channel rest popped.2 := by rw [hcons]; rfl
    exact ⟨{}, _, by rw [hnext]; rfl, rfl⟩

theorem processChannel_steps (pause : Option Bool) (pass : Pass) :
    ReflTransGen (StepsAlone moment) (.pause channel rest, ⟨jobs, pass.redis⟩)
      (nextChannel rest, ⟨jobs, (pass.processChannel fails moment channel pause).redis⟩) := by
  rw [Pass.processChannel]
  split
  next hpause => exact .single ⟨{ flag := true }, _, rfl, rfl⟩
  next hopen =>
    refine .head ⟨{}, _, rfl, rfl⟩ ?_
    exact (drain_steps fails moment .sched channel rest jobs pass).trans
      (drain_steps fails moment .schedBroadcast channel rest jobs _)

end

end SchedulePc

end DjangoMojo.Jobs
