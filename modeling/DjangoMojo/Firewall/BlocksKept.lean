import DjangoMojo.Foundation.Trace
import DjangoMojo.Firewall.GeoLocatedIP

/-! # Blocks in force

A block that was written stays until its end passes, or an `unblock` or a `whitelist` removes it,
where no sweep and no full save runs over a block that was written since it read the row.
-/

namespace DjangoMojo.Firewall

open Foundation

def Passed (clock : Time) : Option Time → Prop
  | none => False
  | some ends => ends ≤ clock

def Later : Option Time → Option Time → Prop
  | none, _ => True
  | some _, none => False
  | some first, some second => second ≤ first

theorem later_refl (ends : Option Time) : Later ends ends := by
  cases ends with
  | none => trivial
  | some ends => exact Int.le_refl ends

theorem Later.trans {first second third : Option Time} (hfirst : Later first second)
    (hsecond : Later second third) : Later first third := by
  cases first with
  | none => trivial
  | some first =>
    cases second with
    | none => exact hfirst.elim
    | some second =>
      cases third with
      | none => exact hsecond.elim
      | some third => exact Int.le_trans hsecond hfirst

theorem Passed.of_later {clock : Time} {first second : Option Time} (hpassed : Passed clock first)
    (hlater : Later first second) : Passed clock second := by
  cases first with
  | none => exact hpassed.elim
  | some first =>
    cases second with
    | none => exact hlater.elim
    | some second => exact Int.le_trans hlater hpassed

theorem Passed.mono {clock later : Time} {ends : Option Time} (hpassed : Passed clock ends)
    (hle : clock ≤ later) : Passed later ends := by
  cases ends with
  | none => exact hpassed.elim
  | some ends => exact Int.le_trans hpassed hle

namespace GeoLocatedIP

def InForce (row : GeoLocatedIP) (clock : Time) : Prop :=
  row.isBlocked = true ∧ ¬ Passed clock row.blockedUntil

def Covers (row : GeoLocatedIP) (ends : Option Time) : Prop :=
  row.isBlocked = true ∧ Later row.blockedUntil ends

end GeoLocatedIP

namespace System

/-- Every block that was written and not removed on purpose is in force until its end. -/
def Blocked (system : System) : Prop :=
  ∀ ends ∈ system.written, ¬ Passed system.clock ends → system.row.Covers ends

/-- The update of a sweep that selected the row finds that its block, if any, has ended. A full
save keeps a block that is in force, or makes it longer. -/
def Spares (system : System) (label : Label) : Prop :=
  match label with
  | .proceed id =>
    ∀ worker, system.workers.get id = some worker →
      match worker.phase with
      | .sweeping true => ¬ system.row.InForce system.clock
      | .savingAll =>
        system.row.InForce system.clock → worker.geo.Covers system.row.blockedUntil
      | _ => True
  | _ => True

/-- The time of a pending update is not ahead of the clock. -/
def Timed (clock : Time) (worker : Worker) : Prop :=
  match worker.phase with
  | .blocking update _ => update.now ≤ clock
  | _ => True

structure Guarded (system : System) : Prop where
  blocked : system.Blocked
  timed : system.workers.All (Timed system.clock)

variable {system next : System} {label : Label}

theorem Blocked.of_covers {row : GeoLocatedIP} (hblocked : system.Blocked)
    (hcovers : system.row.InForce system.clock → row.Covers system.row.blockedUntil) :
    ∀ ends ∈ system.written, ¬ Passed system.clock ends → row.Covers ends := by
  intro ends hmem hpending
  obtain ⟨hstored, hlater⟩ := hblocked ends hmem hpending
  have hforce : system.row.InForce system.clock :=
    ⟨hstored, fun hpassed => hpending (hpassed.of_later hlater)⟩
  obtain ⟨hnew, hlonger⟩ := hcovers hforce
  exact ⟨hnew, hlonger.trans hlater⟩

theorem InForce_of_not_matches {update : BlockUpdate} {row : GeoLocatedIP} {clock : Time}
    (hnow : update.now ≤ clock) (hmatches : update.Matches row = true) :
    ¬ row.InForce clock := by
  rintro ⟨hblocked, hpending⟩
  rw [BlockUpdate.Matches, hblocked, Bool.not_true, Bool.false_or, Option.any_eq_true] at hmatches
  obtain ⟨ends, hends, hle⟩ := hmatches
  rw [hends] at hpending
  exact hpending (Int.le_trans (of_decide_eq_true hle) hnow)

theorem Guarded.put {id : Nat} {worker : Worker} (hguarded : system.Guarded)
    (hworker : Timed system.clock worker) : (system.put id worker).Guarded :=
  ⟨hguarded.blocked, hguarded.timed.put id hworker⟩

theorem Guarded.write {id : Nat} {worker : Worker} {row : GeoLocatedIP} (hguarded : system.Guarded)
    (hworker : Timed system.clock worker)
    (hcovers : system.row.InForce system.clock → row.Covers system.row.blockedUntil) :
    Guarded { (system.put id worker) with row := row } :=
  ⟨hguarded.blocked.of_covers hcovers, hguarded.timed.put id hworker⟩

theorem Guarded.begin {id : Nat} {call : GeoLocatedIP → Worker} (hguarded : system.Guarded)
    (hnext : system.begin id call = some next) (hcall : ∀ geo, Timed system.clock (call geo)) :
    next.Guarded := by
  unfold System.begin at hnext
  split at hnext
  next geo _ =>
    cases hnext
    exact hguarded.put (hcall geo)
  · cases hnext

theorem timed_resume (clock : Time) (geo : GeoLocatedIP) (caller : Caller) :
    Timed clock (Worker.resume geo caller) := by
  cases caller <;> trivial

theorem timed_block (clock : Time) (geo : GeoLocatedIP) (ttl : Int) (caller : Caller) :
    Timed clock (Worker.block geo clock ttl caller) := by
  unfold Worker.block
  split
  · exact timed_resume clock geo caller
  split
  · exact timed_resume clock geo caller
  · exact Int.le_refl clock

theorem timed_updateThreatFromIncident (clock : Time) (geo : GeoLocatedIP) (priority : Int)
    (block : Bool) : Timed clock (Worker.updateThreatFromIncident geo clock priority block) := by
  unfold Worker.updateThreatFromIncident
  split
  · trivial
  · split
    · trivial
    · dsimp only
      split
      · trivial
      split
      · exact timed_block clock _ _ _
      · trivial

theorem guarded_proceed {id : Nat} {worker : Worker} (hguarded : system.Guarded)
    (hworker : system.workers.get id = some worker) (hspares : system.Spares (.proceed id))
    (hnext : system.proceed id worker = some next) : next.Guarded := by
  have hcondition := hspares worker hworker
  have htimed := hguarded.timed id worker hworker
  obtain ⟨geo, phase⟩ := worker
  have hsame : system.row.InForce system.clock → system.row.Covers system.row.blockedUntil :=
    fun hforce => ⟨hforce.1, later_refl _⟩
  cases phase with
  | idle => cases hnext
  | blocking update caller =>
    simp only [System.proceed] at hnext
    split at hnext
    next hmatches =>
      cases hnext
      refine ⟨?_, hguarded.timed.put id trivial⟩
      intro ends hmem hpending
      rcases List.mem_cons.mp hmem with rfl | hmem
      · exact ⟨rfl, later_refl _⟩
      · exact hguarded.blocked.of_covers
          (fun hforce => absurd hforce (InForce_of_not_matches htimed hmatches)) ends hmem
          hpending
    · cases hnext
      exact hguarded.put trivial
  | reloading updated caller =>
    cases hnext
    exact hguarded.put (timed_resume _ _ caller)
  | savingLevel target =>
    cases hnext
    exact hguarded.write trivial hsame
  | unblocking =>
    cases hnext
    exact ⟨fun _ hmem => absurd hmem List.not_mem_nil, hguarded.timed.put id trivial⟩
  | whitelisting =>
    cases hnext
    exact ⟨fun _ hmem => absurd hmem List.not_mem_nil, hguarded.timed.put id trivial⟩
  | savingAll =>
    cases hnext
    exact hguarded.write trivial hcondition
  | sweeping listed =>
    cases hnext
    refine hguarded.write trivial ?_
    cases listed with
    | false => exact hsame
    | true => exact fun hforce => absurd hforce hcondition

theorem guarded_step (hguarded : system.Guarded) (hspares : system.Spares label)
    (hnext : system.step label = some next) : next.Guarded := by
  cases label with
  | tick time =>
    cases hnext
    have hle : system.clock ≤ system.clock + time :=
      Int.le_add_of_nonneg_right (Int.natCast_nonneg time)
    refine ⟨fun ends hmem hpending => ?_, fun id worker hworker => ?_⟩
    · exact hguarded.blocked ends hmem fun hpassed => hpending (hpassed.mono hle)
    · have htimed := hguarded.timed id worker hworker
      unfold Timed at htimed ⊢
      split at htimed
      · exact Int.le_trans htimed hle
      · trivial
  | load id =>
    simp only [step] at hnext
    split at hnext
    · cases hnext
      exact hguarded.put trivial
    · cases hnext
      exact hguarded.put trivial
    · cases hnext
  | updateThreatFromIncident id priority block =>
    exact hguarded.begin hnext fun geo => timed_updateThreatFromIncident _ geo priority block
  | block id ttl => exact hguarded.begin hnext fun geo => timed_block _ geo ttl none
  | unblock id => exact hguarded.begin hnext fun _ => trivial
  | whitelist id ends => exact hguarded.begin hnext fun _ => trivial
  | checkThreats id recalculated mojo => exact hguarded.begin hnext fun _ => trivial
  | refresh id found => exact hguarded.begin hnext fun _ => trivial
  | sweepExpiredBlocks id => exact hguarded.begin hnext fun _ => trivial
  | proceed id =>
    obtain ⟨worker, hworker, hproceed⟩ := Option.bind_eq_some_iff.mp hnext
    exact guarded_proceed hguarded hworker hspares hproceed

/-- In a run whose sweeps and full saves spare the blocks that are in force, every block that was
written stays until its end, or until it is removed on purpose. -/
theorem blocked_of_spares (row : GeoLocatedIP) (clock : Time) (labels : List Label)
    (hspares : EachStep step (fun system label _ => system.Spares label) (start row clock) labels) :
    Always step Blocked (start row clock) labels := by
  have hstart : (start row clock).Guarded :=
    ⟨fun _ hmem => absurd hmem List.not_mem_nil, Table.All.empty⟩
  have hguarded : Always step Guarded (start row clock) labels := by
    refine always_of_eachStep ?_ hstart hspares
    intro system label next hguarded hspares hnext
    exact guarded_step hguarded hspares hnext
  exact hguarded.imp fun _ hsystem => hsystem.blocked

/-! ### A new block of an address whose block has ended -/

def ended : GeoLocatedIP := ⟨some .high, true, some 10, false, none⟩

def blockAfterSweep : List Label :=
  [.load 1, .load 2, .sweepExpiredBlocks 2, .proceed 2, .block 1 0, .proceed 1]

theorem blocked_blockAfterSweep : Always step Blocked (start ended 20) blockAfterSweep := by
  refine blocked_of_spares ended 20 blockAfterSweep ?_
  rintro _ ⟨⟩
  refine ⟨trivial, ?_⟩
  rintro _ ⟨⟩
  refine ⟨trivial, ?_⟩
  rintro _ ⟨⟩
  refine ⟨trivial, ?_⟩
  rintro _ ⟨⟩
  refine ⟨?_, ?_⟩
  · rintro _ ⟨⟩
    -- the selected block ended at 10, and the clock is at 20
    exact fun hforce => hforce.2 (show (10 : Int) ≤ 20 by decide)
  rintro _ ⟨⟩
  refine ⟨trivial, ?_⟩
  rintro _ ⟨⟩
  refine ⟨?_, trivial⟩
  rintro _ ⟨⟩
  trivial

/-- The sweep has selected the row, and updates it after a permanent block was written. -/
def blockBeforeSweep : List Label :=
  [.load 1, .load 2, .sweepExpiredBlocks 2, .block 1 0, .proceed 1, .proceed 2]

theorem not_blocked_blockBeforeSweep :
    (∃ before, run step (start ended 20) (blockBeforeSweep.take 5) = some before ∧
      before.row.isBlocked = true ∧ before.row.blockedUntil = none) ∧
    (∃ after, run step (start ended 20) blockBeforeSweep = some after ∧
      after.row.isBlocked = false) ∧
    ¬ Always step Blocked (start ended 20) blockBeforeSweep := by
  refine ⟨⟨_, rfl, rfl, rfl⟩, ⟨_, rfl, rfl⟩, fun halways => ?_⟩
  have hblocked := halways.of_run rfl none List.mem_cons_self (fun hpassed => hpassed)
  exact absurd hblocked.1 (by decide)

end System

end DjangoMojo.Firewall
