import DjangoMojo.Foundation.Trace
import DjangoMojo.Firewall.GeoLocatedIP

/-! # Escalations of the threat level

The level of a row rises along every run of escalations and blocks in which no worker writes over
a level that rose since its instance was read. Then no escalation is lost either, unless the
address was blocked at a lower level in the middle of it.
-/

namespace DjangoMojo.Firewall

open Foundation

def Label.escalates : Label → Bool
  | .tick _ | .load _ | .updateThreatFromIncident .. | .block .. | .proceed _ => true
  | .unblock _ | .whitelist .. | .checkThreats .. | .refresh .. | .sweepExpiredBlocks _ => false

namespace System

/-- The level of an escalation that returns with this step. -/
def Returns (system : System) (label : Label) (next : System) (level : ThreatLevel) : Prop :=
  match label with
  | .updateThreatFromIncident id priority _ =>
    incidentLevel priority = some level ∧ ∃ geo, next.workers.get id = some ⟨geo, .idle⟩
  | .proceed id => ∃ geo, system.workers.get id = some ⟨geo, .savingLevel level⟩
  | _ => False

/-- The stored level does not fall, and an escalation that returns left it high enough. -/
def Escalates (system : System) (label : Label) (next : System) : Prop :=
  rank system.row.threatLevel ≤ rank next.row.threatLevel ∧
    ∀ level, system.Returns label next level → rank (some level) ≤ rank next.row.threatLevel

/-- A worker that writes the level finds a level that is not above the one of its instance, or,
for a block, above what a block makes of it. Where the block of an escalation did not match the
row, the row that is read again has at least the level of the escalation. -/
def Unraced (system : System) (label : Label) : Prop :=
  match label with
  | .proceed id =>
    ∀ worker, system.workers.get id = some worker →
      match worker.phase with
      | .savingLevel _ => rank system.row.threatLevel ≤ rank worker.geo.threatLevel
      | .blocking update _ =>
        update.Matches system.row = true →
          rank system.row.threatLevel ≤ rank (blockLevel worker.geo.threatLevel)
      | .reloading false (some target) => rank (some target) ≤ rank system.row.threatLevel
      | _ => True
  | _ => True

end System

/-! ### Levels -/

theorem blockLevel_of_severe {level : ThreatLevel} (hlevel : level = .high ∨ level = .critical) :
    blockLevel (some level) = some level := by
  rcases hlevel with rfl | rfl
  · rfl
  · rfl

/-! ### The invariant -/

def Worker.Knows (level : Option ThreatLevel) (worker : Worker) : Prop :=
  match worker.phase with
  | .idle => rank worker.geo.threatLevel ≤ rank level
  | .blocking update none =>
    rank worker.geo.threatLevel ≤ rank level ∧
      update.threatLevel = blockLevel worker.geo.threatLevel
  | .blocking update (some target) =>
    worker.geo.threatLevel = some target ∧ blockLevel (some target) = some target ∧
      update.threatLevel = some target
  | .reloading true (some target) => rank (some target) ≤ rank level
  | .reloading _ _ => True
  | .savingLevel target => rank (some target) ≤ rank worker.geo.threatLevel
  | .unblocking | .whitelisting | .savingAll | .sweeping _ => False

theorem Worker.Knows.mono {worker : Worker} {level higher : Option ThreatLevel}
    (hknows : worker.Knows level) (hle : rank level ≤ rank higher) : worker.Knows higher := by
  unfold Worker.Knows at hknows ⊢
  split at hknows
  · exact Nat.le_trans hknows hle
  · exact ⟨Nat.le_trans hknows.1 hle, hknows.2⟩
  · exact hknows
  · exact Nat.le_trans hknows hle
  · trivial
  · exact hknows
  all_goals exact hknows.elim

def System.Informed (system : System) : Prop :=
  system.workers.All fun worker => worker.Knows system.row.threatLevel

theorem knows_block {geo : GeoLocatedIP} {now : Time} {ttl : Int} {level : Option ThreatLevel}
    (hle : rank geo.threatLevel ≤ rank level) : (Worker.block geo now ttl none).Knows level := by
  unfold Worker.block
  split
  · exact hle
  split
  · exact hle
  · exact ⟨hle, rfl⟩

theorem knows_block_of_escalation {geo : GeoLocatedIP} {now : Time} {ttl : Int}
    {level : Option ThreatLevel} {target : ThreatLevel} (hlevel : geo.threatLevel = some target)
    (hsevere : target = .high ∨ target = .critical) :
    (Worker.block geo now ttl (some target)).Knows level ∧
      ∀ stored, Worker.block geo now ttl (some target) ≠ ⟨stored, .idle⟩ := by
  have hsaving : (Worker.resume geo (some target)).Knows level := by
    change rank (some target) ≤ rank geo.threatLevel
    rw [hlevel]
  unfold Worker.block
  split
  · exact ⟨hsaving, fun _ => nofun⟩
  split
  · exact ⟨hsaving, fun _ => nofun⟩
  · refine ⟨⟨hlevel, blockLevel_of_severe hsevere, ?_⟩, fun _ => nofun⟩
    rw [hlevel]
    exact blockLevel_of_severe hsevere

theorem knows_updateThreatFromIncident {geo : GeoLocatedIP} {now : Time} {priority : Int}
    {block : Bool} {level : Option ThreatLevel} (hle : rank geo.threatLevel ≤ rank level) :
    (Worker.updateThreatFromIncident geo now priority block).Knows level ∧
      ∀ target stored, incidentLevel priority = some target →
        Worker.updateThreatFromIncident geo now priority block = ⟨stored, .idle⟩ →
        rank (some target) ≤ rank level := by
  unfold Worker.updateThreatFromIncident
  split
  next hnone => exact ⟨hle, fun _ _ hsome => by rw [hnone] at hsome; cases hsome⟩
  next target htarget =>
    split
    next hreached =>
      refine ⟨hle, fun other _ hother _ => ?_⟩
      rw [htarget, Option.some.injEq] at hother
      subst hother
      exact Nat.le_trans hreached hle
    · dsimp only
      split
      · exact ⟨Nat.le_refl _, fun _ _ _ => nofun⟩
      split
      next hblocks =>
        rw [Bool.and_eq_true, Bool.or_eq_true, decide_eq_true_eq, decide_eq_true_eq] at hblocks
        obtain ⟨hknows, hbusy⟩ := @knows_block_of_escalation
          { geo with threatLevel := some target } now Worker.escalationTtl level target rfl
          hblocks.2
        exact ⟨hknows, fun _ stored _ heq => absurd heq (hbusy stored)⟩
      · exact ⟨Nat.le_refl _, fun _ _ _ => nofun⟩

/-! ### Steps -/

namespace System

variable {system next : System} {label : Label}

theorem Informed.begin {id : Nat} {call : GeoLocatedIP → Worker} (hinformed : system.Informed)
    (hnext : system.begin id call = some next)
    (hcall : ∀ geo, rank geo.threatLevel ≤ rank system.row.threatLevel →
      (call geo).Knows system.row.threatLevel) :
    next.Informed ∧ next.row = system.row ∧
      ∃ geo, rank geo.threatLevel ≤ rank system.row.threatLevel ∧
        next.workers.get id = some (call geo) := by
  unfold System.begin at hnext
  split at hnext
  next geo hworker =>
    cases hnext
    have hgeo : rank geo.threatLevel ≤ rank system.row.threatLevel := hinformed id _ hworker
    refine ⟨Table.All.put hinformed id (hcall geo hgeo), rfl, geo, hgeo, ?_⟩
    rw [Table.get_put, if_pos rfl]
  · cases hnext

theorem Informed.putWorker {id : Nat} {worker : Worker} {row : GeoLocatedIP}
    {written : List (Option Time)} (hinformed : system.Informed)
    (hle : rank system.row.threatLevel ≤ rank row.threatLevel)
    (hworker : worker.Knows row.threatLevel) :
    Informed { (system.put id worker) with row := row, written := written } := by
  refine Table.All.put ?_ id hworker
  intro other found hfound
  exact (hinformed other found hfound).mono hle

theorem informed_step (hinformed : system.Informed) (hescalates : label.escalates = true)
    (hunraced : system.Unraced label) (hnext : system.step label = some next) :
    next.Informed ∧ system.Escalates label next := by
  cases label with
  | tick time =>
    cases hnext
    exact ⟨hinformed, Nat.le_refl _, fun _ hreturns => hreturns.elim⟩
  | load id =>
    simp only [step] at hnext
    split at hnext
    · cases hnext
      exact ⟨hinformed.putWorker (Nat.le_refl _) (Nat.le_refl _), Nat.le_refl _,
        fun _ hreturns => hreturns.elim⟩
    · cases hnext
      exact ⟨hinformed.putWorker (Nat.le_refl _) (Nat.le_refl _), Nat.le_refl _,
        fun _ hreturns => hreturns.elim⟩
    · cases hnext
  | updateThreatFromIncident id priority block =>
    obtain ⟨hinvariant, hrow, geo, hgeo, hworker⟩ := hinformed.begin hnext fun geo hgeo =>
      (knows_updateThreatFromIncident hgeo).1
    refine ⟨hinvariant, by rw [hrow], ?_⟩
    rintro level ⟨hlevel, stored, hstored⟩
    rw [hworker, Option.some.injEq] at hstored
    rw [hrow]
    exact (knows_updateThreatFromIncident hgeo).2 level stored hlevel hstored
  | block id ttl =>
    obtain ⟨hinvariant, hrow, -⟩ := hinformed.begin hnext fun geo hgeo => knows_block hgeo
    exact ⟨hinvariant, by rw [hrow], fun _ hreturns => hreturns.elim⟩
  | proceed id =>
    obtain ⟨worker, hworker, hproceed⟩ := Option.bind_eq_some_iff.mp hnext
    have hknows := hinformed id worker hworker
    have hcondition := hunraced worker hworker
    have hreturns : ∀ level, system.Returns (.proceed id) next level →
        ∃ geo, worker = ⟨geo, .savingLevel level⟩ := by
      rintro level ⟨geo, hgeo⟩
      rw [hworker, Option.some.injEq] at hgeo
      exact ⟨geo, hgeo⟩
    obtain ⟨geo, phase⟩ := worker
    cases phase with
    | idle => cases hproceed
    | blocking update caller =>
      have hnot : ∀ level, ¬ system.Returns (.proceed id) next level := by
        intro level hlevel
        obtain ⟨_, heq⟩ := hreturns level hlevel
        cases heq
      simp only [System.proceed] at hproceed
      split at hproceed
      next hmatches =>
        have hblock : update.threatLevel = blockLevel geo.threatLevel := by
          cases caller with
          | none => exact hknows.2
          | some target =>
            rw [show geo.threatLevel = some target from hknows.1, hknows.2.1]
            exact hknows.2.2
        have hle : rank system.row.threatLevel ≤
            rank (update.apply system.row).threatLevel := by
          rw [show (update.apply system.row).threatLevel = blockLevel geo.threatLevel
            from hblock]
          exact hcondition hmatches
        cases hproceed
        refine ⟨hinformed.putWorker hle ?_, hle, fun level hlevel => absurd hlevel (hnot level)⟩
        cases caller with
        | none => trivial
        | some target =>
          change rank (some target) ≤ rank update.threatLevel
          rw [hknows.2.2]
      · cases hproceed
        refine ⟨hinformed.putWorker (Nat.le_refl _) ?_, Nat.le_refl _,
          fun level hlevel => absurd hlevel (hnot level)⟩
        cases caller <;> trivial
    | reloading updated caller =>
      cases hproceed
      refine ⟨hinformed.putWorker (Nat.le_refl _) ?_, Nat.le_refl _, fun level hlevel => ?_⟩
      · cases caller with
        | none => exact Nat.le_refl _
        | some target =>
          change rank (some target) ≤ rank system.row.threatLevel
          cases updated with
          | true => exact hknows
          | false => exact hcondition
      · obtain ⟨_, heq⟩ := hreturns level hlevel
        cases heq
    | savingLevel target =>
      cases hproceed
      refine ⟨hinformed.putWorker hcondition (Nat.le_refl _), hcondition,
        fun level hlevel => ?_⟩
      obtain ⟨_, heq⟩ := hreturns level hlevel
      cases heq
      exact hknows
    | unblocking | whitelisting | savingAll | sweeping => exact hknows.elim
  | unblock | whitelist | checkThreats | refresh | sweepExpiredBlocks => cases hescalates

theorem informed_start (row : GeoLocatedIP) (clock : Time) : (start row clock).Informed :=
  Table.All.empty

/-- Along a run of escalations and blocks in which no write of the level is raced, the level
does not fall and no escalation is lost. -/
theorem escalates_of_unraced (row : GeoLocatedIP) (clock : Time) (labels : List Label)
    (hcalls : ∀ label ∈ labels, label.escalates = true)
    (hunraced : EachStep step (fun system label _ => system.Unraced label) (start row clock)
      labels) :
    EachStep step Escalates (start row clock) labels := by
  refine EachStep.of_invariant ?_ (informed_start row clock)
    ((EachStep.of_labels hcalls (start row clock)).and hunraced)
  rintro system label next hinformed ⟨hescalates, hunraced⟩ hnext
  exact informed_step hinformed hescalates hunraced hnext

/-! ### Two incidents of one address -/

def quiet : GeoLocatedIP := ⟨none, false, none, false, none⟩

def oneIncident : List Label := [.load 1, .updateThreatFromIncident 1 8 false, .proceed 1]

theorem escalates_oneIncident : EachStep step Escalates (start quiet 0) oneIncident := by
  refine escalates_of_unraced quiet 0 oneIncident (by decide) ?_
  rintro _ ⟨⟩
  refine ⟨trivial, ?_⟩
  rintro _ ⟨⟩
  refine ⟨trivial, ?_⟩
  rintro _ ⟨⟩
  refine ⟨?_, trivial⟩
  rintro _ ⟨⟩
  change rank none ≤ rank (some .medium)
  decide

/-- Both instances are read before either escalation is saved. -/
def twoIncidents : List Label :=
  [.load 1, .load 2, .updateThreatFromIncident 1 13 false, .updateThreatFromIncident 2 8 false,
    .proceed 1, .proceed 2]

theorem not_escalates_twoIncidents :
    (∃ before, run step (start quiet 0) (twoIncidents.take 5) = some before ∧
      before.row.threatLevel = some .critical) ∧
    (∃ after, run step (start quiet 0) twoIncidents = some after ∧
      after.row.threatLevel = some .medium) ∧
    ¬ EachStep step Escalates (start quiet 0) twoIncidents := by
  refine ⟨⟨_, rfl, rfl⟩, ⟨_, rfl, rfl⟩, fun heach => ?_⟩
  have hlast := ((((((heach _ rfl).2 _ rfl).2 _ rfl).2 _ rfl).2 _ rfl).2 _ rfl).1.1
  exact absurd hlast (by decide)

end System

end DjangoMojo.Firewall
