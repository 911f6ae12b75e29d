import DjangoMojo.Edge.StageResults

/-! # What a switch of `current` makes visible

Staging writes the rendered files over what the directory held. The directory is named
by the desired state, and which virtual hosts are left out is not part of that: a file
that an earlier staging wrote for one of them is still there.
-/

namespace DjangoMojo.Edge

open Foundation
open Effect (Triple)

variable {node : Node}

/-! ### The files of a directory -/

/-- Every file of the directory is one that a staging of these virtual hosts writes. -/
def Unstale (tree : Tree) (installable : List Vhost) : Prop :=
  ∀ name, tree.text (.config name) ≠ none →
    name = baseName ∨ name = upstreamsName ∨ ∃ vhost ∈ installable, name = vhost.confName

/-- The directory holds the files of the staging and no others. -/
def Switch.Exact (switch : Switch) : Prop :=
  ∀ name, switch.tree.text (.config name) = switch.files.get name

theorem config_exact_iff {files : Files String} {before : Tree} {installable : List Vhost}
    {tree : Tree} (hconfig : ∀ name, tree.text (.config name) =
      (files.get name).or (before.text (.config name)))
    (hnames : List.map Prod.fst files = baseName :: upstreamsName :: installable.map Vhost.confName) :
    (∀ name, tree.text (.config name) = files.get name) ↔ Unstale before installable := by
  have hrendered (name : String) : files.get name ≠ none ↔
      name = baseName ∨ name = upstreamsName ∨ ∃ vhost ∈ installable, name = vhost.confName := by
    rw [Files.get_ne_none_iff, hnames]
    simp only [List.mem_cons, List.mem_map, eq_comm]
  constructor
  · intro hexact name hbefore
    rw [← hrendered]
    intro hnone
    have hkept := hconfig name
    rw [hexact, hnone, Option.none_or] at hkept
    exact hbefore hkept.symm
  · intro hunstale name
    rw [hconfig name]
    cases hfile : files.get name with
    | some body => rfl
    | none =>
      by_contra hleft
      exact (hrendered name).mpr (hunstale name hleft) hfile

/-! ### One attempt -/

variable {desired : Desired} {encounter : Encounter}

/-- The directory that the attempt stages into holds no file of a virtual host that the
attempt leaves out, unless the attempt ends before it switches. -/
def CleanAttempt (node : Node) (desired : Desired) (encounter : Encounter) (attempt : Attempt)
    (previous : Option String) (carryUpgradeMap : Bool) (disk : Disk) : Prop :=
  let name := (node.localGenerationId desired.generation carryUpgradeMap).text
  (stageGeneration node desired encounter attempt (previous.map disk.tree)
    (disk.current = some name) carryUpgradeMap (disk.tree name)).1.isOk →
  attempt.staged.ok → Unstale (disk.tree name)
    (desired.vhosts.filter (installs desired encounter attempt (previous.map disk.tree)))

theorem runAttempt_exact_iff (attempt : Attempt) (previous : Option String)
    (carryUpgradeMap : Bool) (disk : Disk) :
    (∀ switch ∈ (runAttempt node desired encounter attempt previous carryUpgradeMap disk).2.2,
        switch.Exact) ↔
      CleanAttempt node desired encounter attempt previous carryUpgradeMap disk := by
  unfold runAttempt CleanAttempt
  simp only
  split
  next refusal tree hrun =>
    rw [hrun]
    exact iff_of_true (fun _ hmem => nomatch hmem) fun hok => nomatch hok
  next staged tree hrun =>
    rw [hrun]
    have hconfig := fun name =>
      Effect.Triple.of_run (stageGeneration_text _) rfl hrun (.config name)
    have hfiles := Effect.Triple.of_run (stageGeneration_files desired encounter attempt _ _ _)
      trivial hrun
    have hexact := config_exact_iff hconfig (renderGeneration_map_fst hfiles)
    split
    next hstaged =>
      refine iff_of_true (fun _ hmem => nomatch hmem) fun _ hok => ?_
      rw [hok] at hstaged
      cases hstaged
    next hstaged =>
      have hok : attempt.staged.ok = true := by simpa using hstaged
      have hclean : ((Except.ok staged : Except Refusal Staged).isOk = true →
          attempt.staged.ok = true → Unstale (disk.tree (node.localGenerationId
            desired.generation carryUpgradeMap).text) (desired.vhosts.filter
              (installs desired encounter attempt (previous.map disk.tree)))) ↔
          Unstale (disk.tree (node.localGenerationId desired.generation carryUpgradeMap).text)
            (desired.vhosts.filter (installs desired encounter attempt (previous.map disk.tree))) :=
        ⟨fun hall => hall rfl hok, fun hunstale _ _ => hunstale⟩
      rw [hclean, ← hexact]
      split
      next => exact List.forall_mem_singleton
      next => split <;> exact List.forall_mem_singleton

theorem runAttempt_current (attempt : Attempt) {previous : Option String} (carryUpgradeMap : Bool)
    {disk : Disk} (hcurrent : disk.current = previous) :
    (∃ staged, (runAttempt node desired encounter attempt previous carryUpgradeMap disk).1 =
        .passed staged) ∨
      (runAttempt node desired encounter attempt previous carryUpgradeMap disk).2.1.current =
        previous := by
  unfold runAttempt
  simp only
  split
  next => exact .inr hcurrent
  next staged tree _ =>
    split
    next => exact .inr hcurrent
    next =>
      split
      next => exact .inl ⟨staged, rfl⟩
      next => split <;> exact .inr rfl

/-! ### A whole install -/

/-- Each directory that the install switches to is clean before it is staged into. -/
def CleanInstall (node : Node) (desired : Desired) (encounter : Encounter)
    (carryUpgradeMap : Bool) (disk : Disk) : Prop :=
  CleanAttempt node desired encounter encounter.first disk.current carryUpgradeMap disk ∧
  ∀ moved between switches, runAttempt node desired encounter encounter.first disk.current
    carryUpgradeMap disk = (.flipped moved, between, switches) →
    CleanAttempt node desired encounter encounter.second disk.current moved between

theorem installDesired_exact_iff (carryUpgradeMap : Bool) (disk : Disk) :
    (∀ switch ∈ (installDesired node desired encounter carryUpgradeMap disk).2.2, switch.Exact) ↔
      CleanInstall node desired encounter carryUpgradeMap disk := by
  have hfirst := @runAttempt_exact_iff node desired encounter encounter.first disk.current
    carryUpgradeMap disk
  unfold installDesired CleanInstall
  rw [← hfirst]
  cases hrun : runAttempt node desired encounter encounter.first disk.current carryUpgradeMap disk with
  | mk tried rest =>
    obtain ⟨between, switches⟩ := rest
    cases tried with
    | passed staged => exact (and_iff_left fun _ _ _ heq => nomatch heq).symm
    | failed refusal => exact (and_iff_left fun _ _ _ heq => nomatch heq).symm
    | flipped moved =>
      have hsecond := @runAttempt_exact_iff node desired encounter encounter.second
        disk.current moved between
      have hmoved : (∀ other after more, (Tried.flipped moved, between, switches) =
          (Tried.flipped other, after, more) →
          CleanAttempt node desired encounter encounter.second disk.current other after) ↔
          CleanAttempt node desired encounter encounter.second disk.current moved between := by
        constructor
        · exact fun hall => hall moved between switches rfl
        · rintro hclean other after more heq
          cases heq
          exact hclean
      rw [hmoved, ← hsecond]
      simp only
      split
      all_goals
        next hother =>
          simp only [hother, List.forall_mem_append]

theorem installDesired_current (carryUpgradeMap : Bool) (disk : Disk) {refusal : Refusal}
    (hraised : (installDesired node desired encounter carryUpgradeMap disk).1 =
      .raised refusal true) :
    (installDesired node desired encounter carryUpgradeMap disk).2.1.current = disk.current := by
  have hfinish (staged : Staged) (carry : Bool) (after : Disk) :
      (finish desired encounter staged carry after).1 ≠ .raised refusal true := by
    unfold finish
    split <;> simp
  have hfirst := @runAttempt_current node desired encounter encounter.first disk.current
    carryUpgradeMap disk rfl
  unfold installDesired at hraised ⊢
  cases hrun : runAttempt node desired encounter encounter.first disk.current carryUpgradeMap disk with
  | mk tried rest =>
    obtain ⟨between, switches⟩ := rest
    rw [hrun] at hraised hfirst
    cases tried with
    | passed staged => exact absurd hraised (hfinish staged _ _)
    | failed refusal => exact hfirst.resolve_left fun ⟨_, heq⟩ => nomatch heq
    | flipped moved =>
      have hbetween : between.current = disk.current :=
        hfirst.resolve_left fun ⟨_, heq⟩ => nomatch heq
      have hsecond := @runAttempt_current node desired encounter encounter.second disk.current
        moved between hbetween
      simp only at hraised ⊢
      split at hraised
      next staged after more hpassed => exact absurd hraised (hfinish staged _ _)
      next refusal after more hfailed =>
        rw [hfailed] at hsecond
        exact hsecond.resolve_left fun ⟨_, heq⟩ => nomatch heq
      next moved after more hflipped =>
        rw [hflipped] at hsecond
        exact hsecond.resolve_left fun ⟨_, heq⟩ => nomatch heq

/-- The install stages: it neither refuses an empty node nor finds nothing to do. -/
def Stages (node : Node) (desired : Desired) (force : Bool) (disk : Disk) : Prop :=
  desired.pools ≠ [] ∧ ¬(!force && evidenceCurrent desired disk &&
    disk.current = some (node.localGenerationId desired.generation
      (recordedCarry desired disk)).text && !pending desired disk) = true

theorem install_eq {force : Bool} {disk : Disk} (hstages : Stages node desired force disk) :
    install node desired encounter force disk =
      installDesired node desired encounter (recordedCarry desired disk) disk := by
  rw [install, if_neg hstages.1, if_neg hstages.2]

/-- From any disk: each directory that becomes current holds the files of its staging and
no others, if and only if it was clean before; and an install that raises before the
reload is never visible. -/
theorem install_exact_iff (node : Node) (desired : Desired) (encounter : Encounter) (force : Bool)
    (disk : Disk) :
    ((∀ switch ∈ (install node desired encounter force disk).2.2, switch.Exact) ∧
      ∀ refusal, (install node desired encounter force disk).1 = .raised refusal true →
        (install node desired encounter force disk).2.1.current = disk.current) ↔
      (Stages node desired force disk →
        CleanInstall node desired encounter (recordedCarry desired disk) disk) := by
  unfold install Stages
  simp only
  split
  next hpools => exact iff_of_true ⟨nofun, fun _ _ => rfl⟩ fun hstages => absurd hpools hstages.1
  next hpools =>
    split
    next hsame => exact iff_of_true ⟨nofun, fun _ _ => rfl⟩ fun hstages => absurd hsame hstages.2
    next hstages =>
      have hcurrent : ∀ refusal, (installDesired node desired encounter
          (recordedCarry desired disk) disk).1 = .raised refusal true →
          (installDesired node desired encounter (recordedCarry desired disk) disk).2.1.current =
            disk.current := fun refusal hraised => installDesired_current _ disk hraised
      rw [and_iff_left hcurrent, installDesired_exact_iff]
      exact ⟨fun hclean _ => hclean, fun hclean => hclean ⟨hpools, hstages⟩⟩

/-! ### A virtual host that is left out the second time -/

def afterInstalls (node : Node) (runs : List (Desired × Encounter × Bool)) : Disk :=
  runs.foldl (fun disk run => (install node run.1 run.2.1 run.2.2 disk).2.1) {}

theorem afterInstalls_singleton (node : Node) (desired : Desired) (encounter : Encounter)
    (force : Bool) : afterInstalls node [(desired, encounter, force)] =
      (install node desired encounter force {}).2.1 := rfl

theorem runAttempt_refused {attempt : Attempt} {previous : Option String} {carryUpgradeMap : Bool}
    {disk : Disk} {staged : Staged} {tree : Tree} (hstaged : attempt.staged.ok = false)
    (hrun : stageGeneration node desired encounter attempt (previous.map disk.tree)
      (disk.current = some (node.localGenerationId desired.generation carryUpgradeMap).text)
      carryUpgradeMap (disk.tree (node.localGenerationId desired.generation carryUpgradeMap).text) =
        (.ok staged, tree)) :
    runAttempt node desired encounter attempt previous carryUpgradeMap disk =
      (.failed ⟨"staged configuration failed nginx -t", none⟩,
        disk.setTree (node.localGenerationId desired.generation carryUpgradeMap).text tree, []) := by
  rw [runAttempt]
  simp only [hrun, hstaged, Bool.not_false, if_true]

theorem tenant_name :
    (plainNode.localGenerationId (tenantDesired true).generation false).text = "1" := rfl

theorem refused_leaves : ∃ tree,
    (install plainNode (tenantDesired true) (tenantRun true false) false {}).2.1 =
      Disk.setTree {} "1" tree ∧ tree.text (.config "conf.d/1.conf") ≠ none := by
  obtain ⟨files, tree, hrun, hfiles⟩ := tenant_stages true true false none {}
  refine ⟨tree, ?_, ?_⟩
  · have hstages : Stages plainNode (tenantDesired true) false {} :=
      ⟨List.cons_ne_nil _ _, by simp [evidenceCurrent, tenantDesired]⟩
    have hcarry : recordedCarry (tenantDesired true) {} = false := rfl
    have hattempt := @runAttempt_refused plainNode (tenantDesired true) (tenantRun true false)
      (tenantRun true false).first none false {} _ tree rfl hrun
    rw [install_eq hstages, hcarry, installDesired, show ({} : Disk).current = none from rfl,
      hattempt]
    rfl
  · have hconfig := Effect.Triple.of_run (stageGeneration_text {}) rfl hrun
      (.config "conf.d/1.conf")
    have hfile : files.get "conf.d/1.conf" ≠ none := by
      rw [Files.get_ne_none_iff, renderGeneration_map_fst hfiles]
      decide
    rw [hconfig, stagePlan, Function.update_of_ne (by simp), planOf]
    rwa [ne_eq, Option.or_eq_none_iff, not_and_or, or_iff_left (by simp)]

/-- The file that the refused run wrote becomes current although its virtual host is
left out. -/
theorem not_all_switches_exact : ¬∀ (node : Node) (runs : List (Desired × Encounter × Bool))
    (desired : Desired) (encounter : Encounter) (force : Bool),
    (∀ switch ∈ (install node desired encounter force (afterInstalls node runs)).2.2,
      switch.Exact) ∧
    ∀ refusal, (install node desired encounter force (afterInstalls node runs)).1 =
        .raised refusal true →
      (install node desired encounter force (afterInstalls node runs)).2.1.current =
        (afterInstalls node runs).current := by
  intro hall
  obtain ⟨tree, hafter, hstale⟩ := refused_leaves
  have hboth := hall plainNode [(tenantDesired true, tenantRun true false, false)]
    (tenantDesired true) (tenantRun false true) false
  rw [afterInstalls_singleton, hafter] at hboth
  have hstages : Stages plainNode (tenantDesired true) false (Disk.setTree {} "1" tree) :=
    ⟨List.cons_ne_nil _ _, by simp [evidenceCurrent, tenantDesired, Disk.setTree]⟩
  have hclean := ((install_exact_iff plainNode (tenantDesired true) (tenantRun false true) false
    _).mp hboth hstages).1
  obtain ⟨files, last, hrun, _⟩ := tenant_stages true false true none tree
  have hname : (Disk.setTree {} "1" tree).tree "1" = tree := by simp [Disk.setTree]
  have hcarry : recordedCarry (tenantDesired true) (Disk.setTree {} "1" tree) = false := rfl
  have hcurrent : (Disk.setTree {} "1" tree).current = none := rfl
  have hnone : (tenantDesired true).vhosts.filter (installs (tenantDesired true)
      (tenantRun false true) (tenantRun false true).first none) = [] := rfl
  have hunstale : Unstale tree [] := by
    simp only [CleanAttempt, hcarry, tenant_name, hname, hcurrent, Option.map_none, hnone] at hclean
    refine hclean ?_ rfl
    rw [show decide (none = some "1") = false from rfl, hrun]
    rfl
  rcases hunstale "conf.d/1.conf" hstale with hbase | hupstreams | ⟨vhost, hvhost, _⟩
  · exact absurd hbase (by decide)
  · exact absurd hupstreams (by decide)
  · exact absurd hvhost List.not_mem_nil

end DjangoMojo.Edge
