import DjangoMojo.Edge.Healing

/-! # Healing over the installs of a node

The directory of a generation is followed over every install of its desired state and
of other ones.
-/

namespace DjangoMojo.Edge

open Foundation
open Effect (Triple)

variable {node : Node} {desired : Desired} {encounter : Encounter} {carryUpgradeMap : Bool}

/-! ### What an install keeps -/

theorem installDesired_keeps {Keeps : Disk → Prop} {disk : Disk}
    (hfirst : Keeps (runAttempt node desired encounter encounter.first disk.current
      carryUpgradeMap disk).2.1)
    (hsecond : ∀ moved between switches, runAttempt node desired encounter encounter.first
      disk.current carryUpgradeMap disk = (.flipped moved, between, switches) → Keeps between →
      Keeps (runAttempt node desired encounter encounter.second disk.current moved between).2.1)
    (hfinish : ∀ staged answer after, Keeps after →
      Keeps (finish desired encounter staged answer after).2) :
    Keeps (installDesired node desired encounter carryUpgradeMap disk).2.1 := by
  unfold installDesired
  cases hrun : runAttempt node desired encounter encounter.first disk.current carryUpgradeMap disk with
  | mk tried rest =>
    obtain ⟨between, switches⟩ := rest
    rw [hrun] at hfirst
    cases tried with
    | passed staged => exact hfinish staged carryUpgradeMap between hfirst
    | failed refusal => exact hfirst
    | flipped moved =>
      have hmoved := hsecond moved between switches hrun hfirst
      simp only
      split
      next heq =>
        rw [heq] at hmoved
        exact hfinish _ moved _ hmoved
      next heq =>
        rw [heq] at hmoved
        exact hmoved
      next heq =>
        rw [heq] at hmoved
        exact hmoved

theorem install_keeps {Keeps : Disk → Prop} {force : Bool} {disk : Disk} (hdisk : Keeps disk)
    (hstages : Stages node desired force disk →
      Keeps (installDesired node desired encounter (recordedCarry desired disk) disk).2.1) :
    Keeps (install node desired encounter force disk).2.1 := by
  by_cases hstage : Stages node desired force disk
  · rw [install_eq hstage]
    exact hstages hstage
  · unfold install
    simp only
    split
    next => exact hdisk
    next hpools =>
      split
      next => exact hdisk
      next hchanged => exact absurd ⟨hpools, hchanged⟩ hstage

theorem writeInstalled_disk (selection : Selection) (answer : Bool) (disk : Disk) :
    (writeInstalled desired encounter selection answer disk).tree = disk.tree ∧
      (writeInstalled desired encounter selection answer disk).current = disk.current := by
  unfold writeInstalled
  simp only
  generalize desired.pools = pools
  induction pools generalizing disk with
  | nil => exact ⟨rfl, rfl⟩
  | cons pool rest ih => exact ih _

/-! ### The directory of one answer -/

def DiskHealable (node : Node) (desired : Desired) (carryUpgradeMap : Bool)
    (plan : Place → Option String) (disk : Disk) : Prop :=
  Healable node desired plan
    (disk.current = some (node.localGenerationId desired.generation carryUpgradeMap).text)
    (disk.tree (node.localGenerationId desired.generation carryUpgradeMap).text)

variable {plan : Place → Option String}

theorem Healable.serve {tree : Tree} {live : Bool} (htree : Healable node desired plan live tree)
    {served : Prop} [Decidable served] (hserved : served → live = true) :
    Healable node desired plan served tree := by
  by_cases hnow : served
  · rw [decide_eq_true hnow, ← hserved hnow]
    exact htree
  · rw [decide_eq_false hnow]
    exact htree.unserved

theorem finish_diskHealable {other : Desired} (staged : Staged) (answer : Bool) {disk : Disk}
    (hdisk : DiskHealable node desired carryUpgradeMap plan disk) :
    DiskHealable node desired carryUpgradeMap plan (finish other encounter staged answer disk).2 := by
  unfold finish
  split
  next =>
    obtain ⟨htree, hcurrent⟩ :=
      @writeInstalled_disk other encounter staged.selection answer disk
    unfold DiskHealable pruneGenerations
    simp only [htree, hcurrent]
    split
    next hpruned => exact Healable.empty.serve fun hserved => absurd hserved hpruned.2
    next => exact hdisk
  next => exact hdisk

theorem runAttempt_elsewhere {other : Desired} {attempt : Attempt} {previous : Option String}
    {answer : Bool} {disk : Disk}
    (hname : (node.localGenerationId other.generation answer).text ≠
      (node.localGenerationId desired.generation carryUpgradeMap).text)
    (hcurrent : disk.current = previous)
    (hdisk : DiskHealable node desired carryUpgradeMap plan disk) :
    DiskHealable node desired carryUpgradeMap plan
      (runAttempt node other encounter attempt previous answer disk).2.1 := by
  have htree (tree : Tree) (current : Option String)
      (hserved : current = some (node.localGenerationId desired.generation carryUpgradeMap).text →
        disk.current = some (node.localGenerationId desired.generation carryUpgradeMap).text) :
      DiskHealable node desired carryUpgradeMap plan { disk.setTree
        (node.localGenerationId other.generation answer).text tree with current := current } := by
    unfold DiskHealable Disk.setTree
    simp only [Function.update_of_ne hname.symm]
    exact hdisk.serve fun hnow => decide_eq_true (hserved hnow)
  unfold runAttempt
  simp only
  split
  next => exact htree _ disk.current id
  next =>
    split
    next => exact htree _ disk.current id
    next =>
      split
      next => exact htree _ _ fun heq => absurd (Option.some.inj heq) hname
      next => split <;> exact htree _ previous fun heq => hcurrent.trans heq

/-- An attempt that commits keeps the files that are shared. -/
def AttemptKeeps (desired : Desired) (encounter : Encounter) (attempt : Attempt)
    (previous : Option String) (disk : Disk) : Prop :=
  attempt.staged.ok = true → attempt.real.ok = true →
    SharedKept desired encounter attempt (previous.map disk.tree)

/-- The files of the whole generation, which render and have their copies. -/
structure WholeFiles (node : Node) (desired : Desired) (carryUpgradeMap : Bool)
    (whole : Files String) : Prop where
  renders : renderGeneration node.settings desired.knobs desired.rows desired.whole
    (node.localGenerationId desired.generation carryUpgradeMap) carryUpgradeMap = .ok whole
  copied : AllCopied node (node.localGenerationId desired.generation carryUpgradeMap) whole

variable {whole : Files String}

/-- The shared files that a staging wrote are those of the whole generation. -/
theorem stageGeneration_shared {attempt : Attempt} {previous : Option Tree} {live : Bool}
    {tree after : Tree} {staged : Staged} (hwhole : WholeFiles node desired carryUpgradeMap whole)
    (hkept : SharedKept desired encounter attempt previous)
    (hrun : stageGeneration node desired encounter attempt previous live carryUpgradeMap tree =
      (.ok staged, after)) {place : Place} (hshared : place.shared = true) :
    after.text place = stagePlan node (node.localGenerationId desired.generation carryUpgradeMap)
      carryUpgradeMap whole place := by
  have hfiles := Triple.of_run (stageGeneration_files desired encounter attempt previous live
    carryUpgradeMap) trivial hrun
  rw [filter_installs] at hfiles
  have hget {file : String} (hfile : sharedName file = true) :=
    hkept.get_eq hwhole.renders hfiles hfile
  have hplan : stagePlan node (node.localGenerationId desired.generation carryUpgradeMap)
      carryUpgradeMap staged.files place = stagePlan node (node.localGenerationId
        desired.generation carryUpgradeMap) carryUpgradeMap whole place := by
    cases place with
    | config file => rw [stagePlan_config, stagePlan_config, hget hshared]
    | staging file => rw [stagePlan_staging, stagePlan_staging, hget hshared]
    | harness => cases hshared
  obtain ⟨body, hbody⟩ := Option.ne_none_iff_exists'.mp
    (stagePlan_shared hwhole.renders hwhole.copied hshared)
  rw [Triple.of_run (stageGeneration_text tree) rfl hrun place, hplan, hbody, Option.some_or]

theorem runAttempt_here {attempt : Attempt} {previous : Option String} {disk : Disk}
    (hwhole : WholeFiles node desired carryUpgradeMap whole) (hcurrent : disk.current = previous)
    (hkeeps : AttemptKeeps desired encounter attempt previous disk)
    (hdisk : DiskHealable node desired carryUpgradeMap (stagePlan node (node.localGenerationId
      desired.generation carryUpgradeMap) carryUpgradeMap whole) disk) :
    DiskHealable node desired carryUpgradeMap (stagePlan node (node.localGenerationId
      desired.generation carryUpgradeMap) carryUpgradeMap whole)
      (runAttempt node desired encounter attempt previous carryUpgradeMap disk).2.1 := by
  have hplace (tree : Tree) (live : Bool) (current : Option String)
      (htree : Healable node desired (stagePlan node (node.localGenerationId
        desired.generation carryUpgradeMap) carryUpgradeMap whole) live tree)
      (hserved : current = some (node.localGenerationId desired.generation carryUpgradeMap).text →
        live = true) :
      DiskHealable node desired carryUpgradeMap (stagePlan node (node.localGenerationId
        desired.generation carryUpgradeMap) carryUpgradeMap whole) { disk.setTree
          (node.localGenerationId desired.generation carryUpgradeMap).text tree with
            current := current } := by
    unfold DiskHealable Disk.setTree
    simp only [Function.update_self]
    exact htree.serve hserved
  have hstage := @stageGeneration_healable node desired encounter attempt carryUpgradeMap _ _
    (previous.map disk.tree) whole rfl hwhole.renders hwhole.copied
    (disk.tree (node.localGenerationId desired.generation carryUpgradeMap).text) hdisk
  unfold runAttempt
  simp only
  split
  next refusal tree hrun =>
    rw [hrun] at hstage
    exact hplace tree _ disk.current hstage decide_eq_true
  next staged tree hrun =>
    rw [hrun] at hstage
    split
    next => exact hplace tree _ disk.current hstage decide_eq_true
    next hstaged =>
      split
      next hreal =>
        have hshared (place : Place) (hplace : place.shared = true) :=
          stageGeneration_shared hwhole (hkeeps (by simpa using hstaged) hreal) hrun hplace
        exact hplace tree true _ { hstage with shared := fun _ => hshared } fun _ => rfl
      next =>
        split <;> exact hplace tree _ previous hstage fun heq => decide_eq_true (hcurrent.trans heq)

/-! ### Every run -/

/-- Every attempt of the install that commits keeps the shared files. -/
def InstallKeeps (node : Node) (desired : Desired) (encounter : Encounter) (disk : Disk) : Prop :=
  AttemptKeeps desired encounter encounter.first disk.current disk ∧
  ∀ moved between switches, runAttempt node desired encounter encounter.first disk.current
    (recordedCarry desired disk) disk = (.flipped moved, between, switches) →
    AttemptKeeps desired encounter encounter.second disk.current between

/-- The disks of a node on which the generation was never staged before, after installs of its
desired state and of others. -/
inductive Course (node : Node) (desired : Desired) (carryUpgradeMap : Bool) : Disk → Prop
  | start (disk : Disk)
      (hempty : disk.tree (node.localGenerationId desired.generation carryUpgradeMap).text = {})
      (hcurrent : disk.current ≠
        some (node.localGenerationId desired.generation carryUpgradeMap).text) :
      Course node desired carryUpgradeMap disk
  | install {disk : Disk} (hcourse : Course node desired carryUpgradeMap disk)
      (encounter : Encounter) (force : Bool)
      (hkeeps : Stages node desired force disk → InstallKeeps node desired encounter disk) :
      Course node desired carryUpgradeMap (install node desired encounter force disk).2.1
  | other {disk : Disk} (hcourse : Course node desired carryUpgradeMap disk) (other : Desired)
      (hname : ∀ answer, (node.localGenerationId other.generation answer).text ≠
        (node.localGenerationId desired.generation carryUpgradeMap).text)
      (encounter : Encounter) (force : Bool) :
      Course node desired carryUpgradeMap (install node other encounter force disk).2.1

theorem localGenerationId_ne {answer : Bool} (hanswer : answer ≠ carryUpgradeMap) :
    (node.localGenerationId desired.generation answer).text ≠
      (node.localGenerationId desired.generation carryUpgradeMap).text := by
  cases answer <;> cases carryUpgradeMap
  · exact absurd rfl hanswer
  · exact (node.sha256_ne desired.generation).symm
  · exact node.sha256_ne desired.generation
  · exact absurd rfl hanswer

theorem course_diskHealable (hwhole : WholeFiles node desired carryUpgradeMap whole) {disk : Disk}
    (hcourse : Course node desired carryUpgradeMap disk) :
    DiskHealable node desired carryUpgradeMap (stagePlan node (node.localGenerationId
      desired.generation carryUpgradeMap) carryUpgradeMap whole) disk := by
  induction hcourse with
  | start disk hempty hcurrent =>
    unfold DiskHealable
    rw [hempty]
    exact Healable.empty.serve fun hserved => absurd hserved hcurrent
  | @install disk _ encounter force hkeeps ih =>
    have hattempt (attempt : Attempt) (answer : Bool) (before : Disk)
        (hcurrent : before.current = disk.current)
        (hattempt : AttemptKeeps desired encounter attempt disk.current before)
        (hbefore : DiskHealable node desired carryUpgradeMap (stagePlan node
          (node.localGenerationId desired.generation carryUpgradeMap) carryUpgradeMap whole)
          before) :
        DiskHealable node desired carryUpgradeMap (stagePlan node (node.localGenerationId
          desired.generation carryUpgradeMap) carryUpgradeMap whole)
          (runAttempt node desired encounter attempt disk.current answer before).2.1 := by
      by_cases hanswer : answer = carryUpgradeMap
      · subst hanswer
        exact runAttempt_here hwhole hcurrent hattempt hbefore
      · exact runAttempt_elsewhere (localGenerationId_ne hanswer) hcurrent hbefore
    refine install_keeps ih fun hstages => ?_
    obtain ⟨hfirst, hsecond⟩ := hkeeps hstages
    refine installDesired_keeps (hattempt _ _ disk rfl hfirst ih) ?_ fun staged answer after =>
      finish_diskHealable staged answer
    intro moved between switches hrun hbetween
    have hcurrent := @runAttempt_current node desired encounter encounter.first disk.current
      (recordedCarry desired disk) disk rfl
    rw [hrun] at hcurrent
    exact hattempt _ _ between (hcurrent.resolve_left fun ⟨_, heq⟩ => nomatch heq)
      (hsecond moved between switches hrun) hbetween
  | @other disk _ other hname encounter force ih =>
    refine install_keeps ih fun _ => ?_
    refine installDesired_keeps (runAttempt_elsewhere (hname _) rfl ih) ?_
      fun staged answer after => finish_diskHealable staged answer
    intro moved between switches hrun hbetween
    have hcurrent := @runAttempt_current node other encounter encounter.first disk.current
      (recordedCarry other disk) disk rfl
    rw [hrun] at hcurrent
    exact runAttempt_elsewhere (hname _) (hcurrent.resolve_left fun ⟨_, heq⟩ => nomatch heq)
      hbetween

theorem runAttempt_passed {attempt : Attempt} {previous : Option String} {disk : Disk}
    {staged : Staged} {tree : Tree} (hstaged : attempt.staged.ok = true)
    (hreal : attempt.real.ok = true)
    (hrun : stageGeneration node desired encounter attempt (previous.map disk.tree)
      (disk.current = some (node.localGenerationId desired.generation carryUpgradeMap).text)
      carryUpgradeMap (disk.tree (node.localGenerationId desired.generation carryUpgradeMap).text) =
        (.ok staged, tree)) :
    runAttempt node desired encounter attempt previous carryUpgradeMap disk =
      (.passed staged, { disk.setTree (node.localGenerationId desired.generation
        carryUpgradeMap).text tree with
          current := some (node.localGenerationId desired.generation carryUpgradeMap).text },
        [⟨(node.localGenerationId desired.generation carryUpgradeMap).text, tree,
          staged.files⟩]) := by
  rw [runAttempt]
  simp only [hrun, hstaged, hreal, Bool.not_true, Bool.false_eq_true, if_false, if_true]

theorem runAttempt_raised {attempt : Attempt} {previous : Option String} {disk : Disk}
    {refusal : Refusal} {tree : Tree}
    (hrun : stageGeneration node desired encounter attempt (previous.map disk.tree)
      (disk.current = some (node.localGenerationId desired.generation carryUpgradeMap).text)
      carryUpgradeMap (disk.tree (node.localGenerationId desired.generation carryUpgradeMap).text) =
        (.error refusal, tree)) :
    runAttempt node desired encounter attempt previous carryUpgradeMap disk =
      (.failed refusal, disk.setTree (node.localGenerationId desired.generation
        carryUpgradeMap).text tree, []) := by
  rw [runAttempt]
  simp only [hrun]

theorem install_commits {force : Bool} {disk : Disk} {staged : Staged} {tree : Tree}
    (hstages : Stages node desired force disk) (hcarry : recordedCarry desired disk = carryUpgradeMap)
    (hstaged : encounter.first.staged.ok = true) (hreal : encounter.first.real.ok = true)
    (hreload : encounter.reload = true)
    (hrun : stageGeneration node desired encounter encounter.first (disk.current.map disk.tree)
      (disk.current = some (node.localGenerationId desired.generation carryUpgradeMap).text)
      carryUpgradeMap (disk.tree (node.localGenerationId desired.generation carryUpgradeMap).text) =
        (.ok staged, tree)) :
    ∃ after, (install node desired encounter force disk).1 = .changed staged.selection ∧
      (install node desired encounter force disk).2.1 = pruneGenerations encounter.pruned
        (writeInstalled desired encounter staged.selection carryUpgradeMap after) ∧
      after.installed = disk.installed ∧
      after.current = some (node.localGenerationId desired.generation carryUpgradeMap).text ∧
      after.tree (node.localGenerationId desired.generation carryUpgradeMap).text = tree := by
  rw [install_eq hstages, hcarry, installDesired, runAttempt_passed hstaged hreal hrun]
  simp only [finish, hreload, if_true]
  exact ⟨_, trivial, rfl, rfl, rfl, Function.update_self ..⟩

theorem install_commits_tree {force : Bool} {disk : Disk} {staged : Staged} {tree : Tree}
    (hstages : Stages node desired force disk) (hcarry : recordedCarry desired disk = carryUpgradeMap)
    (hstaged : encounter.first.staged.ok = true) (hreal : encounter.first.real.ok = true)
    (hreload : encounter.reload = true)
    (hrun : stageGeneration node desired encounter encounter.first (disk.current.map disk.tree)
      (disk.current = some (node.localGenerationId desired.generation carryUpgradeMap).text)
      carryUpgradeMap (disk.tree (node.localGenerationId desired.generation carryUpgradeMap).text) =
        (.ok staged, tree)) :
    (install node desired encounter force disk).1 = .changed staged.selection ∧
      (install node desired encounter force disk).2.1.current =
        some (node.localGenerationId desired.generation carryUpgradeMap).text ∧
      (install node desired encounter force disk).2.1.tree
        (node.localGenerationId desired.generation carryUpgradeMap).text = tree := by
  obtain ⟨after, hchanged, hafter, _, hcurrent, htree⟩ :=
    install_commits hstages hcarry hstaged hreal hreload hrun
  obtain ⟨hwrittenTree, hwrittenCurrent⟩ :=
    @writeInstalled_disk desired encounter staged.selection carryUpgradeMap after
  rw [hafter, pruneGenerations, hwrittenTree, hwrittenCurrent, hcurrent]
  simp only [ne_eq, not_true_eq_false, and_false, if_false]
  exact ⟨hchanged, trivial, htree⟩

theorem pending_stages {force : Bool} {disk : Disk} (hpending : pending desired disk = true) :
    Stages node desired force disk := by
  refine ⟨?_, by simp [hpending]⟩
  rintro hnone
  rw [pending, hnone] at hpending
  cases hpending

/-- In every run whose commits keep the shared files, an install that meets no failure heals
what is pending: it does not raise, and its directory is that of a first install. -/
theorem install_heals {force : Bool} {disk : Disk} {staged : Staged} {fresh : Tree}
    (hcourse : Course node desired carryUpgradeMap disk)
    (hcarry : recordedCarry desired disk = carryUpgradeMap)
    (hpending : pending desired disk = true) (healthy : Healthy desired encounter)
    (hfresh : stageGeneration node desired encounter encounter.first none false carryUpgradeMap {} =
      (.ok staged, fresh)) :
    (install node desired encounter force disk).1 = .changed staged.selection ∧
      (install node desired encounter force disk).2.1.current =
        some (node.localGenerationId desired.generation carryUpgradeMap).text ∧
      (install node desired encounter force disk).2.1.tree
        (node.localGenerationId desired.generation carryUpgradeMap).text = fresh := by
  have hfiles := Triple.of_run (stageGeneration_files desired encounter encounter.first none false
    carryUpgradeMap) trivial hfresh
  rw [healthy.installable] at hfiles
  have hwhole : WholeFiles node desired carryUpgradeMap staged.files :=
    ⟨hfiles, AllCopied.of_mem (Triple.of_run (stageGeneration_copied none rfl) trivial hfresh)⟩
  exact install_commits_tree (pending_stages hpending) hcarry healthy.staged healthy.real
    healthy.reload (stageGeneration_heals healthy rfl hfresh (course_diskHealable hwhole hcourse))

/-! ### A virtual host that alone reaches its upstream -/

/-- The text of a directory that is served is never changed. -/
def Extends (text : Place → Option String) (tree : Tree) : Prop :=
  ∀ place body, text place = some body → tree.text place = some body

theorem writeRendered_live (text : Place → Option String) (place : Place) (body : String) :
    Triple (Extends text) (writeRendered true place body) (fun _ => Extends text)
      (Extends text) := by
  intro tree htree
  rw [writeRendered_run]
  split
  next heq =>
    split at heq
    next =>
      cases heq
      exact htree
    next =>
      split at heq <;> cases heq
      next hguard =>
        rw [Bool.and_true, Option.not_isSome_iff_eq_none] at hguard
        intro other held hother
        by_cases hplace : other = place
        · subst hplace
          have hsome := htree other held hother
          rw [hguard] at hsome
          cases hsome
        · rw [tree.setText_text_ne _ hplace]
          exact htree other held hother
  next heq =>
    split at heq
    next => cases heq
    next =>
      split at heq <;> cases heq
      exact htree

theorem stageGeneration_live {attempt : Attempt} {previous : Option Tree} (tree : Tree) :
    Triple (fun state => state = tree)
      (stageGeneration node desired encounter attempt previous true carryUpgradeMap)
      (fun _ => Extends tree.text) (fun _ => True) := by
  have hkept (state : Tree) (htext : TextKept tree.text state) : Extends tree.text state := by
    rw [Extends, htext]
    exact fun _ _ hsome => hsome
  refine Triple.bind (((selectVhosts_text tree.text desired encounter attempt previous
    desired.vhosts {})).weaken (fun _ hstate => hstate ▸ rfl) (fun _ => hkept)
      fun _ _ => trivial) fun selection => ?_
  refine Triple.bind (Triple.lift (fun _ _ _ htext => htext) fun _ _ _ _ => trivial)
    fun files => ?_
  have hwritten (file : String × String) (directory : String) : Triple (Extends tree.text)
      (writeFile node directory true file) (fun _ => Extends tree.text) (fun _ => True) :=
    (Triple.bind (writeRendered_live tree.text _ _) fun _ =>
      Triple.bind (Triple.lift (fun _ _ _ htext => htext) fun _ _ _ htext => htext) fun _ =>
        writeRendered_live tree.text _ _).weaken (fun _ hstate => hstate) (fun _ _ hafter => hafter)
          fun _ _ => trivial
  refine Triple.bind (Triple.forM_invariant fun file _ => hwritten file _) fun _ => ?_
  refine Triple.bind ((writeRendered_live tree.text _ _).weaken (fun _ hstate => hstate)
    (fun _ _ hafter => hafter) fun _ _ => trivial) fun _ => ?_
  suffices hweb : Triple (Extends tree.text) (selection.installable.forM
      (stageWebRoot node desired encounter selection.fallbacks))
      (fun _ => Extends tree.text) (fun _ => True) from
    Triple.bind hweb fun _ => Triple.pure fun _ htext => htext
  intro state htext
  refine ((Triple.forM_invariant fun vhost (_ : vhost ∈ selection.installable) =>
    stageWebRoot_text node state.text desired encounter selection.fallbacks vhost).weaken
      (fun start (heq : start = state) => heq ▸ rfl) (fun _ after hafter => ?_)
      fun _ _ => trivial) state rfl
  rw [Extends, hafter]
  exact htext

theorem renderGeneration_upstreams {settings : Settings} {knobs : Knobs}
    {rows : List BlocklistEntry} {vhosts : List Vhost} {generation : Nginx.Word}
    {files : Files String} (hok : renderGeneration settings knobs rows vhosts generation
      carryUpgradeMap = .ok files) (hkeys : (vhosts.map Vhost.pk).Nodup) : ∃ lines,
      renderUpstreams settings (referencedUpstreams vhosts) = .ok lines ∧
      files.get upstreamsName = some (Nginx.joined lines) := by
  have hnames := renderGeneration_names hok hkeys
  obtain ⟨base, upstreams, rendered, _, hupstreams, _, rfl⟩ := renderGeneration_ok hok
  exact ⟨upstreams, hupstreams, Files.get_of_mem hnames (List.mem_cons_of_mem _ List.mem_cons_self)⟩

theorem upstreams_differ {left right : List String}
    (hleft : renderUpstreams plainSettings [] = .ok left)
    (hright : renderUpstreams plainSettings [apiUpstream] = .ok right) :
    Nginx.joined left ≠ Nginx.joined right := by
  cases hleft
  cases hright
  decide

/-- The install that leaves the virtual host out is committed, and waits for its key. -/
theorem tenant_commits (proxied : Bool) : ∃ files tree,
    renderGeneration plainSettings plainKnobs [] [] firstGeneration false = .ok files ∧
    (∀ place, tree.text place = stagePlan plainNode firstGeneration false files place) ∧
    ∃ disk, (install plainNode (tenantDesired proxied) (tenantRun false true) false {}).2.1 = disk ∧
      disk.current = some "1" ∧ disk.tree "1" = tree ∧
      pending (tenantDesired proxied) disk = true ∧
      recordedCarry (tenantDesired proxied) disk = false := by
  obtain ⟨files, tree, hrun, hfiles⟩ := tenant_stages proxied false true none {}
  have hstages : Stages plainNode (tenantDesired proxied) false {} :=
    ⟨List.cons_ne_nil _ _, by simp [evidenceCurrent, tenantDesired]⟩
  have hcarry : recordedCarry (tenantDesired proxied) {} = false := rfl
  obtain ⟨after, _, hafter, _, hcurrent, htree⟩ :=
    install_commits hstages hcarry rfl rfl rfl hrun
  obtain ⟨hwrittenTree, hwrittenCurrent⟩ := @writeInstalled_disk (tenantDesired proxied)
    (tenantRun false true) (tenantSelection proxied false) false after
  refine ⟨files, tree, hfiles, fun place => ?_, _, rfl, ?_⟩
  · rw [Triple.of_run (stageGeneration_text {}) rfl hrun place]
    exact Option.or_none
  rw [hafter]
  have hpruned (disk : Disk) : pruneGenerations (tenantRun false true).pruned disk = disk := by
    rw [pruneGenerations]
    simp [tenantRun]
  rw [hpruned, hwrittenTree, hwrittenCurrent]
  refine ⟨hcurrent, htree, ?_, ?_⟩
  · simp [pending, writeInstalled, tenantDesired, tenantSelection, tenantVhost]
  · simp [recordedCarry, writeInstalled, tenantDesired]

theorem tenant_healthy (proxied : Bool) : Healthy (tenantDesired proxied) (tenantRun true true) where
  fetched _ := by simp [fetchFailure, tenantRun]
  onDisk _ _ _ := rfl
  keys vhost hvhost := by
    have heq : vhost = tenantVhost proxied := List.mem_singleton.mp (mem_whole.mp hvhost).1
    rw [heq]
    rfl
  staged := rfl
  real := rfl
  reload := rfl

/-- The file of the upstreams changes when the virtual host comes back, and the guard of the
directory that is served refuses it. -/
theorem not_all_pending_heal : ¬∀ (node : Node) (runs : List (Desired × Encounter × Bool))
    (desired : Desired) (encounter : Encounter) (force : Bool) (staged : Staged) (fresh : Tree),
    pending desired (afterInstalls node runs) = true → Healthy desired encounter →
    stageGeneration node desired encounter encounter.first none false
      (recordedCarry desired (afterInstalls node runs)) {} = (.ok staged, fresh) →
    ∃ selection, (install node desired encounter force (afterInstalls node runs)).1 =
      .changed selection := by
  intro hall
  obtain ⟨files, tree, hfiles, htext, disk, hdisk, hcurrent, htree, hpending, hcarry⟩ :=
    tenant_commits true
  obtain ⟨whole, fresh, hfresh, hwhole⟩ := tenant_stages true true true none {}
  have hheal := hall plainNode [(tenantDesired true, tenantRun false true, false)]
    (tenantDesired true) (tenantRun true true) false ⟨whole, tenantSelection true true⟩ fresh
  rw [afterInstalls_singleton, hdisk, hcarry] at hheal
  obtain ⟨selection, hchanged⟩ := hheal hpending (tenant_healthy true) hfresh
  obtain ⟨left, hleft, hheld⟩ := renderGeneration_upstreams hfiles List.nodup_nil
  cases hrun : stageGeneration plainNode (tenantDesired true) (tenantRun true true)
      (tenantRun true true).first (disk.current.map disk.tree)
      (disk.current = some (plainNode.localGenerationId (tenantDesired true).generation false).text)
      false (disk.tree (plainNode.localGenerationId (tenantDesired true).generation false).text) with
  | mk result last =>
    cases result with
    | error refusal =>
      rw [install_eq (pending_stages hpending), hcarry, installDesired,
        runAttempt_raised hrun] at hchanged
      cases hchanged
    | ok staged =>
      have hfiles := Triple.of_run (stageGeneration_files (tenantDesired true)
        (tenantRun true true) (tenantRun true true).first _ _ false) trivial hrun
      rw [(tenant_healthy true).installable] at hfiles
      have hplan := Triple.of_run (stageGeneration_text _) rfl hrun (.config upstreamsName)
      rw [tenant_name, hcurrent, decide_eq_true rfl, htree] at hrun
      have hkept := Triple.of_run (stageGeneration_live tree) rfl hrun (.config upstreamsName)
      obtain ⟨right, hright, hwritten⟩ := renderGeneration_upstreams hfiles
        (List.nodup_singleton _)
      rw [stagePlan_config, hwritten, Option.some_or] at hplan
      rw [hplan] at hkept
      have hbefore : tree.text (.config upstreamsName) = some (Nginx.joined left) := by
        rw [htext, stagePlan_config, hheld]
      exact upstreams_differ hleft hright (Option.some.inj (hkept _ hbefore)).symm

theorem tenant_sharedKept (encounter : Encounter) (attempt : Attempt) (previous : Option Tree) :
    SharedKept (tenantDesired false) encounter attempt previous where
  upstreams vhost hvhost _ upstream hupstream := by
    have heq : vhost = tenantVhost false := List.mem_singleton.mp (mem_whole.mp hvhost).1
    rw [heq, tenantVhost_upstreams] at hupstream
    exact absurd hupstream List.not_mem_nil
  policies := nofun

/-- A virtual host that redirects comes back. -/
theorem redirect_heals : ∃ (disk : Disk) (staged : Staged) (fresh : Tree),
    (install plainNode (tenantDesired false) (tenantRun true true) false disk).1 =
      .changed staged.selection ∧
    (install plainNode (tenantDesired false) (tenantRun true true) false disk).2.1.current =
      some (plainNode.localGenerationId (tenantDesired false).generation false).text ∧
    (install plainNode (tenantDesired false) (tenantRun true true) false disk).2.1.tree
      (plainNode.localGenerationId (tenantDesired false).generation false).text = fresh := by
  obtain ⟨_, _, _, _, disk, hdisk, _, _, hpending, hcarry⟩ := tenant_commits false
  obtain ⟨whole, fresh, hfresh, _⟩ := tenant_stages false true true none {}
  have hcourse : Course plainNode (tenantDesired false) false disk := by
    rw [← hdisk]
    refine .install (.start {} rfl nofun) (tenantRun false true) false fun _ => ⟨fun _ _ => ?_, ?_⟩
    · exact tenant_sharedKept _ _ _
    · exact fun _ _ _ _ _ _ => tenant_sharedKept _ _ _
  exact ⟨disk, ⟨whole, tenantSelection false true⟩, fresh,
    install_heals hcourse hcarry hpending (tenant_healthy false) hfresh⟩

end DjangoMojo.Edge
