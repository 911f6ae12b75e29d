import DjangoMojo.Edge.Installer
import DjangoMojo.Edge.Injection

/-! # What a staging leaves in its directory

A staging that returns has written the planned text over what the directory held, for
the virtual hosts that it did not leave out.
-/

namespace DjangoMojo.Edge

open Foundation
open Effect (Triple)

/-! ### The text of a directory -/

theorem writeRendered_triple (live : Bool) (place : Place) (body : String) (tree : Tree) :
    Triple (fun state => state = tree) (writeRendered live place body)
      (fun _ state => state = tree.setText place body) (fun state => state = tree) := by
  have hread : Triple (fun state => state = tree)
      (Effect.read fun tree => tree.text place : Staging (Option String))
      (fun existing state => existing = tree.text place ∧ state = tree)
      (fun state => state = tree) := by
    refine Triple.read ?_
    rintro state rfl
    exact ⟨rfl, rfl⟩
  refine Triple.bind hread fun existing => ?_
  split
  next hsame =>
    refine Triple.pure ?_
    rintro state ⟨rfl, rfl⟩
    exact (state.setText_eq_self body hsame).symm
  next =>
    split
    next => exact Triple.fail fun state hstate => hstate.2
    next =>
      refine Triple.change ?_
      rintro state ⟨rfl, rfl⟩
      rfl

def TextKept (text : Place → Option String) (tree : Tree) : Prop := tree.text = text

theorem selectVhost_text (text : Place → Option String) (desired : Desired)
    (encounter : Encounter) (attempt : Attempt) (previous : Option Tree) (vhost : Vhost)
    (selection : Selection) :
    Triple (TextKept text) (selectVhost desired encounter attempt previous vhost selection)
      (fun _ => TextKept text) (TextKept text) := by
  have hexclude (message : String) (allowHouse : Bool) (selection : Selection) :
      Triple (TextKept text) (excludeOrAbort vhost message allowHouse selection)
        (fun _ => TextKept text) (TextKept text) := by
    unfold excludeOrAbort
    split
    next => exact Triple.fail fun _ hkept => hkept
    next => exact Triple.pure fun _ hkept => hkept
  have hwrite : Triple (TextKept text) (writeMaterial vhost.certificate (attempt.keys vhost.pk))
      (fun _ => TextKept text) (TextKept text) := by
    unfold writeMaterial
    split
    next => exact Triple.fail fun _ hkept => hkept
    next => exact Triple.pure fun _ hkept => hkept
    next =>
      split
      next => exact Triple.pure fun _ hkept => hkept
      next =>
        exact Triple.bind (Triple.change fun _ hkept => hkept) fun _ =>
          Triple.pure fun _ hkept => hkept
  have hmaterial (selection : Selection) :
      Triple (TextKept text) (selectByMaterial attempt vhost selection)
        (fun _ => TextKept text) (TextKept text) := by
    refine Triple.bind hwrite fun written => ?_
    split
    next => exact Triple.pure fun _ hkept => hkept
    next => exact hexclude _ _ _
  unfold selectVhost
  split
  next => exact hexclude _ _ _
  next =>
    split
    next => exact hexclude _ _ _
    next => exact hmaterial _
    next => exact hmaterial _

theorem selectVhosts_text (text : Place → Option String) (desired : Desired)
    (encounter : Encounter) (attempt : Attempt) (previous : Option Tree) (vhosts : List Vhost)
    (selection : Selection) :
    Triple (TextKept text) (selectVhosts desired encounter attempt previous vhosts selection)
      (fun _ => TextKept text) (TextKept text) := by
  induction vhosts generalizing selection with
  | nil => exact Triple.pure fun _ hkept => hkept
  | cons vhost rest ih =>
    exact Triple.bind (selectVhost_text text desired encounter attempt previous vhost selection)
      fun next => ih next

theorem readWww_text (text : Place → Option String) (vhost : Nat) :
    Triple (TextKept text) (Effect.read fun tree => tree.www vhost : Staging (Option WebRoot))
      (fun _ => TextKept text) (TextKept text) :=
  Triple.read fun _ hkept => hkept

theorem swapWebRoot_text (text : Place → Option String) (vhost : Nat) (version : String) :
    Triple (TextKept text) (swapWebRoot vhost version) (fun _ => TextKept text)
      (TextKept text) := by
  refine Triple.bind (readWww_text text vhost) fun root => ?_
  split
  next => exact Triple.fail fun _ hkept => hkept
  next => exact Triple.change fun _ hkept => hkept

theorem stageWebRoot_text (node : Node) (text : Place → Option String) (desired : Desired)
    (encounter : Encounter) (fallbacks : List (Nat × String)) (vhost : Vhost) :
    Triple (TextKept text) (stageWebRoot node desired encounter fallbacks vhost)
      (fun _ => TextKept text) (TextKept text) := by
  unfold stageWebRoot
  split
  next => exact Triple.pure fun _ hkept => hkept
  next =>
    split
    next => exact swapWebRoot_text text _ _
    next =>
      refine Triple.bind (readWww_text text vhost.pk) fun root => ?_
      split
      next =>
        split
        next => exact Triple.pure fun _ hkept => hkept
        next => exact Triple.fail fun _ hkept => hkept
      next => exact Triple.change fun _ hkept => hkept
    next =>
      split
      next => exact swapWebRoot_text text _ _
      next => exact Triple.fail fun _ hkept => hkept

variable {node : Node}

/-- What the files of a staging make of the text of a directory. -/
def planOf (node : Node) (directory : String) (files : Files String) : Place → Option String
  | .config name => files.get name
  | .staging name => (files.get name).bind fun body =>
    (stagedCopy node directory (name, body)).toOption
  | .harness => none

theorem planOf_concat {directory : String} {visited : Files String} {file : String × String}
    {copy : String} (hcopy : stagedCopy node directory file = .ok copy) :
    planOf node directory (visited ++ [file]) = Function.update (Function.update
      (planOf node directory visited) (.config file.1) (some file.2)) (.staging file.1)
        (some copy) := by
  have hget (name : String) (hname : name ≠ file.1) :
      Files.get (visited ++ [file]) name = Files.get visited name := by
    have hother : Files.get [file] name = none := by simp [Files.get, hname]
    rw [Files.get_append, hother, Option.none_or]
  have hown : Files.get (visited ++ [file]) file.1 = some file.2 :=
    Files.get_concat visited file.1 file.2
  funext place
  cases place with
  | config name =>
    rw [Function.update_of_ne (by simp), planOf]
    by_cases hname : name = file.1
    · rw [hname, hown, Function.update_self]
    · rw [hget name hname, Function.update_of_ne (by simpa using hname), planOf]
  | staging name =>
    rw [planOf]
    by_cases hname : name = file.1
    · rw [hname, hown, Function.update_self, Option.bind_some]
      exact congrArg Except.toOption hcopy
    · rw [hget name hname, Function.update_of_ne (by simpa using hname),
        Function.update_of_ne (by simp), planOf]
  | harness =>
    rw [Function.update_of_ne (by simp), Function.update_of_ne (by simp)]
    rfl

/-- The text of the directory is what was planned, and elsewhere what it was. -/
def TextIs (plan before : Place → Option String) (tree : Tree) : Prop :=
  ∀ place, tree.text place = (plan place).or (before place)

theorem TextIs.setText {plan before : Place → Option String} {tree : Tree}
    (htext : TextIs plan before tree) (place : Place) (body : String) :
    TextIs (Function.update plan place (some body)) before (tree.setText place body) := by
  intro other
  by_cases hother : other = place
  · rw [hother, Tree.setText_text_self, Function.update_self]
    rfl
  · rw [tree.setText_text_ne body hother, Function.update_of_ne hother, htext]

theorem writeFile_text (directory : String) (live : Bool) (file : String × String)
    (visited : Files String) (before : Place → Option String) :
    Triple (TextIs (planOf node directory visited) before) (writeFile node directory live file)
      (fun _ => TextIs (planOf node directory (visited ++ [file])) before) (fun _ => True) := by
  intro tree hvisited
  suffices hall : Triple (fun state => state = tree) (writeFile node directory live file)
      (fun _ => TextIs (planOf node directory (visited ++ [file])) before) (fun _ => True) from
    hall tree rfl
  refine Triple.bind ((writeRendered_triple live (.config file.1) file.2 tree).weaken
    (fun _ hstate => hstate) (fun _ _ hstate => hstate) fun _ _ => trivial) fun _ => ?_
  have hlift : Triple (fun state => state = tree.setText (.config file.1) file.2)
      (Effect.lift (stagedCopy node directory file) : Staging String)
      (fun copy state => stagedCopy node directory file = .ok copy ∧
        state = tree.setText (.config file.1) file.2) (fun _ => True) :=
    Triple.lift (fun _ hcopy _ hstate => ⟨hcopy, hstate⟩) fun _ _ _ _ => trivial
  refine Triple.bind hlift fun copy => ?_
  rintro state ⟨hcopy, hstate⟩
  refine ((writeRendered_triple live (.staging file.1) copy _).weaken
    (fun _ heq => heq) (fun _ after hafter => ?_) fun _ _ => trivial) state hstate
  rw [hafter, planOf_concat hcopy]
  exact (hvisited.setText (.config file.1) file.2).setText (.staging file.1) copy

def stagePlan (node : Node) (name : Nginx.Word) (carryUpgradeMap : Bool) (files : Files String) :
    Place → Option String :=
  Function.update (planOf node (generationDir node.settings name) files) .harness
    (some (renderNginxHarness node.settings name carryUpgradeMap))

theorem stageGeneration_text {desired : Desired} {encounter : Encounter} {attempt : Attempt}
    {previous : Option Tree} {live carryUpgradeMap : Bool} (tree : Tree) :
    Triple (fun state => state = tree)
      (stageGeneration node desired encounter attempt previous live carryUpgradeMap)
      (fun staged => TextIs (stagePlan node (node.localGenerationId desired.generation
        carryUpgradeMap) carryUpgradeMap staged.files) tree.text) (fun _ => True) := by
  refine Triple.bind ((selectVhosts_text tree.text desired encounter attempt previous
    desired.vhosts {}).weaken (fun _ hstate => hstate ▸ rfl) (fun _ _ hkept => hkept)
      fun _ _ => trivial) fun selection => ?_
  refine Triple.bind (Triple.lift (fun _ _ _ hkept => hkept) fun _ _ _ _ => trivial)
    fun files => ?_
  have hwritten : Triple (TextKept tree.text) (files.forM (writeFile node (generationDir
      node.settings (node.localGenerationId desired.generation carryUpgradeMap)) live))
      (fun _ => TextIs (planOf node (generationDir node.settings (node.localGenerationId
        desired.generation carryUpgradeMap)) files) tree.text) (fun _ => True) := by
    refine (@Triple.forM Tree Refusal _ _ files _ (fun visited => TextIs (planOf node _ visited)
      tree.text) fun visited file _ _ => writeFile_text _ live file visited tree.text).weaken ?_
      (fun _ _ hafter => hafter) fun _ _ => trivial
    intro state hkept place
    cases place <;> exact congrFun hkept _
  refine Triple.bind hwritten fun _ => ?_
  generalize hplan : stagePlan node (node.localGenerationId desired.generation carryUpgradeMap)
    carryUpgradeMap files = plan
  have hharness : Triple (TextIs (planOf node (generationDir node.settings
      (node.localGenerationId desired.generation carryUpgradeMap)) files) tree.text)
      (writeRendered live .harness (renderNginxHarness node.settings (node.localGenerationId
        desired.generation carryUpgradeMap) carryUpgradeMap))
      (fun _ => TextIs plan tree.text) (fun _ => True) := by
    intro state htext
    refine ((writeRendered_triple live .harness _ state).weaken (fun _ hstate => hstate)
      (fun _ after hafter => ?_) fun _ _ => trivial) state rfl
    rw [hafter, ← hplan]
    exact htext.setText .harness _
  refine Triple.bind hharness fun _ => ?_
  suffices hweb : Triple (TextIs plan tree.text) (selection.installable.forM
      (stageWebRoot node desired encounter selection.fallbacks))
      (fun _ => TextIs plan tree.text) (fun _ => True) from
    Triple.bind hweb fun _ => Triple.pure fun _ htext => hplan ▸ htext
  intro state htext
  have hroots := Triple.forM_invariant fun vhost (_ : vhost ∈ selection.installable) =>
    stageWebRoot_text node state.text desired encounter selection.fallbacks vhost
  have hfrom : ∀ start, start = state → TextKept state.text start := fun _ heq => heq ▸ rfl
  refine (hroots.weaken hfrom (fun _ after hkept => ?_) fun _ _ => trivial) state rfl
  intro place
  rw [hkept]
  exact htext place

/-! ### Which virtual hosts are staged -/

theorem excludeOrAbort_installable (vhost : Vhost) (message : String) (allowHouse : Bool)
    (selection : Selection) :
    Triple (fun _ => True) (excludeOrAbort vhost message allowHouse selection)
      (fun after _ => after.installable = selection.installable) (fun _ => True) := by
  unfold excludeOrAbort
  split
  next => exact Triple.fail fun _ _ => trivial
  next => exact Triple.pure fun _ _ => rfl

theorem writeMaterial_readable (certificate : Certificate) (key : KeyRead) :
    Triple (fun _ => True) (writeMaterial certificate key)
      (fun written _ => written = readable certificate key) (fun _ => True) := by
  unfold writeMaterial
  split
  next => exact Triple.fail fun _ _ => trivial
  next => exact Triple.pure fun _ _ => rfl
  next text =>
    split
    next hempty =>
      refine Triple.pure fun _ _ => ?_
      have hnone : text = "" ∨ certificate.certPem = "" := by simpa using hempty
      rcases hnone with hnone | hnone <;> simp [readable, hnone]
    next hsome =>
      have hboth : text ≠ "" ∧ certificate.certPem ≠ "" := by simpa [not_or] using hsome
      refine Triple.bind (@Triple.change Tree Refusal (fun _ => True) _ (fun _ _ => True) _
        fun _ _ => trivial) fun _ => Triple.pure fun _ _ => ?_
      simp [readable, hboth]

theorem selectByMaterial_installable (attempt : Attempt) (vhost : Vhost) (selection : Selection) :
    Triple (fun _ => True) (selectByMaterial attempt vhost selection)
      (fun after _ => after.installable = selection.installable ++
        if readable vhost.certificate (attempt.keys vhost.pk) then [vhost] else [])
      (fun _ => True) := by
  refine Triple.bind (writeMaterial_readable vhost.certificate (attempt.keys vhost.pk))
    fun written => ?_
  split
  next hwritten =>
    refine Triple.pure fun _ hreadable => ?_
    rw [← hreadable, hwritten, if_pos rfl]
  next hwritten =>
    intro tree hreadable
    refine (excludeOrAbort_installable vhost _ false _).post (fun after _ hafter => ?_) tree trivial
    rw [hafter, ← hreadable, if_neg hwritten, List.append_nil]

theorem selectVhost_installable (desired : Desired) (encounter : Encounter) (attempt : Attempt)
    (previous : Option Tree) (vhost : Vhost) (selection : Selection) :
    Triple (fun _ => True) (selectVhost desired encounter attempt previous vhost selection)
      (fun after _ => after.installable = selection.installable ++
        if installs desired encounter attempt previous vhost then [vhost] else [])
      (fun _ => True) := by
  have hexcluded (message : String) (allowHouse : Bool)
      (hnot : installs desired encounter attempt previous vhost = false) :
      Triple (fun _ => True) (excludeOrAbort vhost message allowHouse selection)
        (fun after _ => after.installable = selection.installable ++
          if installs desired encounter attempt previous vhost then [vhost] else []) (fun _ => True) := by
    refine (excludeOrAbort_installable vhost message allowHouse selection).post
      fun after _ hafter => ?_
    rw [hafter, hnot, if_neg Bool.false_ne_true, List.append_nil]
  unfold selectVhost
  split
  next hdisabled =>
    apply hexcluded
    simp [installs, hdisabled]
  next hnone =>
    rw [not_not] at hnone
    split
    next failure hfailure hroot =>
      apply hexcluded
      simp [installs, hfailure, hroot]
    next failure version hfailure hroot =>
      have hinstalls : installs desired encounter attempt previous vhost =
          readable vhost.certificate (attempt.keys vhost.pk) := by
        simp [installs, hnone, hfailure, hroot]
      rw [hinstalls]
      exact selectByMaterial_installable attempt vhost _
    next hfailure =>
      have hinstalls : installs desired encounter attempt previous vhost =
          readable vhost.certificate (attempt.keys vhost.pk) := by
        simp [installs, hnone, hfailure]
      rw [hinstalls]
      exact selectByMaterial_installable attempt vhost selection

theorem selectVhosts_installable (desired : Desired) (encounter : Encounter) (attempt : Attempt)
    (previous : Option Tree) (vhosts : List Vhost) (selection : Selection) :
    Triple (fun _ => True) (selectVhosts desired encounter attempt previous vhosts selection)
      (fun after _ => after.installable = selection.installable ++
        vhosts.filter (installs desired encounter attempt previous)) (fun _ => True) := by
  induction vhosts generalizing selection with
  | nil => exact Triple.pure fun _ _ => (List.append_nil _).symm
  | cons vhost rest ih =>
    refine Triple.bind (selectVhost_installable desired encounter attempt previous vhost selection)
      fun next => ?_
    intro tree hnext
    refine (ih next).post (fun after _ hafter => ?_) tree trivial
    rw [hafter, hnext, List.append_assoc, List.filter_cons]
    congr 1
    split <;> rfl

/-- What a staging that returns has staged. -/
theorem stageGeneration_files (desired : Desired) (encounter : Encounter) (attempt : Attempt)
    (previous : Option Tree) (live carryUpgradeMap : Bool) :
    Triple (fun _ => True)
      (stageGeneration node desired encounter attempt previous live carryUpgradeMap)
      (fun staged _ => renderGeneration node.settings desired.knobs desired.rows
        (desired.vhosts.filter (installs desired encounter attempt previous))
        (node.localGenerationId desired.generation carryUpgradeMap) carryUpgradeMap =
          .ok staged.files) (fun _ => True) := by
  refine Triple.bind (selectVhosts_installable desired encounter attempt previous desired.vhosts {})
    fun selection => ?_
  intro tree hselection
  rw [List.nil_append] at hselection
  rw [← hselection]
  have hany (action : Staging Unit) : Triple (fun _ => True) action (fun _ _ => True)
      (fun _ => True) := by
    intro state _
    split <;> trivial
  refine (Triple.bind (@Triple.lift Tree Refusal _ (fun _ => True) (fun _ => True)
    (fun files _ => renderGeneration node.settings desired.knobs desired.rows
      selection.installable (node.localGenerationId desired.generation carryUpgradeMap)
      carryUpgradeMap = .ok files) _ (fun _ hok _ _ => hok) fun _ _ _ _ => trivial)
    fun files => ?_) tree trivial
  intro state hfiles
  refine (Triple.bind (hany _) fun _ => Triple.bind (hany _) fun _ => Triple.bind (hany _)
    fun _ => Triple.pure fun _ _ => ?_) state trivial
  exact hfiles

end DjangoMojo.Edge
