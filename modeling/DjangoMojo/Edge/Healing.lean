import DjangoMojo.Edge.HealingTree

/-! # Healing a generation in the directory that serves it

Where every install of a generation left the http base and the upstreams as the whole
generation has them, an install that meets no failure makes of its directory what a
first install would have made of an empty one.
-/

namespace DjangoMojo.Edge

open Foundation
open Effect (Triple)

variable {node : Node} {desired : Desired} {encounter : Encounter} {attempt : Attempt}
  {name : Nginx.Word} {carryUpgradeMap live : Bool}

/-! ### A staging that meets no failure -/

/-- Every key reads, every release is there, and every check passes. -/
structure Healthy (desired : Desired) (encounter : Encounter) : Prop where
  fetched : ∀ vhost, fetchFailure desired encounter vhost = none
  onDisk : ∀ vhost version, desired.release vhost = some version →
    encounter.onDisk vhost version = true
  keys : ∀ vhost ∈ desired.whole,
    readable vhost.certificate (encounter.first.keys vhost.pk) = true
  staged : encounter.first.staged.ok = true
  real : encounter.first.real.ok = true
  reload : encounter.reload = true

theorem Healthy.installable (healthy : Healthy desired encounter) (previous : Option Tree) :
    desired.vhosts.filter (installs desired encounter encounter.first previous) =
      desired.whole := by
  rw [filter_installs, List.filter_eq_self]
  intro vhost hvhost
  simp [installs, (mem_whole.mp hvhost).2, healthy.fetched, healthy.keys vhost hvhost]

theorem selectVhosts_fetched (hfetched : ∀ vhost, fetchFailure desired encounter vhost = none)
    (previous other : Option Tree) (vhosts : List Vhost) (selection : Selection) :
    selectVhosts desired encounter attempt previous vhosts selection =
      selectVhosts desired encounter attempt other vhosts selection := by
  induction vhosts generalizing selection with
  | nil => rfl
  | cons vhost rest ih =>
    have hhead : selectVhost desired encounter attempt previous vhost selection =
        selectVhost desired encounter attempt other vhost selection := by
      simp only [selectVhost, hfetched]
    rw [selectVhosts, selectVhosts, hhead]
    exact congrArg _ (funext ih)

/-- A staging that returns had a copy of each of its files. -/
theorem stageGeneration_copied (previous : Option Tree)
    (hname : node.localGenerationId desired.generation carryUpgradeMap = name) :
    Triple (fun _ => True)
      (stageGeneration node desired encounter attempt previous live carryUpgradeMap)
      (fun staged _ => ∀ file ∈ staged.files, ∃ copy,
        stagedCopy node (generationDir node.settings name) file = .ok copy) (fun _ => True) := by
  subst hname
  refine Triple.bind Triple.fact fun selection => Triple.bind Triple.fact fun files => ?_
  have hwritten : Triple (fun _ => True)
      (files.forM (writeFile node (generationDir node.settings (node.localGenerationId
        desired.generation carryUpgradeMap)) live))
      (fun _ _ => ∀ file ∈ files, ∃ copy, stagedCopy node (generationDir node.settings
        (node.localGenerationId desired.generation carryUpgradeMap)) file = .ok copy)
      (fun _ => True) := by
    refine (@Triple.forM Tree Refusal _ (fun _ => True) files _ (fun visited _ => ∀ file ∈ visited, ∃ copy,
      stagedCopy node _ file = .ok copy) fun visited file _ _ => ?_).weaken
      (fun _ _ _ hmem => absurd hmem List.not_mem_nil) (fun _ _ hafter => hafter) fun _ _ => trivial
    refine Triple.bind Triple.fact fun _ => Triple.bind (Triple.lift (fun copy hcopy _ hvisited =>
      And.intro hvisited hcopy) fun _ _ _ _ => trivial) fun copy => ?_
    refine Triple.fact.post fun _ _ hboth other hother => ?_
    rcases List.mem_append.mp hother with hold | hnew
    · exact hboth.1 other hold
    · rw [List.mem_singleton.mp hnew]
      exact ⟨copy, hboth.2⟩
  exact Triple.bind hwritten fun _ => Triple.bind Triple.fact fun _ =>
    Triple.bind Triple.fact fun _ => Triple.pure fun _ hcopies => hcopies

/-! ### Web roots -/

/-- The web roots after those of some virtual hosts were placed. -/
def RootsAre (node : Node) (desired : Desired) (placed : List Vhost)
    (before after : Nat → Option WebRoot) : Prop :=
  ∀ pk, (∀ vhost ∈ placed, vhost.pk = pk → vhost.servesFiles = true →
      after pk = some (desired.rootOf node vhost)) ∧
    ((∀ vhost ∈ placed, vhost.pk = pk → vhost.servesFiles = false) → after pk = before pk)

theorem RootsAre.skip {placed : List Vhost} {before after : Nat → Option WebRoot} {vhost : Vhost}
    (hroots : RootsAre node desired placed before after) (hserves : vhost.servesFiles = false) :
    RootsAre node desired (placed ++ [vhost]) before after := by
  intro pk
  constructor
  · intro other hother hpk hfiles
    rcases List.mem_append.mp hother with hold | hnew
    · exact (hroots pk).1 other hold hpk hfiles
    · rw [List.mem_singleton.mp hnew, hserves] at hfiles
      cases hfiles
  · exact fun hnone => (hroots pk).2 fun other hother =>
      hnone other (List.mem_append_left _ hother)

theorem RootsAre.place {placed : List Vhost} {before after : Nat → Option WebRoot} {vhost : Vhost}
    (hroots : RootsAre node desired placed before after)
    (hkeys : ∀ other ∈ placed, other.pk ≠ vhost.pk) (hserves : vhost.servesFiles = true) :
    RootsAre node desired (placed ++ [vhost]) before
      (Function.update after vhost.pk (some (desired.rootOf node vhost))) := by
  intro pk
  by_cases hpk : pk = vhost.pk
  · subst hpk
    rw [Function.update_self]
    constructor
    · intro other hother hsame _
      rcases List.mem_append.mp hother with hold | hnew
      · exact absurd hsame (hkeys other hold)
      · rw [List.mem_singleton.mp hnew]
    · intro hnone
      have hfiles := hnone vhost (List.mem_append_right _ (List.mem_singleton_self _)) rfl
      rw [hserves] at hfiles
      cases hfiles
  · rw [Function.update_of_ne hpk]
    constructor
    · intro other hother hsame hfiles
      rcases List.mem_append.mp hother with hold | hnew
      · exact (hroots pk).1 other hold hsame hfiles
      · rw [List.mem_singleton.mp hnew] at hsame
        exact absurd hsame.symm hpk
    · exact fun hnone => (hroots pk).2 fun other hother =>
        hnone other (List.mem_append_left _ hother)

/-- A web root that fits its virtual host is replaced by the one of the generation. -/
theorem stageWebRoot_places (healthy : Healthy desired encounter) {placed : List Vhost}
    {vhost : Vhost} {before : Nat → Option WebRoot}
    (hkeys : ∀ other ∈ placed, other.pk ≠ vhost.pk)
    (hbefore : ∀ root, before vhost.pk = some root → RootFits node desired vhost root) :
    Triple (fun tree => RootsAre node desired placed before tree.www)
      (stageWebRoot node desired encounter [] vhost)
      (fun _ tree => RootsAre node desired (placed ++ [vhost]) before tree.www)
      (fun _ => False) := by
  have hread : Triple (fun tree => RootsAre node desired placed before tree.www)
      (Effect.read fun tree => tree.www vhost.pk : Staging (Option WebRoot))
      (fun root tree => RootsAre node desired placed before tree.www ∧ root = before vhost.pk)
      (fun _ => False) := by
    refine Triple.read fun tree hroots => ⟨hroots, ?_⟩
    exact (hroots vhost.pk).2 fun other hother hpk => absurd hpk (hkeys other hother)
  unfold stageWebRoot
  split
  next hserves => exact Triple.pure fun tree hroots => hroots.skip (by simpa using hserves)
  next hserves =>
    have hserves : vhost.servesFiles = true := by simpa using hserves
    cases hrelease : desired.release vhost.pk with
    | none =>
      refine Triple.bind hread fun root => Triple.given fun hroot => ?_
      split
      next found =>
        have hfits := hbefore _ hroot.symm
        rw [RootFits, hrelease] at hfits
        cases hfits
      next =>
        refine Triple.change fun tree hroots => ?_
        have hroot : desired.rootOf node vhost = .placeholder (node.placeholderPage vhost.name) := by
          rw [Desired.rootOf, hrelease]
        rw [Tree.setWww, ← hroot]
        exact hroots.place hkeys hserves
    | some version =>
      simp only [List.reverse_nil, List.lookup_nil, healthy.onDisk vhost.pk version hrelease,
        if_true]
      refine Triple.bind hread fun root => Triple.given fun hroot => ?_
      split
      next page =>
        have hfits := hbefore _ hroot.symm
        rw [RootFits, hrelease] at hfits
        cases hfits.1
      next =>
        refine Triple.change fun tree hroots => ?_
        have hroot : desired.rootOf node vhost = .release version := by
          rw [Desired.rootOf, hrelease]
        rw [Tree.setWww, ← hroot]
        exact hroots.place hkeys hserves

/-! ### The directory after a staging that meets no failure -/

theorem stageWebRoots_place (healthy : Healthy desired encounter) {tree : Tree}
    {plan : Place → Option String} (htree : Healable node desired plan live tree) :
    Triple (fun state => state.www = tree.www)
      (desired.whole.forM (stageWebRoot node desired encounter []))
      (fun _ state => RootsAre node desired desired.whole tree.www state.www)
      (fun _ => False) := by
  have hkeys : (desired.whole.map Vhost.pk).Nodup :=
    desired.keys_nodup.sublist (List.filter_sublist.map _)
  refine (@Triple.forM Tree Refusal _ (fun _ => False) desired.whole _ (fun placed state =>
    RootsAre node desired placed tree.www state.www) fun placed vhost rest heq => ?_).weaken
    (fun state hstate => ?_) (fun _ _ hafter => hafter) fun _ hfalse => hfalse
  · have hvhost : vhost ∈ desired.whole := heq ▸ by simp
    refine stageWebRoot_places healthy (fun other hother hpk => ?_) fun root hroot => ?_
    · rw [heq, List.map_append, List.nodup_append] at hkeys
      exact hkeys.2.2 _ (List.mem_map_of_mem hother) _
        (List.mem_map_of_mem List.mem_cons_self) hpk
    · obtain ⟨other, hother, hpk, _, hfits⟩ := htree.www vhost.pk root hroot
      exact List.inj_on_of_nodup_map hkeys hother hvhost hpk ▸ hfits
  · intro pk
    exact ⟨fun vhost hvhost => absurd hvhost List.not_mem_nil, fun _ => congrFun hstate pk⟩

theorem AllCopied.of_mem {whole : Files String}
    (hcopies : ∀ file ∈ whole, ∃ copy,
      stagedCopy node (generationDir node.settings name) file = .ok copy) :
    AllCopied node name whole := by
  intro file body hget
  obtain ⟨before, after, heq, _⟩ := List.lookup_eq_some_iff.mp hget
  refine hcopies (file, body) ?_
  rw [← List.mem_reverse, heq]
  simp

theorem stagePlan_shared {whole : Files String} {vhosts : List Vhost}
    (hwhole : renderGeneration node.settings desired.knobs desired.rows vhosts name
      carryUpgradeMap = .ok whole) (hcopied : AllCopied node name whole) {place : Place}
    (hshared : place.shared = true) :
    stagePlan node name carryUpgradeMap whole place ≠ none := by
  have hfile (file : String) (hfile : sharedName file = true) : ∃ body, whole.get file = some body := by
    rw [← Option.ne_none_iff_exists', Files.get_ne_none_iff, renderGeneration_map_fst hwhole]
    simp only [sharedName, Bool.or_eq_true, decide_eq_true_eq] at hfile
    rcases hfile with hbase | hupstreams
    · simp [hbase]
    · simp [hupstreams]
  cases place with
  | config file =>
    obtain ⟨body, hbody⟩ := hfile file hshared
    rw [stagePlan_config, hbody]
    exact Option.some_ne_none _
  | staging file =>
    obtain ⟨body, hbody⟩ := hfile file hshared
    obtain ⟨copy, hcopy⟩ := hcopied file body hbody
    rw [stagePlan_staging, hbody, Option.bind_some, hcopy]
    exact Option.some_ne_none _
  | harness => cases hshared

theorem Healable.writable {tree : Tree} {plan : Place → Option String}
    (htree : Healable node desired plan live tree) : Writable live plan tree := by
  intro hlive place body hbody
  cases hplace : place.shared with
  | true => exact .inr ((htree.shared hlive place hplace).trans hbody)
  | false => exact (htree.own place hplace).imp_right fun htext => htext.trans hbody

/-- An empty directory and one that can be staged again end up the same. -/
theorem stageGeneration_heals {previous : Option Tree} {staged : Staged} {fresh tree : Tree}
    (healthy : Healthy desired encounter)
    (hname : node.localGenerationId desired.generation carryUpgradeMap = name)
    (hfresh : stageGeneration node desired encounter encounter.first none false carryUpgradeMap {} =
      (.ok staged, fresh))
    (htree : Healable node desired (stagePlan node name carryUpgradeMap staged.files) live tree) :
    stageGeneration node desired encounter encounter.first previous live carryUpgradeMap tree =
      (.ok staged, fresh) := by
  have hfiles := Triple.of_run (stageGeneration_files desired encounter encounter.first none false
    carryUpgradeMap) trivial hfresh
  rw [healthy.installable, hname] at hfiles
  have hcopies := Triple.of_run (stageGeneration_copied none hname) trivial hfresh
  obtain ⟨selection, between, hselect, hrest⟩ := Effect.bind_run_ok.mp hfresh
  obtain ⟨result, written, hwrites, hcerts⟩ := selectVhosts_certs desired encounter encounter.first
    none desired.vhosts {}
  obtain ⟨rfl, hbetween⟩ := hwrites.of_run hselect
  have hinstallable : selection.installable = desired.whole := by
    have hafter := Triple.of_run (selectVhosts_installable desired encounter encounter.first none
      desired.vhosts {}) trivial hselect
    rw [hafter, List.nil_append, healthy.installable]
  have hfallbacks : selection.fallbacks = [] := by
    have hfalls := Triple.of_run (selectVhosts_fallbacks none desired.vhosts {} nofun) trivial
      hselect
    rw [List.eq_nil_iff_forall_not_mem]
    intro row hrow
    have hfailed := hfalls row hrow
    rw [healthy.fetched] at hfailed
    cases hfailed
  have hnames : (List.map Prod.fst staged.files).Nodup := renderGeneration_names hfiles
    (desired.keys_nodup.sublist (List.filter_sublist.map _))
  -- The end of a staging in any directory that can be staged again.
  have hends (before : Option Tree) (served : Bool) (start : Tree)
      (hstart : Healable node desired (stagePlan node name carryUpgradeMap staged.files) served
        start) : ∃ last,
      stageGeneration node desired encounter encounter.first before served carryUpgradeMap start =
        (.ok ⟨staged.files, selection⟩, last) ∧ last.certs = (start.withCerts written).certs ∧
      RootsAre node desired desired.whole start.www last.www := by
    subst hname
    have hrun : selectVhosts desired encounter encounter.first before desired.vhosts {} start =
        (.ok selection, start.withCerts written) := by
      rw [selectVhosts_fetched healthy.fetched before none]
      exact hwrites start
    refine @stageGeneration_returns node desired encounter encounter.first before served
      carryUpgradeMap start _ selection staged.files hrun (hinstallable ▸ hfiles) hnames hcopies
      hstart.writable (fun www => RootsAre node desired desired.whole start.www www) ?_
    rw [hinstallable, hfallbacks]
    exact stageWebRoots_place healthy hstart
  obtain ⟨_, hrunFresh, hcertsFresh, hrootsFresh⟩ := hends none false {} Healable.empty
  obtain ⟨last, hrun, hcertsLast, hrootsLast⟩ := hends previous live tree htree
  rw [hfresh, Prod.mk.injEq, Except.ok.injEq] at hrunFresh
  obtain ⟨hstaged, rfl⟩ := hrunFresh
  rw [hrun, ← hstaged]
  refine congrArg _ ?_
  have htext := fun place => Triple.of_run (stageGeneration_text tree) rfl hrun place
  have htextFresh := fun place => Triple.of_run (stageGeneration_text {}) rfl hfresh place
  rw [hname] at htext htextFresh
  have hwholeCerts : ∀ vhost ∈ desired.whole, written vhost.certificate.pk ≠ none := by
    intro vhost hvhost
    refine (hcerts.complete selection rfl vhost (hinstallable ▸ hvhost)).resolve_left ?_
    exact List.not_mem_nil
  ext1
  · funext place
    rw [htext, htextFresh]
    cases hplan : stagePlan node name carryUpgradeMap staged.files place with
    | some body => rfl
    | none =>
      have hown : place.shared = false := by
        rw [← Bool.not_eq_true]
        exact fun hshared =>
          stagePlan_shared hfiles (AllCopied.of_mem hcopies) hshared hplan
      rcases htree.own place hown with hnone | hsame
      · exact hnone
      · exact hsame.trans hplan
  · rw [hcertsLast, hcertsFresh]
    funext certificate
    change (written certificate).or _ = (written certificate).or none
    cases hwritten : written certificate with
    | some material => rfl
    | none =>
      by_contra hheld
      obtain ⟨vhost, hvhost, rfl⟩ := htree.certs certificate hheld
      exact hwholeCerts vhost hvhost hwritten
  · funext pk
    by_cases hserved : ∃ vhost ∈ desired.whole, vhost.pk = pk ∧ vhost.servesFiles = true
    · obtain ⟨vhost, hvhost, hpk, hserves⟩ := hserved
      rw [(hrootsLast pk).1 vhost hvhost hpk hserves, (hrootsFresh pk).1 vhost hvhost hpk hserves]
    · have hnone : ∀ vhost ∈ desired.whole, vhost.pk = pk → vhost.servesFiles = false := by
        intro vhost hvhost hpk
        by_contra hserves
        exact hserved ⟨vhost, hvhost, hpk, by simpa using hserves⟩
      rw [(hrootsLast pk).2 hnone, (hrootsFresh pk).2 hnone]
      by_contra hheld
      obtain ⟨root, hroot⟩ := Option.ne_none_iff_exists'.mp hheld
      obtain ⟨vhost, hvhost, hpk, hserves, _⟩ := htree.www pk root hroot
      exact hserved ⟨vhost, hvhost, hpk, hserves⟩

end DjangoMojo.Edge
