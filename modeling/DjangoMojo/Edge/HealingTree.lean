import DjangoMojo.Edge.StagedTree

/-! # A directory that can be staged again

The file of a virtual host and the harness are the same whichever virtual hosts are left
out. The http base and the upstreams are not, and in the directory that is served they
must already be those of the whole generation, or the guard refuses to heal it.
-/

namespace DjangoMojo.Edge

open Foundation
open Effect (Triple)

variable {node : Node} {desired : Desired} {encounter : Encounter} {attempt : Attempt}

/-! ### Files that depend on what is left out -/

def sharedName (name : String) : Bool := name = baseName || name = upstreamsName

def Place.shared : Place → Bool
  | .config name => sharedName name
  | .staging name => sharedName name
  | .harness => false

def Desired.whole (desired : Desired) : List Vhost :=
  desired.vhosts.filter fun vhost => (disabledUpstreams vhost).isEmpty

theorem mem_whole {vhost : Vhost} :
    vhost ∈ desired.whole ↔ vhost ∈ desired.vhosts ∧ disabledUpstreams vhost = [] := by
  rw [Desired.whole, List.mem_filter, List.isEmpty_iff]

theorem filter_installs (previous : Option Tree) :
    desired.vhosts.filter (installs desired encounter attempt previous) =
      desired.whole.filter (installs desired encounter attempt previous) := by
  rw [Desired.whole, List.filter_filter]
  refine List.filter_congr fun vhost _ => ?_
  cases hnone : (disabledUpstreams vhost).isEmpty <;> simp [installs, hnone]

variable {settings : Settings} {knobs : Knobs} {rows : List BlocklistEntry} {vhosts : List Vhost}
  {generation : Nginx.Word} {carryUpgradeMap : Bool} {files : Files String}

theorem mem_renderedVhosts {rendered : Files (List String)}
    (hok : renderedVhosts settings knobs generation vhosts = .ok rendered) (name : String)
    (lines : List String) : (name, lines) ∈ rendered ↔ ∃ vhost ∈ vhosts,
      renderVhost settings knobs vhost generation = .ok lines ∧ name = vhost.confName := by
  induction vhosts generalizing rendered with
  | nil =>
    cases hok
    simp
  | cons vhost rest ih =>
    obtain ⟨head, more, hhead, hmore, rfl⟩ := renderedVhosts_ok_cons hok
    rw [List.mem_cons, ih hmore]
    simp only [List.mem_cons, exists_eq_or_imp, hhead, Except.ok.injEq, Prod.mk.injEq]
    rw [and_comm, @eq_comm _ lines]

theorem mem_renderGeneration (hok : renderGeneration settings knobs rows vhosts generation
    carryUpgradeMap = .ok files) {file : String × String} (hfile : file ∈ files) :
    sharedName file.1 ∨ ∃ vhost ∈ vhosts, ∃ lines,
      renderVhost settings knobs vhost generation = .ok lines ∧
      file = (vhost.confName, Nginx.joined lines) := by
  obtain ⟨base, upstreams, rendered, _, _, hrendered, rfl⟩ := renderGeneration_ok hok
  rw [List.mem_cons, List.mem_cons] at hfile
  rcases hfile with rfl | rfl | hfile
  · exact .inl (by simp [sharedName])
  · exact .inl (by simp [sharedName])
  · obtain ⟨⟨name, lines⟩, hlines, rfl⟩ := List.mem_map.mp hfile
    obtain ⟨vhost, hvhost, hok, rfl⟩ := (mem_renderedVhosts hrendered name lines).mp hlines
    exact .inr ⟨vhost, hvhost, lines, hok, rfl⟩

theorem renderGeneration_mem (hok : renderGeneration settings knobs rows vhosts generation
    carryUpgradeMap = .ok files) {vhost : Vhost} (hvhost : vhost ∈ vhosts) {lines : List String}
    (hlines : renderVhost settings knobs vhost generation = .ok lines) :
    (vhost.confName, Nginx.joined lines) ∈ files := by
  obtain ⟨base, upstreams, rendered, _, _, hrendered, rfl⟩ := renderGeneration_ok hok
  have hmem := (mem_renderedVhosts hrendered vhost.confName lines).mpr ⟨vhost, hvhost, hlines, rfl⟩
  exact List.mem_cons_of_mem _ (List.mem_cons_of_mem _ (List.mem_map.mpr ⟨_, hmem, rfl⟩))

theorem renderGeneration_names (hok : renderGeneration settings knobs rows vhosts generation
    carryUpgradeMap = .ok files) (hkeys : (vhosts.map Vhost.pk).Nodup) :
    (List.map Prod.fst files).Nodup := by
  rw [renderGeneration_map_fst hok]
  have hconf : ∀ vhost : Vhost, ∀ name, name.toList.head? = some 'h' → name ≠ vhost.confName := by
    rintro vhost name hname rfl
    simp [Vhost.confName] at hname
  have hnames : (vhosts.map Vhost.confName).Nodup := by
    refine List.Nodup.map_on ?_ (List.Nodup.of_map _ hkeys)
    intro first hfirst second hsecond heq
    exact List.inj_on_of_nodup_map hkeys hfirst hsecond (confName_inj heq)
  rw [List.nodup_cons, List.nodup_cons]
  refine ⟨?_, ?_, hnames⟩
  · rw [List.mem_cons, not_or]
    refine ⟨by decide, fun hmem => ?_⟩
    obtain ⟨vhost, _, heq⟩ := List.mem_map.mp hmem
    exact hconf vhost baseName (by decide) heq.symm
  · intro hmem
    obtain ⟨vhost, _, heq⟩ := List.mem_map.mp hmem
    exact hconf vhost upstreamsName (by decide) heq.symm

/-- The files are the same with and without what the attempt leaves out, save those of the
virtual hosts themselves. -/
structure SharedKept (desired : Desired) (encounter : Encounter) (attempt : Attempt)
    (previous : Option Tree) : Prop where
  upstreams : ∀ vhost ∈ desired.whole, installs desired encounter attempt previous vhost = false →
    ∀ upstream ∈ vhost.upstreams, ∃ other ∈ desired.whole,
      installs desired encounter attempt previous other = true ∧ upstream ∈ other.upstreams
  policies : desired.knobs.mojosecMode = .observe → ∀ vhost ∈ desired.whole,
    installs desired encounter attempt previous vhost = false → vhostEvidence vhost = .ok []

theorem Desired.upstreams_whole (desired : Desired) (keeps : Vhost → Bool) :
    OneRowPerKey ((desired.whole.filter keeps).flatMap Vhost.upstreams) := by
  refine OneRowPerKey.subset desired.upstreams_eq fun upstream hupstream => ?_
  obtain ⟨vhost, hvhost, hreached⟩ := List.mem_flatMap.mp hupstream
  exact List.mem_flatMap.mpr ⟨vhost, (mem_whole.mp (List.mem_filter.mp hvhost).1).1, hreached⟩

theorem SharedKept.referencedUpstreams_eq {previous : Option Tree}
    (hkept : SharedKept desired encounter attempt previous) :
    referencedUpstreams (desired.whole.filter (installs desired encounter attempt previous)) =
      referencedUpstreams desired.whole := by
  have hwhole := desired.upstreams_whole fun _ => true
  rw [List.filter_true] at hwhole
  refine referencedUpstreams_congr (desired.upstreams_whole _) hwhole fun upstream => ?_
  simp only [List.mem_flatMap, List.mem_filter]
  constructor
  · rintro ⟨vhost, ⟨hvhost, _⟩, hreached⟩
    exact ⟨vhost, hvhost, hreached⟩
  · rintro ⟨vhost, hvhost, hreached⟩
    cases hinstalls : installs desired encounter attempt previous vhost with
    | true => exact ⟨vhost, ⟨hvhost, hinstalls⟩, hreached⟩
    | false =>
      obtain ⟨other, hother, hin, hreaches⟩ := hkept.upstreams vhost hvhost hinstalls upstream hreached
      exact ⟨other, ⟨hother, hin⟩, hreaches⟩

theorem SharedKept.mojosecPart_eq {previous : Option Tree} {part : List String}
    (hkept : SharedKept desired encounter attempt previous)
    (hok : mojosecPart desired.knobs desired.whole = .ok part) :
    mojosecPart desired.knobs (desired.whole.filter
      (installs desired encounter attempt previous)) = .ok part := by
  unfold mojosecPart at hok ⊢
  split at hok
  next hobserve =>
    rw [if_pos hobserve]
    simp only [bind_ok, pure_ok] at hok ⊢
    obtain ⟨evidence, hevidence, rfl⟩ := hok
    exact ⟨evidence, mojosecVhostEvidence_filter _ hevidence (hkept.policies hobserve), rfl⟩
  next hoff => rwa [if_neg hoff]

/-- The text of the http base and of the upstreams is that of the whole generation. -/
theorem SharedKept.get_eq {previous : Option Tree} {whole : Files String}
    (hkept : SharedKept desired encounter attempt previous)
    (hwhole : renderGeneration settings desired.knobs rows desired.whole generation
      carryUpgradeMap = .ok whole)
    (hok : renderGeneration settings desired.knobs rows (desired.whole.filter
      (installs desired encounter attempt previous)) generation carryUpgradeMap = .ok files)
    {name : String} (hname : sharedName name) : files.get name = whole.get name := by
  have hnames (keeps : Vhost → Bool) : ((desired.whole.filter keeps).map Vhost.pk).Nodup :=
    desired.keys_nodup.sublist ((List.filter_sublist.trans List.filter_sublist).map _)
  have hnodup := renderGeneration_names hok (hnames _)
  have hnodupWhole := renderGeneration_names hwhole (by simpa using hnames fun _ => true)
  obtain ⟨base, upstreams, rendered, hbase, hupstreams, _, rfl⟩ := renderGeneration_ok hok
  obtain ⟨baseWhole, upstreamsWhole, renderedWhole, hbaseWhole, hupstreamsWhole, _, rfl⟩ :=
    renderGeneration_ok hwhole
  rw [hkept.referencedUpstreams_eq, hupstreamsWhole] at hupstreams
  cases hupstreams
  have hsame : base = baseWhole := by
    simp only [renderHttpBase, bind_ok, pure_ok] at hbase hbaseWhole
    obtain ⟨part, hpart, blocklist, hblocklist, rfl⟩ := hbase
    obtain ⟨partWhole, hpartWhole, blocklistWhole, hblocklistWhole, rfl⟩ := hbaseWhole
    rw [hkept.mojosecPart_eq hpartWhole] at hpart
    rw [hblocklistWhole] at hblocklist
    cases hpart
    cases hblocklist
    rfl
  subst hsame
  have hfound (other : Files String) (hother : (List.map Prod.fst
      ((baseName, Nginx.joined base) :: (upstreamsName, Nginx.joined upstreams) :: other)).Nodup) :
      Files.get ((baseName, Nginx.joined base) :: (upstreamsName, Nginx.joined upstreams) :: other)
        name = if name = baseName then some (Nginx.joined base) else
          some (Nginx.joined upstreams) := by
    split
    next hbaseName =>
      rw [hbaseName]
      exact Files.get_of_mem hother List.mem_cons_self
    next hother' =>
      have hupstreamsName : name = upstreamsName := by simpa [sharedName, hother'] using hname
      rw [hupstreamsName]
      exact Files.get_of_mem hother (List.mem_cons_of_mem _ List.mem_cons_self)
  rw [hfound _ hnodup, hfound _ hnodupWhole]

/-! ### What the directory may hold -/

/-- What the web root of a virtual host is, when it is not kept on an earlier release. -/
def Desired.rootOf (node : Node) (desired : Desired) (vhost : Vhost) : WebRoot :=
  match desired.release vhost.pk with
  | some version => .release version
  | none => .placeholder (node.placeholderPage vhost.name)

/-- A release for a virtual host that has one, and its own page for one that has none. -/
def RootFits (node : Node) (desired : Desired) (vhost : Vhost) : WebRoot → Prop
  | .release _ => (desired.release vhost.pk).isSome
  | .placeholder page => desired.release vhost.pk = none ∧ page = node.placeholderPage vhost.name

/-- What stagings leave in the directory of a generation whose whole text is planned. -/
structure Healable (node : Node) (desired : Desired) (plan : Place → Option String) (live : Bool)
    (tree : Tree) : Prop where
  own : ∀ place, place.shared = false → tree.text place = none ∨ tree.text place = plan place
  shared : live = true → ∀ place, place.shared = true → tree.text place = plan place
  certs : ∀ certificate, tree.certs certificate ≠ none →
    ∃ vhost ∈ desired.whole, vhost.certificate.pk = certificate
  www : ∀ pk root, tree.www pk = some root → ∃ vhost ∈ desired.whole, vhost.pk = pk ∧
    vhost.servesFiles = true ∧ RootFits node desired vhost root

variable {plan : Place → Option String} {live : Bool}

theorem Healable.empty : Healable node desired plan false {} where
  own _ _ := .inl rfl
  shared := nofun
  certs _ hsome := absurd rfl hsome
  www := nofun

theorem Healable.unserved {tree : Tree} (htree : Healable node desired plan live tree) :
    Healable node desired plan false tree :=
  { htree with shared := nofun }

theorem selectVhosts_healable (previous : Option Tree) :
    Triple (Healable node desired plan live)
      (selectVhosts desired encounter attempt previous desired.vhosts {})
      (fun _ => Healable node desired plan live) (Healable node desired plan live) := by
  obtain ⟨result, written, hwrites, hcerts⟩ :=
    selectVhosts_certs desired encounter attempt previous desired.vhosts {}
  intro tree htree
  have hafter : Healable node desired plan live (tree.withCerts written) := by
    refine ⟨htree.own, htree.shared, fun certificate hsome => ?_, htree.www⟩
    rw [Tree.withCerts, ne_eq, Option.or_eq_none_iff, not_and_or] at hsome
    rcases hsome with hwritten | hbefore
    · obtain ⟨vhost, hvhost, hnone, hpk⟩ := hcerts.named certificate hwritten
      exact ⟨vhost, mem_whole.mpr ⟨hvhost, hnone⟩, hpk⟩
    · exact htree.certs certificate hbefore
  rw [hwrites tree]
  cases result with
  | ok selection => exact hafter
  | error refusal => exact hafter

theorem writeRendered_healable {place : Place} {body : String}
    (hplan : place.shared = false → plan place = some body)
    (hshared : place.shared = true → plan place ≠ none) :
    Triple (Healable node desired plan live) (writeRendered live place body)
      (fun _ => Healable node desired plan live) (Healable node desired plan live) := by
  intro tree htree
  rw [writeRendered_run]
  by_cases hsame : tree.text place = some body
  · rw [if_pos hsame]
    exact htree
  rw [if_neg hsame]
  split
  next heq =>
    split at heq <;> cases heq
    next hguard =>
      refine ⟨fun other hother => ?_, fun hlive other hother => ?_, htree.certs, htree.www⟩
      · by_cases hplace : other = place
        · subst hplace
          exact .inr (by rw [tree.setText_text_self, hplan hother])
        · rw [tree.setText_text_ne _ hplace]
          exact htree.own other hother
      · by_cases hplace : other = place
        · subst hplace
          have htext := htree.shared hlive other hother
          rw [hlive, Bool.and_true, htext, Option.not_isSome_iff_eq_none] at hguard
          exact absurd hguard (hshared hother)
        · rw [tree.setText_text_ne _ hplace]
          exact htree.shared hlive other hother
  next heq =>
    split at heq <;> cases heq
    exact htree

variable {name : Nginx.Word}

theorem stagePlan_config (whole : Files String) (file : String) :
    stagePlan node name carryUpgradeMap whole (.config file) = whole.get file := by
  rw [stagePlan, Function.update_of_ne (by simp), planOf]

theorem stagePlan_staging (whole : Files String) (file : String) :
    stagePlan node name carryUpgradeMap whole (.staging file) = (whole.get file).bind fun body =>
      (stagedCopy node (generationDir node.settings name) (file, body)).toOption := by
  rw [stagePlan, Function.update_of_ne (by simp), planOf]

theorem stagePlan_harness (whole : Files String) :
    stagePlan node name carryUpgradeMap whole .harness =
      some (renderNginxHarness node.settings name carryUpgradeMap) := by
  rw [stagePlan, Function.update_self]

def AllCopied (node : Node) (name : Nginx.Word) (whole : Files String) : Prop :=
  ∀ file body, whole.get file = some body →
    ∃ copy, stagedCopy node (generationDir node.settings name) (file, body) = .ok copy

theorem writeFile_healable {whole : Files String} {file : String × String}
    (hcopied : AllCopied node name whole)
    (hwhole : sharedName file.1 = false → whole.get file.1 = some file.2)
    (hshared : sharedName file.1 = true → ∃ body, whole.get file.1 = some body) :
    Triple (Healable node desired (stagePlan node name carryUpgradeMap whole) live)
      (writeFile node (generationDir node.settings name) live file)
      (fun _ => Healable node desired (stagePlan node name carryUpgradeMap whole) live)
      (Healable node desired (stagePlan node name carryUpgradeMap whole) live) := by
  refine Triple.bind (writeRendered_healable (fun hown => ?_) fun hin => ?_) fun _ => ?_
  · rw [stagePlan_config]
    exact hwhole hown
  · obtain ⟨body, hbody⟩ := hshared hin
    rw [stagePlan_config, hbody]
    exact nofun
  have hlift : Triple (Healable node desired (stagePlan node name carryUpgradeMap whole) live)
      (Effect.lift (stagedCopy node (generationDir node.settings name) file) : Staging String)
      (fun copy tree => stagedCopy node (generationDir node.settings name) file = .ok copy ∧
        Healable node desired (stagePlan node name carryUpgradeMap whole) live tree)
      (Healable node desired (stagePlan node name carryUpgradeMap whole) live) :=
    Triple.lift (fun _ hcopy _ htree => ⟨hcopy, htree⟩) fun _ _ _ htree => htree
  refine Triple.bind hlift fun copy => ?_
  rintro tree ⟨hcopy, htree⟩
  refine writeRendered_healable (fun hown => ?_) (fun hin => ?_) tree htree
  · rw [stagePlan_staging, hwhole hown]
    exact congrArg Except.toOption hcopy
  · obtain ⟨body, hbody⟩ := hshared hin
    obtain ⟨other, hother⟩ := hcopied file.1 body hbody
    rw [stagePlan_staging, hbody, Option.bind_some, hother]
    exact nofun

/-! ### Web roots -/

theorem setWww_healable {tree : Tree} {vhost : Vhost} {root : WebRoot}
    (htree : Healable node desired plan live tree) (hvhost : vhost ∈ desired.whole)
    (hserves : vhost.servesFiles = true) (hfits : RootFits node desired vhost root) :
    Healable node desired plan live (tree.setWww vhost.pk root) := by
  refine ⟨htree.own, htree.shared, htree.certs, fun pk found hfound => ?_⟩
  by_cases hpk : pk = vhost.pk
  · subst hpk
    simp only [Tree.setWww, Function.update_self] at hfound
    cases hfound
    exact ⟨vhost, hvhost, rfl, hserves, hfits⟩
  · simp only [Tree.setWww, Function.update_of_ne hpk] at hfound
    exact htree.www pk found hfound

theorem stageWebRoot_healable {fallbacks : List (Nat × String)} {vhost : Vhost}
    (hvhost : vhost ∈ desired.whole)
    (hfallbacks : ∀ version, fallbacks.reverse.lookup vhost.pk = some version →
      (desired.release vhost.pk).isSome) :
    Triple (Healable node desired plan live)
      (stageWebRoot node desired encounter fallbacks vhost)
      (fun _ => Healable node desired plan live) (Healable node desired plan live) := by
  unfold stageWebRoot
  split
  next => exact Triple.pure fun _ htree => htree
  next hserves =>
    have hserves : vhost.servesFiles = true := by simpa using hserves
    have hread : Triple (Healable node desired plan live)
        (Effect.read fun tree => tree.www vhost.pk : Staging (Option WebRoot))
        (fun _ => Healable node desired plan live) (Healable node desired plan live) :=
      Triple.read fun _ htree => htree
    have hswap (version : String) (hrelease : (desired.release vhost.pk).isSome) :
        Triple (Healable node desired plan live) (swapWebRoot vhost.pk version)
          (fun _ => Healable node desired plan live) (Healable node desired plan live) := by
      refine Triple.bind hread fun root => ?_
      split
      next => exact Triple.fail fun _ htree => htree
      next =>
        exact Triple.change fun tree htree => setWww_healable htree hvhost hserves hrelease
    split
    next version hfallback => exact hswap version (hfallbacks version hfallback)
    next hrelease =>
      refine Triple.bind hread fun root => ?_
      split
      next =>
        split
        next => exact Triple.pure fun _ htree => htree
        next => exact Triple.fail fun _ htree => htree
      next =>
        exact Triple.change fun tree htree =>
          setWww_healable htree hvhost hserves ⟨hrelease, rfl⟩
    next version _ hrelease =>
      split
      next => exact hswap version (hrelease ▸ rfl)
      next => exact Triple.fail fun _ htree => htree

/-- A virtual host falls back only where its release could not be fetched. -/
def FallsBack (desired : Desired) (encounter : Encounter) (selection : Selection) : Prop :=
  ∀ row ∈ selection.fallbacks, (fetchFailure desired encounter row.1).isSome

theorem excludeOrAbort_fallbacks (vhost : Vhost) (message : String) (allowHouse : Bool)
    (selection : Selection) :
    Triple (fun _ => True) (excludeOrAbort vhost message allowHouse selection)
      (fun after _ => after.fallbacks = selection.fallbacks) (fun _ => True) := by
  unfold excludeOrAbort
  split
  next => exact Triple.fail fun _ _ => trivial
  next => exact Triple.pure fun _ _ => rfl

theorem selectByMaterial_fallbacks (vhost : Vhost) (selection : Selection) :
    Triple (fun _ => True) (selectByMaterial attempt vhost selection)
      (fun after _ => after.fallbacks = selection.fallbacks) (fun _ => True) := by
  refine Triple.bind (writeMaterial_readable vhost.certificate (attempt.keys vhost.pk))
    fun written => ?_
  split
  next => exact Triple.pure fun _ _ => rfl
  next => exact fun tree _ => excludeOrAbort_fallbacks vhost _ false _ tree trivial

theorem selectVhost_fallbacks (previous : Option Tree) (vhost : Vhost) (selection : Selection)
    (hselection : FallsBack desired encounter selection) :
    Triple (fun _ => True) (selectVhost desired encounter attempt previous vhost selection)
      (fun after _ => FallsBack desired encounter after) (fun _ => True) := by
  have hkept (next : Selection) (hnext : FallsBack desired encounter next) (after : Selection)
      (hafter : after.fallbacks = next.fallbacks) : FallsBack desired encounter after := by
    rw [FallsBack, hafter]
    exact hnext
  unfold selectVhost
  split
  next =>
    exact (excludeOrAbort_fallbacks vhost _ _ selection).post fun after _ hafter =>
      hkept selection hselection after hafter
  next =>
    split
    next =>
      exact (excludeOrAbort_fallbacks vhost _ _ selection).post fun after _ hafter =>
        hkept selection hselection after hafter
    next failure version hfailure _ =>
      have hnext : FallsBack desired encounter
          { selection with fallbacks := selection.fallbacks ++ [(vhost.pk, version)] } := by
        intro row hrow
        rcases List.mem_append.mp hrow with hold | hnew
        · exact hselection row hold
        · rw [List.mem_singleton.mp hnew, hfailure]
          rfl
      exact (selectByMaterial_fallbacks vhost _).post fun after _ hafter =>
        hkept _ hnext after hafter
    next =>
      exact (selectByMaterial_fallbacks vhost selection).post fun after _ hafter =>
        hkept selection hselection after hafter

theorem selectVhosts_fallbacks (previous : Option Tree) (vhosts : List Vhost)
    (selection : Selection) (hselection : FallsBack desired encounter selection) :
    Triple (fun _ => True) (selectVhosts desired encounter attempt previous vhosts selection)
      (fun after _ => FallsBack desired encounter after) (fun _ => True) := by
  induction vhosts generalizing selection with
  | nil => exact Triple.pure fun _ _ => hselection
  | cons vhost rest ih =>
    refine Triple.bind (selectVhost_fallbacks previous vhost selection hselection) fun next => ?_
    exact fun tree hnext => ih next hnext tree trivial

theorem FallsBack.release {selection : Selection} {vhost : Nat} {version : String}
    (hfalls : FallsBack desired encounter selection)
    (hlookup : selection.fallbacks.reverse.lookup vhost = some version) :
    (desired.release vhost).isSome := by
  obtain ⟨before, after, heq, _⟩ := List.lookup_eq_some_iff.mp hlookup
  have hmem : (vhost, version) ∈ selection.fallbacks := by
    rw [← List.mem_reverse, heq]
    simp
  have hfailed := hfalls _ hmem
  rw [fetchFailure] at hfailed
  split at hfailed
  next hsome => exact hsome
  next => cases hfailed

/-! ### A whole staging -/

/-- Whatever an attempt leaves out and wherever it ends, the directory can be staged again. -/
theorem stageGeneration_healable {previous : Option Tree} {whole : Files String}
    (hname : node.localGenerationId desired.generation carryUpgradeMap = name)
    (hwhole : renderGeneration node.settings desired.knobs desired.rows desired.whole name
      carryUpgradeMap = .ok whole) (hcopied : AllCopied node name whole) :
    Triple (Healable node desired (stagePlan node name carryUpgradeMap whole) live)
      (stageGeneration node desired encounter attempt previous live carryUpgradeMap)
      (fun _ => Healable node desired (stagePlan node name carryUpgradeMap whole) live)
      (Healable node desired (stagePlan node name carryUpgradeMap whole) live) := by
  have hnames : (List.map Prod.fst whole).Nodup := renderGeneration_names hwhole
    (desired.keys_nodup.sublist (List.filter_sublist.map _))
  subst hname
  generalize hplan : stagePlan node (node.localGenerationId desired.generation carryUpgradeMap)
    carryUpgradeMap whole = plan
  have hselect : Triple (Healable node desired plan live)
      (selectVhosts desired encounter attempt previous desired.vhosts {})
      (fun selection tree => Healable node desired plan live tree ∧
        selection.installable = desired.whole.filter (installs desired encounter attempt previous) ∧
        FallsBack desired encounter selection) (Healable node desired plan live) := by
    refine ((selectVhosts_healable previous).and
      ((selectVhosts_installable desired encounter attempt previous desired.vhosts {}).and
        (selectVhosts_fallbacks previous desired.vhosts {} nofun))).weaken
      (fun _ htree => ⟨htree, trivial, trivial⟩) (fun selection _ hafter => ?_) fun _ htree => htree
    refine ⟨hafter.1, ?_, hafter.2.2⟩
    rw [hafter.2.1, List.nil_append, filter_installs]
  refine Triple.bind hselect fun selection => Triple.given fun ⟨hinstallable, hfalls⟩ => ?_
  refine Triple.bind (Triple.lift (fun files hfiles tree htree => And.intro htree hfiles)
    fun _ _ _ htree => htree) fun files => Triple.given fun hfiles => ?_
  rw [hinstallable] at hfiles
  have hwrite : ∀ file ∈ files, Triple (Healable node desired plan live)
      (writeFile node (generationDir node.settings (node.localGenerationId desired.generation
        carryUpgradeMap)) live file)
      (fun _ => Healable node desired plan live) (Healable node desired plan live) := by
    intro file hfile
    rw [← hplan]
    refine writeFile_healable hcopied (fun hown => ?_) fun hin => ?_
    · rcases mem_renderGeneration hfiles hfile with hshared | ⟨vhost, hvhost, lines, hlines, rfl⟩
      · rw [hshared] at hown
        cases hown
      · exact Files.get_of_mem hnames
          (renderGeneration_mem hwhole (List.mem_filter.mp hvhost).1 hlines)
    · rw [← Option.ne_none_iff_exists', Files.get_ne_none_iff, renderGeneration_map_fst hwhole]
      simp only [sharedName, Bool.or_eq_true, decide_eq_true_eq] at hin
      rcases hin with hbase | hupstreams
      · simp [hbase]
      · simp [hupstreams]
  refine Triple.bind (Triple.forM_invariant hwrite) fun _ => ?_
  refine Triple.bind (writeRendered_healable (fun _ => ?_) nofun) fun _ => ?_
  · rw [← hplan, stagePlan_harness]
  refine Triple.bind (Triple.forM_invariant fun vhost hvhost => ?_) fun _ =>
    Triple.pure fun _ htree => htree
  rw [hinstallable] at hvhost
  exact stageWebRoot_healable (List.mem_filter.mp hvhost).1 fun version => hfalls.release

end DjangoMojo.Edge
