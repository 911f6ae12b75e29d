import DjangoMojo.Edge.RenderedSet
import DjangoMojo.Edge.StageText

/-! # When a staging returns

Going through the virtual hosts writes certificates alone, and comes to the same end in
every directory. After that a staging fails where a file does not render, where the
guard of a live directory refuses, or where a web root cannot be placed.
-/

namespace DjangoMojo.Edge

open Foundation
open Effect (Triple)

variable {node : Node} {desired : Desired} {encounter : Encounter} {attempt : Attempt}

/-! ### Certificates -/

/-- Certificates that are written over those of the directory. -/
def Tree.withCerts (tree : Tree) (written : Nat → Option Material) : Tree :=
  { tree with certs := fun certificate => (written certificate).or (tree.certs certificate) }

theorem Tree.withCerts_withCerts (tree : Tree) (first second : Nat → Option Material) :
    (tree.withCerts first).withCerts second =
      tree.withCerts fun certificate => (second certificate).or (first certificate) := by
  ext1
  · rfl
  · funext certificate
    exact (Option.or_assoc ..).symm
  · rfl

theorem Tree.setCert_eq (tree : Tree) (certificate : Nat) (material : Material) :
    tree.setCert certificate material =
      tree.withCerts (Function.update (fun _ => none) certificate (some material)) := by
  ext1
  · rfl
  · funext other
    by_cases hother : other = certificate
    · subst hother
      simp [Tree.setCert, Tree.withCerts]
    · simp [Tree.setCert, Tree.withCerts, hother]
  · rfl

/-- The function writes these certificates and ends so, whatever the directory holds. -/
def WritesCerts {Value : Type} (action : Staging Value) (result : Except Refusal Value)
    (written : Nat → Option Material) : Prop :=
  ∀ tree, action tree = (result, tree.withCerts written)

/-- Certificates of virtual hosts with no retired upstream, and one for each that was found
installable. -/
structure CertsOf (vhosts : List Vhost) (before : Selection) (result : Except Refusal Selection)
    (written : Nat → Option Material) : Prop where
  named : ∀ certificate, written certificate ≠ none →
    ∃ vhost ∈ vhosts, disabledUpstreams vhost = [] ∧ vhost.certificate.pk = certificate
  complete : ∀ after, result = .ok after → ∀ vhost ∈ after.installable,
    vhost ∈ before.installable ∨ written vhost.certificate.pk ≠ none

theorem excludeOrAbort_certs (vhost : Vhost) (message : String) (allowHouse : Bool)
    (selection : Selection) : ∃ result,
      WritesCerts (excludeOrAbort vhost message allowHouse selection) result (fun _ => none) ∧
      ∀ after, result = .ok after → after.installable = selection.installable := by
  unfold excludeOrAbort
  split
  next => exact ⟨_, fun _ => rfl, nofun⟩
  next =>
    refine ⟨_, fun _ => rfl, ?_⟩
    rintro after heq
    cases heq
    rfl

theorem selectByMaterial_certs {vhost : Vhost} (hnone : disabledUpstreams vhost = [])
    (selection : Selection) : ∃ result written,
      WritesCerts (selectByMaterial attempt vhost selection) result written ∧
      CertsOf [vhost] selection result written := by
  have hexcluded (hwrite : ∀ tree, writeMaterial vhost.certificate (attempt.keys vhost.pk) tree =
      (.ok false, tree)) : ∃ result written,
        WritesCerts (selectByMaterial attempt vhost selection) result written ∧
        CertsOf [vhost] selection result written := by
    obtain ⟨result, hresult, hkept⟩ := excludeOrAbort_certs vhost
      ("edge: certificate " ++ toString vhost.certificate.pk ++
        " for " ++ vhost.name ++ " has no readable material (KMS?)") false
      { selection with certExcluded := selection.certExcluded ++ [vhost.pk] }
    refine ⟨result, fun _ => none, fun tree => ?_, ⟨fun _ hne => absurd rfl hne, ?_⟩⟩
    · rw [selectByMaterial, Effect.bind_of_ok (hwrite tree)]
      exact hresult tree
    · intro after hafter other hother
      exact .inl (hkept after hafter ▸ hother)
  cases hkey : attempt.keys vhost.pk with
  | raises refusal =>
    refine ⟨.error refusal, fun _ => none, fun tree => ?_, ⟨fun _ hne => absurd rfl hne, nofun⟩⟩
    simp only [selectByMaterial, hkey]
    rfl
  | unreadable => exact hexcluded fun tree => by rw [hkey]; rfl
  | key text =>
    by_cases hempty : text = "" ∨ vhost.certificate.certPem = ""
    · refine hexcluded fun tree => ?_
      simp only [hkey, writeMaterial, if_pos hempty, Bool.or_eq_true, decide_eq_true_eq]
      rfl
    · refine ⟨.ok { selection with installable := selection.installable ++ [vhost] },
        Function.update (fun _ => none) vhost.certificate.pk
          (some ⟨fullchain vhost.certificate, text⟩), fun tree => ?_, ?_, ?_⟩
      · rw [← Tree.setCert_eq]
        simp only [selectByMaterial, hkey, writeMaterial, if_neg hempty, Bool.or_eq_true,
          decide_eq_true_eq]
        rfl
      · intro certificate hwritten
        refine ⟨vhost, List.mem_singleton_self _, hnone, ?_⟩
        by_contra hother
        exact hwritten (Function.update_of_ne (Ne.symm hother) ..)
      · intro after hafter other hother
        cases hafter
        rcases List.mem_append.mp hother with hbefore | hnew
        · exact .inl hbefore
        · rw [List.mem_singleton.mp hnew, Function.update_self]
          exact .inr nofun

theorem selectVhost_certs (desired : Desired) (encounter : Encounter) (attempt : Attempt)
    (previous : Option Tree) (vhost : Vhost) (selection : Selection) : ∃ result written,
      WritesCerts (selectVhost desired encounter attempt previous vhost selection) result written ∧
      CertsOf [vhost] selection result written := by
  have hexclude (message : String) (allowHouse : Bool) : ∃ result written,
      WritesCerts (excludeOrAbort vhost message allowHouse selection) result written ∧
      CertsOf [vhost] selection result written := by
    obtain ⟨result, hresult, hkept⟩ := excludeOrAbort_certs vhost message allowHouse selection
    exact ⟨result, _, hresult, ⟨fun _ hne => absurd rfl hne, fun after hafter other hother =>
      .inl (hkept after hafter ▸ hother)⟩⟩
  unfold selectVhost
  split
  next => exact hexclude _ _
  next hnone =>
    rw [not_not] at hnone
    split
    next => exact hexclude _ _
    next failure version _ _ =>
      obtain ⟨result, written, hresult, hcerts⟩ := @selectByMaterial_certs attempt vhost hnone
        { selection with fallbacks := selection.fallbacks ++ [(vhost.pk, version)] }
      exact ⟨result, written, hresult, hcerts.named, hcerts.complete⟩
    next => exact selectByMaterial_certs hnone selection

theorem selectVhosts_certs (desired : Desired) (encounter : Encounter) (attempt : Attempt)
    (previous : Option Tree) (vhosts : List Vhost) (selection : Selection) : ∃ result written,
      WritesCerts (selectVhosts desired encounter attempt previous vhosts selection) result
        written ∧ CertsOf vhosts selection result written := by
  induction vhosts generalizing selection with
  | nil =>
    refine ⟨.ok selection, fun _ => none, fun _ => rfl, ⟨fun _ hne => absurd rfl hne, ?_⟩⟩
    rintro after heq vhost hvhost
    cases heq
    exact .inl hvhost
  | cons vhost rest ih =>
    obtain ⟨head, first, hhead, hfirst⟩ :=
      selectVhost_certs desired encounter attempt previous vhost selection
    cases head with
    | error refusal =>
      refine ⟨.error refusal, first, fun tree => ?_, ⟨?_, nofun⟩⟩
      · rw [selectVhosts, Effect.bind_of_error (hhead tree)]
      · intro certificate hwritten
        obtain ⟨other, hother, hrest⟩ := hfirst.named certificate hwritten
        exact ⟨other, List.mem_singleton.mp hother ▸ List.mem_cons_self, hrest⟩
    | ok next =>
      obtain ⟨tail, second, htail, hsecond⟩ := ih next
      refine ⟨tail, fun certificate => (second certificate).or (first certificate),
        fun tree => ?_, ⟨?_, ?_⟩⟩
      · rw [selectVhosts, Effect.bind_of_ok (hhead tree), htail, Tree.withCerts_withCerts]
      · intro certificate hwritten
        rw [ne_eq, Option.or_eq_none_iff, not_and_or] at hwritten
        rcases hwritten with hwritten | hwritten
        · obtain ⟨other, hother, hrest⟩ := hsecond.named certificate hwritten
          exact ⟨other, List.mem_cons_of_mem _ hother, hrest⟩
        · obtain ⟨other, hother, hrest⟩ := hfirst.named certificate hwritten
          exact ⟨other, List.mem_singleton.mp hother ▸ List.mem_cons_self, hrest⟩
      · intro after hafter other hother
        rw [ne_eq, Option.or_eq_none_iff, not_and_or]
        rcases hsecond.complete after hafter other hother with hbefore | hwritten
        · exact (hfirst.complete next rfl other hbefore).imp_right .inr
        · exact .inr (.inl hwritten)

theorem WritesCerts.of_run {Value : Type} {action : Staging Value} {result : Except Refusal Value}
    {written : Nat → Option Material} (hwrites : WritesCerts action result written) {tree after : Tree}
    {value : Value} (hrun : action tree = (.ok value, after)) :
    result = .ok value ∧ after = tree.withCerts written := by
  rw [hwrites tree, Prod.mk.injEq] at hrun
  exact ⟨hrun.1, hrun.2.symm⟩

/-! ### Files -/

theorem writeRendered_run (live : Bool) (place : Place) (body : String) (tree : Tree) :
    writeRendered live place body tree =
      if tree.text place = some body then (.ok (), tree)
      else if (tree.text place).isSome && live then
        (.error ⟨"refusing to rewrite in place: the generation is live " ++
          "and its rendered content changed without moving the generation id", none⟩, tree)
      else (.ok (), tree.setText place body) := by
  change (if tree.text place = some body then (pure () : Staging Unit) else _) tree = _
  split
  next => rfl
  next =>
    change (if (tree.text place).isSome && live then (Effect.fail _ : Staging Unit) else _) tree = _
    split <;> rfl

def RestKept (before tree : Tree) : Prop := tree.certs = before.certs ∧ tree.www = before.www

theorem writeRendered_rest (before : Tree) (live : Bool) (place : Place) (body : String) :
    Triple (RestKept before) (writeRendered live place body) (fun _ => RestKept before)
      (RestKept before) := by
  intro tree hkept
  rw [writeRendered_run]
  split
  next heq =>
    split at heq
    · cases heq
      exact hkept
    · split at heq <;> cases heq
      exact hkept
  next heq =>
    split at heq
    · cases heq
    · split at heq <;> cases heq
      exact hkept

theorem writeFile_rest (before : Tree) (directory : String) (live : Bool) (file : String × String) :
    Triple (RestKept before) (writeFile node directory live file) (fun _ => RestKept before)
      (RestKept before) :=
  Triple.bind (writeRendered_rest before live _ _) fun _ =>
    Triple.bind (Triple.lift (fun _ _ _ hkept => hkept) fun _ _ _ hkept => hkept) fun _ =>
      writeRendered_rest before live _ _

/-- The guard of a live directory finds nothing to refuse in the planned text. -/
def Writable (live : Bool) (plan : Place → Option String) (tree : Tree) : Prop :=
  live = true → ∀ place body, plan place = some body →
    tree.text place = none ∨ tree.text place = some body

theorem writeRendered_returns {live : Bool} {plan : Place → Option String} {place : Place}
    {body : String} (hplan : plan place = some body) :
    Triple (Writable live plan) (writeRendered live place body) (fun _ => Writable live plan)
      (fun _ => False) := by
  intro tree hwritable
  rw [writeRendered_run]
  split
  next heq =>
    split at heq
    next =>
      cases heq
      exact hwritable
    next =>
      split at heq <;> cases heq
      intro hlive other text hother
      by_cases hsame : other = place
      · subst hsame
        rw [hplan] at hother
        exact .inr (hother ▸ tree.setText_text_self _)
      · rw [tree.setText_text_ne _ hsame]
        exact hwritable hlive other text hother
  next heq =>
    split at heq
    next => cases heq
    next hdiffer =>
      split at heq <;> cases heq
      next hguard =>
        rw [Bool.and_eq_true] at hguard
        rcases hwritable hguard.2 place body hplan with hnone | hsame
        · rw [hnone] at hguard
          cases hguard.1
        · exact hdiffer hsame

theorem writeFile_returns {live : Bool} {plan : Place → Option String} {directory copy : String}
    {file : String × String} (hconfig : plan (.config file.1) = some file.2)
    (hcopy : stagedCopy node directory file = .ok copy)
    (hstaging : plan (.staging file.1) = some copy) :
    Triple (Writable live plan) (writeFile node directory live file) (fun _ => Writable live plan)
      (fun _ => False) := by
  refine Triple.bind (writeRendered_returns hconfig) fun _ => ?_
  have hlift : Triple (Writable live plan) (Effect.lift (stagedCopy node directory file) :
      Staging String) (fun found tree => found = copy ∧ Writable live plan tree)
      (fun _ => False) := by
    rw [hcopy]
    exact fun tree hwritable => ⟨rfl, hwritable⟩
  refine Triple.bind hlift fun found => ?_
  rintro tree ⟨rfl, hwritable⟩
  exact writeRendered_returns hstaging tree hwritable

theorem Files.get_of_mem {files : Files String} (hnames : (List.map Prod.fst files).Nodup)
    {file : String × String} (hfile : file ∈ files) : files.get file.1 = some file.2 := by
  obtain ⟨before, after, rfl⟩ := List.append_of_mem hfile
  rw [Files.get_append, Files.get_cons_self, Option.some_or]
  intro other hother heq
  rw [List.map_append, List.nodup_append] at hnames
  rw [List.map_cons, List.nodup_cons] at hnames
  exact hnames.2.1.1 (heq ▸ List.mem_map_of_mem hother)

/-! ### Web roots -/

theorem stageWebRoot_certs (certs : Nat → Option Material) (fallbacks : List (Nat × String))
    (vhost : Vhost) :
    Triple (fun tree => tree.certs = certs) (stageWebRoot node desired encounter fallbacks vhost)
      (fun _ tree => tree.certs = certs) (fun tree => tree.certs = certs) := by
  have hswap (version : String) : Triple (fun tree => tree.certs = certs)
      (swapWebRoot vhost.pk version) (fun _ tree => tree.certs = certs)
      (fun tree => tree.certs = certs) := by
    refine Triple.bind (@Triple.read _ _ _ _ _ (fun _ tree => tree.certs = certs) _
      fun _ hkept => hkept) fun root => ?_
    split
    next => exact Triple.fail fun _ hkept => hkept
    next => exact Triple.change fun _ hkept => hkept
  unfold stageWebRoot
  split
  next => exact Triple.pure fun _ hkept => hkept
  next =>
    split
    next => exact hswap _
    next =>
      refine Triple.bind (@Triple.read _ _ _ _ _ (fun _ tree => tree.certs = certs) _
        fun _ hkept => hkept) fun root => ?_
      split
      next =>
        split
        next => exact Triple.pure fun _ hkept => hkept
        next => exact Triple.fail fun _ hkept => hkept
      next => exact Triple.change fun _ hkept => hkept
    next =>
      split
      next => exact hswap _
      next => exact Triple.fail fun _ hkept => hkept

/-! ### A whole staging -/

/-- The last part of a staging, once the virtual hosts are gone through. -/
theorem stageGeneration_returns {previous : Option Tree} {live carryUpgradeMap : Bool}
    {tree between : Tree} {selection : Selection} {files : Files String}
    (hselect : selectVhosts desired encounter attempt previous desired.vhosts {} tree =
      (.ok selection, between))
    (hfiles : renderGeneration node.settings desired.knobs desired.rows selection.installable
      (node.localGenerationId desired.generation carryUpgradeMap) carryUpgradeMap = .ok files)
    (hnames : (List.map Prod.fst files).Nodup)
    (hcopies : ∀ file ∈ files, ∃ copy, stagedCopy node (generationDir node.settings
      (node.localGenerationId desired.generation carryUpgradeMap)) file = .ok copy)
    (hwritable : Writable live (stagePlan node (node.localGenerationId desired.generation
      carryUpgradeMap) carryUpgradeMap files) tree)
    {after : (Nat → Option WebRoot) → Prop}
    (hroots : Triple (fun state => state.www = tree.www) (selection.installable.forM
      (stageWebRoot node desired encounter selection.fallbacks)) (fun _ state => after state.www)
      (fun _ => False)) :
    ∃ last, stageGeneration node desired encounter attempt previous live carryUpgradeMap tree =
      (.ok ⟨files, selection⟩, last) ∧ last.certs = between.certs ∧ after last.www := by
  generalize hname : node.localGenerationId desired.generation carryUpgradeMap = name at *
  obtain ⟨result, written, hwrites, _⟩ := selectVhosts_certs desired encounter attempt previous
    desired.vhosts {}
  obtain ⟨rfl, rfl⟩ := hwrites.of_run hselect
  generalize hbetween : tree.withCerts written = between at *
  have hwww : between.www = tree.www := hbetween ▸ rfl
  have hstart : Writable live (stagePlan node name carryUpgradeMap files) between ∧
      RestKept between between := ⟨hbetween ▸ hwritable, rfl, rfl⟩
  have hwrite : ∀ file ∈ files, Triple (fun state => Writable live (stagePlan node name
      carryUpgradeMap files) state ∧ RestKept between state)
      (writeFile node (generationDir node.settings name) live file)
      (fun _ state => Writable live (stagePlan node name carryUpgradeMap files) state ∧
        RestKept between state) (fun _ => False) := by
    intro file hfile
    obtain ⟨copy, hcopy⟩ := hcopies file hfile
    have hget := Files.get_of_mem hnames hfile
    have hconfig : stagePlan node name carryUpgradeMap files (.config file.1) = some file.2 := by
      rw [stagePlan, Function.update_of_ne (by simp), planOf, hget]
    have hstaging : stagePlan node name carryUpgradeMap files (.staging file.1) = some copy := by
      rw [stagePlan, Function.update_of_ne (by simp), planOf, hget]
      exact congrArg Except.toOption hcopy
    exact (writeFile_returns hconfig hcopy hstaging).and (writeFile_rest between _ live file)
  have hharness : Triple (fun state => Writable live (stagePlan node name carryUpgradeMap files)
      state ∧ RestKept between state) (writeRendered live .harness
        (renderNginxHarness node.settings name carryUpgradeMap))
      (fun _ state => Writable live (stagePlan node name carryUpgradeMap files) state ∧
        RestKept between state) (fun _ => False) :=
    (writeRendered_returns (by rw [stagePlan, Function.update_self])).and
      (writeRendered_rest between live _ _)
  have hweb : Triple (RestKept between) (selection.installable.forM
      (stageWebRoot node desired encounter selection.fallbacks))
      (fun _ state => after state.www ∧ state.certs = between.certs) (fun _ => False) := by
    refine (hroots.and (Triple.forM_invariant fun vhost (_ : vhost ∈ selection.installable) =>
      stageWebRoot_certs between.certs selection.fallbacks vhost)).weaken ?_
      (fun _ _ hafter => hafter) fun _ hfalse => hfalse
    exact fun state hkept => ⟨hkept.2.trans hwww, hkept.1⟩
  obtain ⟨_, written, hrunFiles, hwritten⟩ :=
    (Triple.forM_invariant hwrite).returns hstart
  obtain ⟨_, harnessed, hrunHarness, hrest⟩ := hharness.returns hwritten
  obtain ⟨_, last, hrunWeb, hlast, hcerts⟩ := hweb.returns hrest.2
  refine ⟨last, ?_, hcerts, hlast⟩
  rw [stageGeneration, hname, Effect.bind_of_ok hselect, hfiles]
  simp only [Effect.bind_of_ok (show (Effect.lift (Except.ok files) : Staging (Files String)) between =
    (.ok files, between) from rfl), Effect.bind_of_ok hrunFiles, Effect.bind_of_ok hrunHarness,
    Effect.bind_of_ok hrunWeb]
  rfl

/-! ### Staged copies -/

theorem splitOn_joined {lines : List String} {chars : List (List Char)}
    (hspells : Nginx.SpellsAll lines chars) (hsome : chars ≠ [])
    (hends : ∀ line ∈ chars, '\n' ∉ line) :
    (Nginx.joined lines).toList.splitOn '\n' = chars := by
  have hchars : lines.map String.toList = chars := by
    clear hsome hends
    induction hspells with
    | nil => rfl
    | cons hline _ ih => rw [List.map_cons, hline.toList_eq, ih]
  rw [Nginx.joined, String.toList_intercalate, hchars]
  exact List.splitOn_intercalate '\n' hends hsome

def Copied (settings : Settings) (ports : StagedPorts) (lines : List String)
    (tempRoot : Option String) : Prop :=
  ∃ chars, Nginx.SpellsAll lines chars ∧ (chars ≠ [] ∧ ∀ line ∈ chars, '\n' ∉ line) ∧
    (stagedLines settings.tables ports chars tempRoot).isOk = true

theorem Copied.copy {lines : List String} {directory name : String}
    (hcopied : Copied node.settings node.ports lines
      (if name = baseName then some (directory ++ "/tmp") else none)) :
    ∃ copy, stagedCopy node directory (name, Nginx.joined lines) = .ok copy := by
  obtain ⟨chars, hspells, ⟨hsome, hends⟩, hok⟩ := hcopied
  obtain ⟨staged, hstaged⟩ := exists_ok_of_isOk hok
  refine ⟨String.ofList staged, ?_⟩
  rw [stagedCopy, renderStagedVariant, splitOn_joined hspells hsome hends, hstaged]
  rfl

/-! ### A virtual host of a tenant -/

def apiUpstream : Upstream where
  pk := 1
  name := "api"
  kind := .unix
  socketPath := some "/run/mojo/api.sock"

/-- One that proxies, to an upstream that no other reaches, or one that redirects. -/
def tenantVhost (proxied : Bool) : Vhost where
  pk := 1
  domain := ⟨1, "a.io", some 1⟩
  kind := if proxied then .api else .redirect
  upstream := if proxied then some apiUpstream else none
  certificate := { pk := 1, domain := 1, commonName := "a.io", certPem := "pem" }
  redirectTo := if proxied then none else some "b.io"

theorem tenantVhost_upstreams (proxied : Bool) :
    (tenantVhost proxied).upstreams = if proxied then [apiUpstream] else [] := by
  cases proxied <;> rfl

def tenantDesired (proxied : Bool) : Desired where
  pools := [("default", "1")]
  vhosts := [tenantVhost proxied]
  rows := []
  knobs := plainKnobs
  webApps := []
  generation := firstGeneration
  keys_nodup := List.nodup_singleton _
  upstreams_eq := by
    rw [List.flatMap_singleton, tenantVhost_upstreams]
    cases proxied <;> simp

def plainNode : Node where
  settings := plainSettings
  sha256 text := if text = "1" ++ ":carry-upgrade-map" then ⟨"2", by decide⟩
    else firstGeneration
  sha256_ne generation := by
    by_cases hfirst : generation.text = "1"
    · rw [hfirst, if_pos rfl]
      decide
    · rw [if_neg fun heq => hfirst ((String.append_left_inj _).mp heq)]
      exact Ne.symm hfirst
  placeholderPage name := name

/-- The number of a row in a fixed line. -/
theorem one_spells : Nginx.Spells (toString (1 : Nat)) ['1'] := by
  have hdigits : toString (1 : Nat) = String.ofList ['1'] := by decide
  rw [hdigits]
  exact .literal _

theorem int_spells {number : Int} {digits : List Char}
    (hdigits : toString number = String.ofList digits) : Nginx.Spells (toString number) digits := by
  rw [hdigits]
  exact .literal _

theorem base_copied (vhosts : List Vhost) : ∃ lines,
    renderHttpBase plainKnobs [] vhosts false = .ok lines ∧
    Copied plainSettings {} lines (some "/opt/edge/generations/1/tmp") := by
  have htwenty : Nginx.Spells (toString (20 : Int)) ['2', '0'] := int_spells (by decide)
  exact ⟨_, rfl, _, by repeat first | exact htwenty | constructor, by decide,
    by decide⟩

theorem upstreams_copied (served : Bool) : ∃ lines,
    renderUpstreams plainSettings (if served then [apiUpstream] else []) = .ok lines ∧
    Copied plainSettings {} lines none := by
  cases served with
  | false => exact ⟨_, rfl, _, by repeat constructor, by decide, by decide⟩
  | true =>
    exact ⟨_, rfl, _, by repeat first | exact one_spells | constructor, by decide,
      by decide⟩

theorem tenantVhost_copied (proxied : Bool) : ∃ lines,
    renderVhost plainSettings plainKnobs (tenantVhost proxied) firstGeneration = .ok lines ∧
    Copied plainSettings {} lines none := by
  have hfifty : Nginx.Spells (toString (50 : Int)) ['5', '0'] := int_spells (by decide)
  have hlong : Nginx.Spells (toString (600 : Int)) ['6', '0', '0'] := int_spells (by decide)
  cases proxied with
  | false =>
    exact ⟨_, rfl, _, by repeat first | exact one_spells | constructor, by decide,
      by decide⟩
  | true =>
    exact ⟨_, rfl, _, by repeat first | exact one_spells | exact hfifty | exact hlong | constructor,
      by decide, by decide⟩

/-- With the virtual host and without it the files render, and all have their copies. -/
theorem tenant_renders (proxied served : Bool) : ∃ files,
    renderGeneration plainSettings plainKnobs [] (if served then [tenantVhost proxied] else [])
      firstGeneration false = .ok files ∧
    ∀ file ∈ files, ∃ copy, stagedCopy plainNode "/opt/edge/generations/1" file = .ok copy := by
  obtain ⟨base, hbase, hbaseCopied⟩ :=
    base_copied (if served then [tenantVhost proxied] else [])
  obtain ⟨upstreams, hupstreams, hupstreamsCopied⟩ := upstreams_copied (served && proxied)
  obtain ⟨lines, hlines, hlinesCopied⟩ := tenantVhost_copied proxied
  have hreferenced : referencedUpstreams (if served then [tenantVhost proxied] else []) =
      if served && proxied then [apiUpstream] else [] := by cases served <;> cases proxied <;> rfl
  have hbaseCopy := @Copied.copy plainNode base "/opt/edge/generations/1" baseName hbaseCopied
  have hupstreamsCopy := @Copied.copy plainNode upstreams "/opt/edge/generations/1" upstreamsName
    hupstreamsCopied
  have hvhostCopy := @Copied.copy plainNode lines "/opt/edge/generations/1"
    (tenantVhost proxied).confName hlinesCopied
  cases served with
  | false =>
    refine ⟨[(baseName, Nginx.joined base), (upstreamsName, Nginx.joined upstreams)], ?_, ?_⟩
    · rw [renderGeneration, renderLines, show blocklistPayload [] = [] from rfl, hbase,
        hreferenced, hupstreams]
      rfl
    · simp only [List.mem_cons, List.not_mem_nil, or_false]
      rintro file (rfl | rfl)
      · exact hbaseCopy
      · exact hupstreamsCopy
  | true =>
    refine ⟨[(baseName, Nginx.joined base), (upstreamsName, Nginx.joined upstreams),
      ((tenantVhost proxied).confName, Nginx.joined lines)], ?_, ?_⟩
    · rw [renderGeneration, renderLines, show blocklistPayload [] = [] from rfl, hbase,
        hreferenced, hupstreams]
      simp only [if_pos, List.mapM_cons, hlines]
      rfl
    · simp only [List.mem_cons, List.not_mem_nil, or_false]
      rintro file (rfl | rfl | rfl)
      · exact hbaseCopy
      · exact hupstreamsCopy
      · exact hvhostCopy

/-- A run that reads the key or does not, and whose staged check passes or does not. -/
def tenantRun (read staged : Bool) : Encounter :=
  let attempt : Attempt :=
    { keys := fun _ => if read then .key "key" else .unreadable, staged := { ok := staged } }
  { fetchFailures := fun _ => none, onDisk := fun _ _ => true, first := attempt, second := attempt }

def tenantSelection (proxied read : Bool) : Selection :=
  if read then { installable := [tenantVhost proxied] }
  else { excluded := [1], certExcluded := [1] }

theorem tenant_stages (proxied read staged : Bool) (previous : Option Tree) (tree : Tree) :
    ∃ files last, stageGeneration plainNode (tenantDesired proxied) (tenantRun read staged)
        (tenantRun read staged).first previous false false tree =
      (.ok ⟨files, tenantSelection proxied read⟩, last) ∧
      renderGeneration plainSettings plainKnobs [] (if read then [tenantVhost proxied] else [])
        firstGeneration false = .ok files := by
  obtain ⟨files, hfiles, hcopies⟩ := tenant_renders proxied read
  have hnames : (List.map Prod.fst files).Nodup := by
    rw [renderGeneration_map_fst hfiles]
    cases read <;> cases proxied <;> decide
  have hselect : ∃ between, selectVhosts (tenantDesired proxied) (tenantRun read staged)
      (tenantRun read staged).first previous (tenantDesired proxied).vhosts {} tree =
      (.ok (tenantSelection proxied read), between) := by
    cases read <;> cases proxied <;> exact ⟨_, rfl⟩
  obtain ⟨between, hselect⟩ := hselect
  have hinstallable : (tenantSelection proxied read).installable =
      if read then [tenantVhost proxied] else [] := by
    cases read <;> rfl
  have hroots : Triple (fun state => state.www = tree.www)
      ((tenantSelection proxied read).installable.forM (stageWebRoot plainNode
        (tenantDesired proxied) (tenantRun read staged) (tenantSelection proxied read).fallbacks))
      (fun _ state => True) (fun _ => False) := by
    cases read <;> cases proxied <;> exact fun _ _ => trivial
  obtain ⟨last, hrun, _⟩ := @stageGeneration_returns plainNode (tenantDesired proxied)
    (tenantRun read staged) (tenantRun read staged).first previous false false tree between
    (tenantSelection proxied read) files hselect (hinstallable ▸ hfiles) hnames hcopies nofun
    (fun _ => True) hroots
  exact ⟨files, last, hrun, hfiles⟩

end DjangoMojo.Edge
