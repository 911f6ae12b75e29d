import DjangoMojo.Edge.Staging
import DjangoMojo.Foundation.Effects

/-! # The installer of a node

A generation is staged into a directory of its own, checked, and made `current`. Who
declares the upgrade map is answered by the real check, and each answer has its own
directory. The state is what is on disk; everything else a run meets (the key loader, the
fetched releases, the verdicts of nginx) is given to it.
-/

namespace DjangoMojo.Edge

open Foundation

/-! ### The disk of a node -/

inductive Place where
  | config (name : String)
  | staging (name : String)
  | harness
  deriving DecidableEq

/-- Where the name of a web root leads: to an installed release, or to a page of its own. -/
inductive WebRoot where
  | release (version : String)
  | placeholder (page : String)
  deriving DecidableEq

structure Material where
  fullchain : String
  privateKey : String
  deriving DecidableEq

@[ext] structure Tree where
  text : Place → Option String := fun _ => none
  certs : Nat → Option Material := fun _ => none
  www : Nat → Option WebRoot := fun _ => none

namespace Tree

def setText (tree : Tree) (place : Place) (body : String) : Tree :=
  { tree with text := Function.update tree.text place (some body) }

def setCert (tree : Tree) (certificate : Nat) (material : Material) : Tree :=
  { tree with certs := Function.update tree.certs certificate (some material) }

def setWww (tree : Tree) (vhost : Nat) (root : WebRoot) : Tree :=
  { tree with www := Function.update tree.www vhost (some root) }

variable (tree : Tree) {place other : Place} (body : String)

@[simp] theorem setText_text_self : (tree.setText place body).text place = some body :=
  Function.update_self ..

theorem setText_text_ne (hother : other ≠ place) :
    (tree.setText place body).text other = tree.text other :=
  Function.update_of_ne hother ..

theorem setText_eq_self (hsame : tree.text place = some body) : tree.setText place body = tree := by
  rw [setText, ← hsame, Function.update_eq_self]

end Tree

structure Installed where
  generation : String
  excluded : List Nat
  wwwPending : List (Nat × String)
  certPending : List Nat
  serving : Option String
  carryUpgradeMap : Bool

structure Disk where
  /-- The directories of the generations, by name; one that is absent is empty. -/
  tree : String → Tree := fun _ => {}
  /-- The generation that `current` leads to. -/
  current : Option String := none
  installed : String → Option Installed := fun _ => none

def Disk.setTree (disk : Disk) (name : String) (tree : Tree) : Disk :=
  { disk with tree := Function.update disk.tree name tree }

/-! ### What a run is given -/

inductive KeyRead where
  | key (text : String)
  | unreadable
  | raises (refusal : Refusal)

/-- A verdict of `nginx -t`, with what its output says of the upgrade map. -/
structure Verdict where
  ok : Bool := true
  missing : Bool := false
  duplicate : Bool := false

/-- What one attempt meets. The loader is asked for each virtual host. -/
structure Attempt where
  keys : Nat → KeyRead
  staged : Verdict := {}
  real : Verdict := {}

structure Encounter where
  fetchFailures : Nat → Option String
  onDisk : Nat → String → Bool
  first : Attempt
  second : Attempt
  reload : Bool := true
  pruned : List String := []

/-- The desired state of the node, with the ids that are computed of it. -/
structure Desired where
  pools : List (String × String)
  vhosts : List Vhost
  rows : List BlocklistEntry
  knobs : Knobs
  webApps : List (Nat × String)
  generation : Nginx.Word
  keys_nodup : (vhosts.map Vhost.pk).Nodup
  upstreams_eq : ∀ first ∈ vhosts.flatMap Vhost.upstreams,
    ∀ second ∈ vhosts.flatMap Vhost.upstreams, first.pk = second.pk → first = second

/-- The row of a virtual host; a later row replaces an earlier one. -/
def Desired.release (desired : Desired) (vhost : Nat) : Option String :=
  desired.webApps.reverse.lookup vhost

/-- `fetch_webapps`: only a row can fail. -/
def fetchFailure (desired : Desired) (encounter : Encounter) (vhost : Nat) : Option String :=
  if (desired.release vhost).isSome then encounter.fetchFailures vhost else none

structure Node where
  settings : Settings
  ports : StagedPorts := {}
  /-- `sha256(...).hexdigest()`. -/
  sha256 : String → Nginx.Word
  sha256_ne : ∀ generation : Nginx.Word,
    (sha256 (generation.text ++ ":carry-upgrade-map")).text ≠ generation.text
  /-- `_placeholder_page`. -/
  placeholderPage : String → String

/-- `local_generation_id`. -/
def Node.localGenerationId (node : Node) (generation : Nginx.Word) (carryUpgradeMap : Bool) :
    Nginx.Word :=
  if carryUpgradeMap then node.sha256 (generation.text ++ ":carry-upgrade-map") else generation

abbrev Staging (Value : Type) := Effect Tree Refusal Value

/-! ### Certificates and excluded virtual hosts -/

def fullchain (certificate : Certificate) : String :=
  let pem := certificate.certPem
  let separated := if certificate.chainPem ≠ "" && !("\n".toList.isSuffixOf pem.toList)
    then pem ++ "\n" else pem
  separated ++ certificate.chainPem

/-- `_write_material`. -/
def writeMaterial (certificate : Certificate) (key : KeyRead) : Staging Bool :=
  match key with
  | .raises refusal => .fail refusal
  | .unreadable => pure false
  | .key text =>
    if text = "" || certificate.certPem = "" then pure false
    else do
      Effect.change fun tree => tree.setCert certificate.pk ⟨fullchain certificate, text⟩
      return true

/-- `_disabled_upstreams`. -/
def disabledUpstreams (vhost : Vhost) : List Upstream :=
  vhost.upstreams.filter fun upstream => !upstream.isEnabled

structure Selection where
  installable : List Vhost := []
  excluded : List Nat := []
  certExcluded : List Nat := []
  fallbacks : List (Nat × String) := []

/-- `_exclude_or_abort`. -/
def excludeOrAbort (vhost : Vhost) (message : String) (allowHouse : Bool) (selection : Selection) :
    Staging Selection :=
  if vhost.domain.group.isNone && !allowHouse then
    .fail ⟨message ++ " — it serves a platform vhost", none⟩
  else pure { selection with excluded := selection.excluded ++ [vhost.pk] }

/-- `_previous_web_root`. -/
def previousWebRoot (encounter : Encounter) (previous : Option Tree) (vhost : Nat) :
    Option String :=
  match previous.bind fun tree => tree.www vhost with
  | some (.release version) => if encounter.onDisk vhost version then some version else none
  | _ => none

/-- The part of the loop after the release of the virtual host is settled. -/
def selectByMaterial (attempt : Attempt) (vhost : Vhost) (selection : Selection) :
    Staging Selection := do
  let written ← writeMaterial vhost.certificate (attempt.keys vhost.pk)
  if written then
    return { selection with installable := selection.installable ++ [vhost] }
  else
    excludeOrAbort vhost ("edge: certificate " ++ toString vhost.certificate.pk ++
      " for " ++ vhost.name ++ " has no readable material (KMS?)") false
      { selection with certExcluded := selection.certExcluded ++ [vhost.pk] }

/-- One virtual host of the loop in `stage_generation`. -/
def selectVhost (desired : Desired) (encounter : Encounter) (attempt : Attempt)
    (previous : Option Tree) (vhost : Vhost) (selection : Selection) : Staging Selection :=
  if disabledUpstreams vhost ≠ [] then
    excludeOrAbort vhost ("edge: " ++ vhost.name ++ " proxies to retired upstream(s) " ++
      String.intercalate ", " (((disabledUpstreams vhost).map Upstream.name).insertionSort (· ≤ ·)))
      false selection
  else
    match fetchFailure desired encounter vhost.pk, previousWebRoot encounter previous vhost.pk with
    | some failure, none => excludeOrAbort vhost ("edge: " ++ failure) true selection
    | some _, some version => selectByMaterial attempt vhost
        { selection with fallbacks := selection.fallbacks ++ [(vhost.pk, version)] }
    | none, _ => selectByMaterial attempt vhost selection

/-- Whether the loader and the row of a certificate give its material. -/
def readable (certificate : Certificate) : KeyRead → Bool
  | .key text => text ≠ "" && certificate.certPem ≠ ""
  | _ => false

def installs (desired : Desired) (encounter : Encounter) (attempt : Attempt)
    (previous : Option Tree) (vhost : Vhost) : Bool :=
  (disabledUpstreams vhost).isEmpty &&
    ((fetchFailure desired encounter vhost.pk).isNone ||
      (previousWebRoot encounter previous vhost.pk).isSome) &&
    readable vhost.certificate (attempt.keys vhost.pk)

def selectVhosts (desired : Desired) (encounter : Encounter) (attempt : Attempt)
    (previous : Option Tree) : List Vhost → Selection → Staging Selection
  | [], selection => pure selection
  | vhost :: rest, selection => do
      let next ← selectVhost desired encounter attempt previous vhost selection
      selectVhosts desired encounter attempt previous rest next

/-! ### Files -/

variable (node : Node)

/-- `_write_rendered`. -/
def writeRendered (live : Bool) (place : Place) (body : String) : Staging Unit := do
  let existing ← Effect.read fun tree => tree.text place
  if existing = some body then return ()
  else if existing.isSome && live then
    Effect.fail ⟨"refusing to rewrite in place: the generation is live " ++
      "and its rendered content changed without moving the generation id", none⟩
  else Effect.change fun tree => tree.setText place body

/-- The copy of a file for the staged check. The http base alone has the scratch paths. -/
def stagedCopy (directory : String) (file : String × String) : Checked String :=
  renderStagedVariant node.settings node.ports file.2
    (if file.1 = baseName then some (directory ++ "/tmp") else none)

def writeFile (directory : String) (live : Bool) (file : String × String) : Staging Unit := do
  writeRendered live (.config file.1) file.2
  let staged ← Effect.lift (stagedCopy node directory file)
  writeRendered live (.staging file.1) staged

/-! ### Web roots -/

def Vhost.servesFiles (vhost : Vhost) : Bool := vhost.kind = .site || vhost.kind = .siteApi

/-- `_symlink_swap` of a web root; a directory is not replaced. -/
def swapWebRoot (vhost : Nat) (version : String) : Staging Unit := do
  match ← Effect.read fun tree => tree.www vhost with
  | some (.placeholder _) => Effect.fail ⟨"Is a directory", none⟩
  | _ => Effect.change fun tree => tree.setWww vhost (.release version)

/-- One virtual host of `stage_web_roots`. -/
def stageWebRoot (desired : Desired) (encounter : Encounter) (fallbacks : List (Nat × String))
    (vhost : Vhost) : Staging Unit :=
  if !vhost.servesFiles then pure ()
  else
    match fallbacks.reverse.lookup vhost.pk, desired.release vhost.pk with
    | some version, _ => swapWebRoot vhost.pk version
    | none, none => do
        -- The page goes to where an existing link leads.
        match ← Effect.read fun tree => tree.www vhost.pk with
        | some (.release found) =>
          if encounter.onDisk vhost.pk found then pure ()
          else Effect.fail ⟨"File exists", none⟩
        | _ => Effect.change fun tree =>
          tree.setWww vhost.pk (.placeholder (node.placeholderPage vhost.name))
    | none, some version =>
      if encounter.onDisk vhost.pk version then swapWebRoot vhost.pk version
      else Effect.fail ⟨"release " ++ version ++ " for vhost " ++ toString vhost.pk ++
        " is not on disk", none⟩

/-! ### Staging -/

structure Staged where
  files : Files String
  selection : Selection

/-- `stage_generation`. -/
def stageGeneration (desired : Desired) (encounter : Encounter) (attempt : Attempt)
    (previous : Option Tree) (live carryUpgradeMap : Bool) : Staging Staged := do
  let name := node.localGenerationId desired.generation carryUpgradeMap
  let selection ← selectVhosts desired encounter attempt previous desired.vhosts {}
  let files ← Effect.lift (renderGeneration node.settings desired.knobs desired.rows
    selection.installable name carryUpgradeMap)
  files.forM (writeFile node (generationDir node.settings name) live)
  writeRendered live .harness (renderNginxHarness node.settings name carryUpgradeMap)
  selection.installable.forM (stageWebRoot node desired encounter selection.fallbacks)
  return ⟨files, selection⟩

/-! ### The install -/

/-- A switch of `current`: the directory as it was then, and the files it was staged from. -/
structure Switch where
  name : String
  tree : Tree
  files : Files String

inductive Tried where
  | passed (staged : Staged)
  | flipped (carryUpgradeMap : Bool)
  | failed (refusal : Refusal)

/-- `_ambient_map_moved`. -/
def ambientMapMoved (verdict : Verdict) (carryUpgradeMap : Bool) : Option Bool :=
  if !carryUpgradeMap && verdict.missing then some true
  else if carryUpgradeMap && verdict.duplicate then some false
  else none

def runAttempt (desired : Desired) (encounter : Encounter) (attempt : Attempt)
    (previous : Option String) (carryUpgradeMap : Bool) (disk : Disk) :
    Tried × Disk × List Switch :=
  let name := (node.localGenerationId desired.generation carryUpgradeMap).text
  match stageGeneration node desired encounter attempt (previous.map disk.tree)
      (disk.current = some name) carryUpgradeMap (disk.tree name) with
  | (.error refusal, tree) => (.failed refusal, disk.setTree name tree, [])
  | (.ok staged, tree) =>
    if !attempt.staged.ok then
      (.failed ⟨"staged configuration failed nginx -t", none⟩, disk.setTree name tree, [])
    else if attempt.real.ok then
      (.passed staged, { disk.setTree name tree with current := some name },
        [⟨name, tree, staged.files⟩])
    else
      -- The link goes back to what it led to, or is removed.
      let reverted := { disk.setTree name tree with current := previous }
      match ambientMapMoved attempt.real carryUpgradeMap with
      | some moved => (.flipped moved, reverted, [⟨name, tree, staged.files⟩])
      | none => (.failed ⟨"generation failed nginx -t against the real config", none⟩,
          reverted, [⟨name, tree, staged.files⟩])

inductive Outcome where
  | unchanged
  | changed (selection : Selection)
  /-- It raised; whether that was before the step that reloads nginx. -/
  | raised (refusal : Refusal) (beforeReload : Bool)

def stillPending (desired : Desired) (encounter : Encounter) : List (Nat × String) :=
  desired.webApps.filter fun row => (fetchFailure desired encounter row.1).isSome

/-- `write_installed` for each pool of the node. -/
def writeInstalled (desired : Desired) (encounter : Encounter) (selection : Selection)
    (carryUpgradeMap : Bool) (disk : Disk) : Disk :=
  let inPool := fun (pool : String) (pk : Nat) =>
    ((desired.vhosts.reverse.find? fun vhost => vhost.pk = pk).map Vhost.pool) = some pool
  desired.pools.foldl (fun written pool =>
    { written with installed := Function.update written.installed pool.1 (some {
        generation := pool.2
        excluded := selection.excluded.filter fun pk => inPool pool.1 pk
        wwwPending := (stillPending desired encounter).filter fun row => inPool pool.1 row.1
        certPending := selection.certExcluded.filter fun pk => inPool pool.1 pk
        serving := some desired.generation.text
        carryUpgradeMap }) }) disk

/-- `prune_generations`: the live directory is never dropped. -/
def pruneGenerations (pruned : List String) (disk : Disk) : Disk :=
  { disk with tree := fun name =>
      if name ∈ pruned ∧ disk.current ≠ some name then {} else disk.tree name }

/-- The reload, the records and the pruning, after a check that passed. -/
def finish (desired : Desired) (encounter : Encounter) (staged : Staged) (carryUpgradeMap : Bool)
    (disk : Disk) : Outcome × Disk :=
  if encounter.reload then
    (.changed staged.selection, pruneGenerations encounter.pruned
      (writeInstalled desired encounter staged.selection carryUpgradeMap disk))
  else (.raised ⟨"nginx reload failed", none⟩ false, disk)

/-- At most two attempts, the second one with the other answer. -/
def installDesired (desired : Desired) (encounter : Encounter) (carryUpgradeMap : Bool)
    (disk : Disk) : Outcome × Disk × List Switch :=
  match runAttempt node desired encounter encounter.first disk.current carryUpgradeMap disk with
  | (.passed staged, after, switches) =>
    ((finish desired encounter staged carryUpgradeMap after).1,
      (finish desired encounter staged carryUpgradeMap after).2, switches)
  | (.failed refusal, after, switches) => (.raised refusal true, after, switches)
  | (.flipped moved, between, switches) =>
    match runAttempt node desired encounter encounter.second disk.current moved between with
    | (.passed staged, after, more) =>
      ((finish desired encounter staged moved after).1,
        (finish desired encounter staged moved after).2, switches ++ more)
    | (.failed refusal, after, more) => (.raised refusal true, after, switches ++ more)
    | (.flipped _, after, more) =>
      (.raised ⟨"generation failed nginx -t against the real config", none⟩ true, after,
        switches ++ more)

def evidenceCurrent (desired : Desired) (disk : Disk) : Bool :=
  desired.pools.all fun pool => (disk.installed pool.1).any fun record =>
    record.generation = pool.2 && record.serving = some desired.generation.text

def pending (desired : Desired) (disk : Disk) : Bool :=
  desired.pools.any fun pool => (disk.installed pool.1).any fun record =>
    !record.wwwPending.isEmpty || !record.certPending.isEmpty

def recordedCarry (desired : Desired) (disk : Disk) : Bool :=
  (desired.pools.head?.bind fun pool => disk.installed pool.1).any Installed.carryUpgradeMap

/-- `install`. -/
def install (desired : Desired) (encounter : Encounter) (force : Bool) (disk : Disk) :
    Outcome × Disk × List Switch :=
  let carry := recordedCarry desired disk
  if desired.pools = [] then
    (.raised ⟨"at least one edge pool must be assigned to this node", none⟩ true, disk, [])
  else if !force && evidenceCurrent desired disk &&
      disk.current = some (node.localGenerationId desired.generation carry).text &&
      !pending desired disk then
    (.unchanged, disk, [])
  else installDesired node desired encounter carry disk

end DjangoMojo.Edge
