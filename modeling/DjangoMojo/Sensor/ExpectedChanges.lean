import DjangoMojo.Sensor.Store

/-! # Expected changes of files

A deployment announces the changes it makes in a manifest. A change that an entry of
the manifest matches is annotated with the entry; the annotation never suppresses it.
-/

namespace DjangoMojo.Sensor

open Foundation

def maxOperationCorrelationSeconds : Int := 300

inductive FimChange where
  | created | modified | deleted
  deriving DecidableEq, Repr

def FimChange.text : FimChange → String
  | .created => "created"
  | .modified => "modified"
  | .deleted => "deleted"

inductive FimKind where
  | file | symlink | directory | other
  deriving DecidableEq, Repr

namespace FimKind

def text : FimKind → String
  | .file => "file"
  | .symlink => "symlink"
  | .directory => "directory"
  | .other => "other"

def ofText : String → Option FimKind
  | "file" => some .file
  | "symlink" => some .symlink
  | "directory" => some .directory
  | "other" => some .other
  | _ => none

end FimKind

/-- `_DEPLOYMENT_RE` and `_OPERATION_RE`. -/
def isManifestName : String → Bool := isSensor

/-- The fields of an entry of version 2 that `load_manifest` accepts. -/
structure ManifestOperation where
  operationId : String
  operationKind : String
  completedAt : String
  started : Int
  completed : Int
  evidenceKind : FimKind
  operationId_name : isManifestName operationId = true
  operationKind_name : isManifestName operationKind = true
  completedAt_length : completedAt.length ≤ 40

/-- An entry that `load_manifest` accepts. -/
structure ManifestEntry where
  path : RawText
  change : FimChange
  sha256 : String
  deploymentId : String
  expiresAt : String
  expiry : Int
  operation : Option ManifestOperation := none
  sha256_digest : isDigest sha256 = true
  deploymentId_name : isManifestName deploymentId = true
  expiresAt_length : expiresAt.length ≤ 40

/-- The entries that `load_manifest` returns, or the message of its error. -/
abbrev Manifest := Except String (List ManifestEntry)

/-- The entries that a change is compared with: none when the manifest is malformed. -/
def Manifest.entries : Manifest → List ManifestEntry
  | .ok entries => entries
  | .error _ => []

def ManifestEntry.json (entry : ManifestEntry) : JsonFields :=
  [("deployment_id", .str entry.deploymentId), ("expires_at", .str entry.expiresAt)] ++
    match entry.operation with
    | some operation =>
      [("operation_id", .str operation.operationId),
        ("operation_kind", .str operation.operationKind),
        ("completed_at", .str operation.completedAt)]
    | none => []

structure FimRules extends Rules where
  /-- `json.dumps` with sorted keys and compact separators. -/
  dumps : JsonFields → String
  /-- `fingerprint` of a kind and values that are texts. -/
  fingerprint : String → List RawText → String

variable (rules : FimRules)

/-- The fields of the material of `evidence_digest`, other than the digest. -/
def evidenceFields : List String :=
  ["kind", "mode", "uid", "gid", "size", "mtime_ns", "ctime_ns", "device", "inode"]

def evidenceMaterial (value : JsonFields) : JsonFields :=
  evidenceFields.map fun key => (key, (value.field key).getD .null)

def digestField (value : JsonFields) (key : String) : Option String :=
  match value.field key with
  | some (.str digest) => if isDigest digest then some digest else none
  | _ => none

/-- `evidence_digest`. -/
def FimRules.evidenceDigest (value : JsonFields) : Option (FimKind × String) :=
  match value.field "kind" with
  | some (.str text) =>
    let material := evidenceMaterial value
    (FimKind.ofText text).bind fun kind =>
      match kind with
      | .file => (digestField value "sha256").map fun digest =>
        (kind, rules.digest (rules.dumps (material.set "content_sha256" (.str digest))))
      | .symlink => (digestField value "target_sha256").map fun digest =>
        (kind, rules.digest (rules.dumps (material.set "target_sha256" (.str digest))))
      | .directory | .other => some (kind, rules.digest (rules.dumps material))
  | _ => none

def FimRules.matchesEvidence (entry : ManifestEntry) (evidence : JsonFields) (observedAt : Int) :
    Bool :=
  match entry.operation with
  | some operation =>
    rules.evidenceDigest evidence = some (operation.evidenceKind, entry.sha256) ∧
      operation.started ≤ observedAt ∧
        observedAt ≤ operation.completed + seconds maxOperationCorrelationSeconds
  | none => (evidence.field "sha256").any (Json.isText entry.sha256)

/-- `annotation`, with the evidence of the side that the change leaves. -/
def FimRules.annotationFor (entries : List ManifestEntry) (path : RawText) (change : String)
    (evidence : JsonFields) (now observedAt : Int) : Option JsonFields :=
  (entries.find? fun entry =>
    entry.path = path ∧ entry.change.text = change ∧ now ≤ entry.expiry ∧
      rules.matchesEvidence entry evidence observedAt).map ManifestEntry.json

/-- The call of `annotation` that `annotate_pending_fim` makes for the attributes of a
spooled event. -/
def FimRules.attributesAnnotation (entries : List ManifestEntry) (now : Int)
    (attributes : JsonFields) (created : Time) : Option JsonFields :=
  match attributes.field "path", attributes.field "change" with
  | some (.str path), some (.str change) =>
    let evidence := (evidenceFields ++ ["sha256", "target_sha256"]).map fun key =>
      (key, (attributes.field key).getD .null)
    rules.annotationFor entries (RawText.ofString path) change evidence now created
  | _, _ => none

theorem annotation_some {rules : FimRules} {entries : List ManifestEntry} {path : RawText}
    {change : String} {evidence : JsonFields} {now observedAt : Int} {value : JsonFields}
    (hvalue : rules.annotationFor entries path change evidence now observedAt = some value) :
    ∃ entry : ManifestEntry, value = entry.json := by
  obtain ⟨entry, _, hjson⟩ := Option.map_eq_some_iff.mp hvalue
  exact ⟨entry, hjson.symm⟩

theorem attributesAnnotation_some {rules : FimRules} {entries : List ManifestEntry} {now : Int}
    {attributes : JsonFields} {created : Time} {value : JsonFields}
    (hvalue : rules.attributesAnnotation entries now attributes created = some value) :
    ∃ entry : ManifestEntry, value = entry.json := by
  unfold FimRules.attributesAnnotation at hvalue
  split at hvalue
  · exact annotation_some hvalue
  · cases hvalue

theorem length_le_of_isManifestName {name : String} (hname : isManifestName name = true) :
    name.length ≤ 2048 := by
  have hlength := length_le_of_startsAndGoesOn hname
  omega

theorem isAttributeKey_announced :
    ∀ key ∈ ["deployment_id", "expires_at", "operation_id", "operation_kind", "completed_at"],
      isAttributeKey key = true := by
  decide

theorem mem_json {entry : ManifestEntry} {field : String × Json} (hfield : field ∈ entry.json) :
    isAttributeKey field.1 = true ∧ ∃ text : String, field.2 = .str text ∧ text.length ≤ 2048 := by
  have hexpires := entry.expiresAt_length
  have hdeployment := length_le_of_isManifestName entry.deploymentId_name
  unfold ManifestEntry.json at hfield
  rcases List.mem_append.mp hfield with hfirst | hoperation
  · simp only [List.mem_cons, List.not_mem_nil, or_false] at hfirst
    rcases hfirst with rfl | rfl
    · exact ⟨isAttributeKey_announced _ (by simp), _, rfl, hdeployment⟩
    · exact ⟨isAttributeKey_announced _ (by simp), _, rfl, by omega⟩
  · cases hentry : entry.operation with
    | none => simp [hentry] at hoperation
    | some operation =>
      have hid := length_le_of_isManifestName operation.operationId_name
      have hkind := length_le_of_isManifestName operation.operationKind_name
      have hcompleted := operation.completedAt_length
      simp only [hentry, List.mem_cons, List.not_mem_nil, or_false] at hoperation
      rcases hoperation with rfl | rfl | rfl
      · exact ⟨isAttributeKey_announced _ (by simp), _, rfl, hid⟩
      · exact ⟨isAttributeKey_announced _ (by simp), _, rfl, hkind⟩
      · exact ⟨isAttributeKey_announced _ (by simp), _, rfl, by omega⟩

theorem validateAttributes_json (entry : ManifestEntry) :
    validateAttributes 1 (.obj entry.json) = .ok () := by
  rw [validateAttributes_obj_ok]
  refine ⟨by decide, ?_, ?_⟩
  · unfold ManifestEntry.json
    split <;> simp
  · intro field hfield
    obtain ⟨hkey, text, htext, hlength⟩ := mem_json hfield
    rw [htext]
    exact ⟨hkey, validateAttributes_str_ok.mpr ⟨by decide, hlength⟩⟩

end DjangoMojo.Sensor
