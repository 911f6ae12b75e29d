import DjangoMojo.Foundation.BytePrefix
import DjangoMojo.Foundation.PythonDict
import DjangoMojo.Foundation.PythonText
import DjangoMojo.Sensor.Protocol

/-! # Evidence

What is kept of the values of an observation: the fields that its kind allows, in their
order of priority, each within its limit and all within one budget of encoded bytes. A text
that is cut is marked, and the digest of the whole text stands beside it.
-/

namespace DjangoMojo.Sensor

open Foundation

def evidenceBytes : Nat := maxAttributeBytes - 512

abbrev FieldPolicy := String × Option Nat

def sshPolicies : List FieldPolicy :=
  [("source_ip", some 64), ("user", some 128), ("auth_method", some 64),
    ("boot_id", some 64), ("audit_session", some 32), ("tty", some 96)]

def sudoIdentityPolicies : List FieldPolicy :=
  [("source_ip", some 64), ("actor", some 128), ("target_user", some 128),
    ("tty", some 96), ("boot_id", some 64), ("audit_session", none),
    ("attribution_provenance", some 32), ("cwd", some 512),
    ("producer_uid", none), ("producer_pid", none),
    ("producer_comm", some 96), ("producer_exe", some 256),
    ("audit_loginuid", none), ("systemd_unit", some 256),
    ("cgroup", some 512), ("selinux", some 256), ("monotonic", none),
    ("command_path", some 512), ("command_sha256", some 64)]

def sudoProofPolicies : List FieldPolicy :=
  [("origin_kind", some 32), ("operation_id", some 64),
    ("execution_id", some 64), ("job_id", some 64), ("job_function", some 256),
    ("proof_status", some 32), ("lineage_sha256", some 64),
    ("receipt_semantics", none), ("lineage", none), ("local_disposition", some 64)]

def sudoCommandPolicies : List FieldPolicy :=
  sudoIdentityPolicies ++ ("command", some 2048) :: sudoProofPolicies

def sudoFailurePolicies : List FieldPolicy :=
  [("source_ip", some 64), ("actor", some 128), ("tty", some 96),
    ("boot_id", some 64), ("audit_session", some 32),
    ("attribution_provenance", some 32)]

def sessionOpenPolicies : List FieldPolicy :=
  [("source_ip", some 64), ("attribution_provenance", some 32),
    ("service", some 128), ("target_user", some 128), ("target_uid", none),
    ("opener_uid", none), ("producer_uid", none), ("producer_pid", none),
    ("producer_comm", some 96), ("producer_exe", some 256), ("systemd_unit", some 256),
    ("boot_id", some 64), ("audit_session", none), ("audit_loginuid", none),
    ("tty", some 96)]

def webPolicies : List FieldPolicy :=
  [("source_ip", some 64), ("peer_ip", some 64), ("method", some 32),
    ("status", none), ("host", some 512), ("upstream_status", some 256),
    ("request_id", some 64), ("scheme", some 16), ("protocol", some 32),
    ("tls_protocol", some 96), ("tls_cipher", some 96),
    ("remote_port", none), ("peer_port", none), ("server_port", none),
    ("request_length", none), ("response_bytes", none),
    ("response_body_bytes", none), ("request_time", some 64),
    ("upstream_connect_time", some 256), ("upstream_header_time", some 256),
    ("upstream_response_time", some 256), ("upstream_response_length", some 256),
    ("upstream_bytes_received", some 256), ("upstream_bytes_sent", some 256),
    ("response_class", some 32), ("resource_id", some 96),
    ("edge_policy_version", none),
    ("path", some 1024), ("request_uri", some 2048), ("referrer", some 1536),
    ("user_agent", some 1536)]

def sudoCommandKind : String := "auth.sudo_command"

/-- `FIELD_POLICIES`. -/
def fieldPolicies : List (String × List FieldPolicy) :=
  [("auth.ssh_login", sshPolicies), ("auth.ssh_failure", sshPolicies),
    (sudoCommandKind, sudoCommandPolicies), ("auth.sudo_failure", sudoFailurePolicies),
    ("auth.session_open", sessionOpenPolicies), ("web.probe", webPolicies),
    ("web.error", webPolicies), ("web.denied", webPolicies),
    ("system.oom", [("unit", some 256), ("message", some 1024)]),
    ("system.service_error", [("unit", some 256), ("priority", none), ("message", some 1024),
      ("failure_kind", some 64)])]

/-! ### Values -/

inductive EvidenceValue where
  | none
  | bool (value : Bool)
  | int (value : Int)
  /-- The text that is written for the float, and whether it is finite. -/
  | float (text : String) (finite : Bool)
  | text (value : RawText)
  | list (items : List EvidenceValue)
  | dict (fields : List (String × EvidenceValue))
  | other (number : Nat)

abbrev EvidenceValues := String → Option EvidenceValue

structure EvidenceTools where
  digest : String → String
  digest_isDigest : ∀ text, isDigest (digest text) = true
  /-- `str` of a value that is no text. -/
  shown : EvidenceValue → RawText

/-- The value under the key, unless it is missing, `None` or an empty text. -/
def EvidenceValues.given (values : EvidenceValues) (key : String) : Option EvidenceValue :=
  match values key with
  | some .none => none
  | some (.text []) => none
  | some value => some value
  | none => none

/-- `safe_text`. -/
def EvidenceTools.safeText (tools : EvidenceTools) : EvidenceValue → String
  | .none => ""
  | .text value => value.safeText
  | value => (tools.shown value).safeText

/-- A value that is kept as it is: a truth value, an integer or a finite float. -/
def EvidenceValue.scalar : EvidenceValue → Option Json
  | .none => some .null
  | .bool value => some (.bool value)
  | .int value => some (.int value)
  | .float shown true => some (.float shown)
  | _ => Option.none

/-- A text that is not empty, as it is kept within a limit. -/
def EvidenceValue.cutText (limit : Nat) : EvidenceValue → Option String
  | .text [] => Option.none
  | .text value => some (String.ofList (takeBytes limit value.safeText.toList))
  | _ => Option.none

def EvidenceValue.natural : EvidenceValue → Option Int
  | .int value => if 0 ≤ value then some value else Option.none
  | _ => Option.none

/-- The fields of a node of the lineage: numbers, and texts with the bytes they may have. -/
def nodePolicies : List FieldPolicy :=
  [("pid", none), ("ppid", none), ("start_ticks", none), ("exe", some 512),
    ("unit", some 256), ("cgroup", some 512), ("selinux", some 256)]

def EvidenceValue.child (limit : Option Nat) (value : EvidenceValue) : Option Json :=
  match limit with
  | Option.none => value.natural.map .int
  | some limit => (value.cutText limit).map .str

def projectNode (fields : List (String × EvidenceValue)) : JsonFields :=
  nodePolicies.filterMap fun policy =>
    ((fields.lookup policy.1).bind (EvidenceValue.child policy.2)).map fun json =>
      (policy.1, json)

def EvidenceValue.node : EvidenceValue → Option Json
  | .dict fields => some (.obj (projectNode fields))
  | _ => Option.none

def EvidenceValue.listValue (key : String) : EvidenceValue → Option Json
  | .list items =>
    if key = "receipt_semantics" then
      some (.arr (((items.take 8).filterMap (cutText 160)).map .str))
    else if key = "lineage" then some (.arr ((items.take 8).filterMap node))
    else Option.none
  | _ => Option.none

/-! ### Texts within the budget -/

/-- `_fits`. -/
def fits (evidence : JsonFields) : Bool := (Json.obj evidence).size ≤ evidenceBytes

def marked (evidence : JsonFields) (key digest : String) : JsonFields :=
  (evidence.set (key ++ "_truncated") (.bool true)).set (key ++ "_sha256") (.str digest)

namespace EvidenceTools

variable (tools : EvidenceTools)

/-- `candidate` of `_add_text`. -/
def candidate (evidence : JsonFields) (key : String) (text : List Char) (limit bytes : Nat) :
    JsonFields :=
  let cut := takeBytes limit text
  let trial := evidence.set key (.str (String.ofList (takeBytes bytes cut)))
  if limit < byteLength text ∨ bytes < byteLength cut then
    marked trial key (tools.digest (String.ofList text))
  else trial

/-- `_add_text`, of a text that is safe. -/
def addText (evidence : JsonFields) (key : String) (text : List Char) (limit : Nat) :
    JsonFields :=
  let candidate := tools.candidate evidence key text limit
  let high := byteLength (takeBytes limit text)
  if fits (candidate high) then candidate high
  else
    match bisect (fun bytes => fits (candidate bytes)) (high + 1) 0 (high + 1) none with
    | some best => candidate best
    | none =>
      let marker := marked evidence key (tools.digest (String.ofList text))
      if fits marker then marker else evidence

def addWhole (evidence : JsonFields) (key : String) (value : Json) : JsonFields :=
  let trial := evidence.set key value
  if fits trial then trial else evidence

/-- The turn of `build_evidence` for one field. -/
def addField (values : EvidenceValues) (evidence : JsonFields) (policy : FieldPolicy) :
    JsonFields :=
  match values.given policy.1 with
  | none => evidence
  | some value =>
    match value.listValue policy.1, policy.2, value.scalar with
    | some json, _, _ => addWhole evidence policy.1 json
    | none, some limit, _ => tools.addText evidence policy.1 (tools.safeText value).toList limit
    | none, none, some json => addWhole evidence policy.1 json
    | none, none, none => evidence

/-- The loop of `build_evidence`. -/
def project (values : EvidenceValues) (policies : List FieldPolicy) : JsonFields :=
  policies.foldl (tools.addField values) []

/-- `build_evidence`. -/
def buildEvidence (kind : String) (values : EvidenceValues) : Except String JsonFields :=
  match fieldPolicies.lookup kind with
  | none => .error s!"unsupported MojoSec evidence kind: {kind}"
  | some policies =>
    let result := tools.project values policies
    if fits result then .ok result
    else .error "MojoSec evidence budget invariant failed"

end EvidenceTools

end DjangoMojo.Sensor
