import DjangoMojo.Sensor.Origins
import DjangoMojo.Sensor.Reprojection
import DjangoMojo.Sensor.Transactions

/-! # The proof of a firewall operation

A sudo command that runs the firewall broker is held until the receipts of the broker and the
processes of its session prove it to be an operation of the job engine. A proven operation is
local to the host: its evidence is built again with the proof, and the classifier has to
recognise it.
-/

namespace DjangoMojo.Sensor

open Foundation

/-! ### What the collectors leave -/

/-- A process of the audit session. A text that is missing is empty, and a lone surrogate in a
text is replaced. -/
structure SessionProcess where
  pid : Option Int := none
  ppid : Option Int := none
  startTicks : Option Int := none
  exe : String := ""
  unit : String := ""
  cgroup : String := ""
  selinux : String := ""
  argv : List String := []
  argvSha256 : String := ""
  monotonic : Option Int := none
  auditId : String := ""
  success : Bool := true
  eoe : Bool := true
  ambiguous : Bool := false
  incomplete : Bool := false
  pinned : Bool := false

inductive ReceiptKind where
  | start | result
  deriving DecidableEq

structure ReceiptChild where
  pid : Int
  startTicks : Int
  exe : String
  argvDigest : String
  ok : Bool

/-- The fields in which the two receipts of an operation have to agree. -/
structure Operation where
  operationId : String
  executionId : String
  jobId : String
  function : String
  operation : String
  semantic : String
  argvDigest : String
  stdinDigest : String
  stdinLength : Int
  count : Int
  brokerPid : Int
  brokerStartTicks : Int
  targetExe : String
  bootId : String
  auditSession : Int
  deriving DecidableEq

def isOperationId (text : String) : Bool :=
  text.toList.length = 32 && text.toList.all fun char => isDigit char || ('a' ≤ char ∧ char ≤ 'f')

/-- What `firewall_receipt` accepts of the broker. -/
structure Receipt extends Operation where
  kind : ReceiptKind
  monotonicNs : Int
  targetPid : Option Int := none
  targetStartTicks : Option Int := none
  ok : Option Bool := none
  children : List ReceiptChild := []
  operationId_valid : isOperationId operationId = true

/-- The tables that a proof is made of, each with its newest rows first. -/
structure ProofTables where
  receipts : List (Time × Receipt) := []
  nodes : SessionKey → List SessionProcess := fun _ => []
  origin : SessionKey → Option OriginRow := fun _ => none
  healthy : String → Option Bool := fun _ => none

structure ProofTools extends EvidenceTools where
  /-- `canonical_json` of a list of processes. -/
  canonicalNodes : List SessionProcess → String

/-! ### Receipts -/

/-- `_BROKER_FUNCTION_OPERATIONS`. -/
def brokerFunctionOperations : List (String × List String) :=
  [("mojo.apps.incident.asyncjobs.broadcast_block_ip", ["rules.contains", "rule.insert"]),
    ("mojo.apps.incident.asyncjobs.broadcast_unblock_ip", ["rules.contains", "rule.delete"]),
    ("mojo.apps.incident.asyncjobs.broadcast_ipset_add_blocked", ["set.add", "set.rule_ensure"]),
    ("mojo.apps.incident.asyncjobs.broadcast_ipset_del_blocked", ["set.delete"]),
    ("mojo.apps.incident.asyncjobs.sync_firewall", ["set.replace", "set.rule_ensure"]),
    ("mojo.apps.incident.asyncjobs.broadcast_sync_ipset", ["set.replace", "set.rule_ensure"]),
    ("mojo.apps.incident.asyncjobs.broadcast_remove_ipset", ["set.remove"])]

/-- `_receipt_pair_valid`. -/
def receiptPairValid (start result : Receipt) : Bool :=
  result.ok = some true &&
    start.toOperation = result.toOperation &&
    ((brokerFunctionOperations.lookup start.function).getD []).contains start.operation &&
    start.monotonicNs ≤ result.monotonicNs &&
    result.targetPid.any (fun pid => 0 < pid) &&
    result.targetStartTicks.any (fun ticks => 0 < ticks) &&
    start.children.isEmpty &&
    1 ≤ result.children.length && result.children.length ≤ 8 &&
    result.children.all ReceiptChild.ok

def ProofTables.recentReceipts (tables : ProofTables) (now : Time) : List Receipt :=
  ((tables.receipts.filter fun row => now - seconds 30 ≤ row.1).take 1024).map Prod.snd

/-- One of the two receipts of an operation: the last row of its kind. -/
def receiptOf (receipts : List Receipt) (operationId : String) (kind : ReceiptKind) :
    Option Receipt :=
  (receipts.filter fun receipt => receipt.operationId = operationId && receipt.kind = kind).getLast?

/-! ### Processes -/

/-- `_eligible_process_node`. -/
def SessionProcess.eligible (node : SessionProcess) : Bool :=
  node.success && node.eoe && !node.ambiguous && !node.incomplete &&
    1 ≤ node.argv.length && node.argv.length ≤ 64 &&
    (node.argv.map fun part => byteLength part.toList).sum ≤ 16384

/-- The process may be the generation that ran with these ticks, in this span of time. -/
def SessionProcess.isGeneration (node : SessionProcess) (pid startTicks earliest latest : Int)
    (exe : Option String) : Bool :=
  node.pid = some pid && node.eligible && exe.all (fun path => node.exe = path) &&
    match node.startTicks with
    | some ticks => ticks = startTicks
    | none => node.monotonic.any fun at_ =>
      earliest - 1000000000 ≤ at_ * 1000 && at_ * 1000 ≤ latest + 1000000000

def only {Item : Type} : List Item → Option Item
  | [item] => some item
  | _ => none

/-- `_one_pid_generation`. -/
def onePidGeneration (nodes : List SessionProcess) (pid startTicks earliest latest : Int)
    (exe : Option String) : Option SessionProcess :=
  only (nodes.filter fun node => node.isGeneration pid startTicks earliest latest exe)

/-- `_parent_node`. -/
def parentNode (nodes : List SessionProcess) (child : SessionProcess) : Option SessionProcess :=
  let found := nodes.filter fun node => node.pid = child.ppid && node.eligible
  match only found with
  | some parent => some parent
  | none => only (found.filter SessionProcess.pinned)

def SessionProcess.generation (node : SessionProcess) : String :=
  match node.startTicks with
  | some ticks => if ticks = 0 then s!"audit-{node.auditId}" else toString ticks
  | none => s!"audit-{node.auditId}"

def SessionProcess.isEngine (node : SessionProcess) (origin : OriginRow) : Bool :=
  node.pinned && node.pid = origin.anchorPid && node.generation = origin.anchorGeneration &&
    node.argv.any (fun part => decide ("bin/jobs.py".toList <:+: part.toList)) &&
    node.argv.contains "engine" && node.argv.contains "foreground"

def maxEventAncestors : Nat := 8

def SessionProcess.text (value : String) : Option Json :=
  if value = "" then none else some (.str (String.ofList (value.toList.take 512)))

/-- What `project_ancestors` takes of a process under a key. -/
def SessionProcess.get (node : SessionProcess) (key : String) : Option Json :=
  match key with
  | "pid" => node.pid.map .int
  | "ppid" => node.ppid.map .int
  | "start_ticks" => node.startTicks.map .int
  | "exe" => text node.exe
  | "unit" => text node.unit
  | "cgroup" => text node.cgroup
  | "selinux" => text node.selinux
  | _ => none

/-- A node of `project_ancestors`. -/
def SessionProcess.projected (node : SessionProcess) : Json :=
  .obj (["pid", "ppid", "start_ticks", "exe", "unit", "cgroup", "selinux"].filterMap fun key =>
    (node.get key).map fun json => (key, json))

/-- `project_ancestors`. -/
def projectAncestors (ancestors : List SessionProcess) : Json :=
  .arr ((ancestors.take maxEventAncestors).map SessionProcess.projected)

/-! ### The search for a proof -/

/-- The processes that the broker started, or whether one of them contradicts the receipt. -/
def targetNodes (nodes : List SessionProcess) (start result : Receipt) :
    List ReceiptChild → Except Bool (List SessionProcess)
  | [] => .ok []
  | child :: rest =>
    match onePidGeneration nodes child.pid child.startTicks start.monotonicNs
        result.monotonicNs (some child.exe) with
    | none => .error false
    | some target =>
      if target.ppid = some start.brokerPid ∧ target.argvSha256 = child.argvDigest then
        (targetNodes nodes start result rest).map (target :: ·)
      else .error true

inductive Attempt where
  | passed (conflicted : Bool)
  | proven (proof : JsonFields)

def jobmanFirewallClassifier : String := "jobman_firewall_operation_v1"

def ProofTools.proof (tools : ProofTools) (start : Receipt) (ancestors : List SessionProcess) :
    JsonFields :=
  [("local_disposition", .str jobmanFirewallClassifier),
    ("operation_id", .str start.operationId), ("execution_id", .str start.executionId),
    ("job_id", .str start.jobId), ("job_function", .str start.function),
    ("origin_kind", .str "cron_jobman"), ("proof_status", .str "proven"),
    ("lineage", projectAncestors ancestors),
    ("lineage_sha256", .str (tools.digest (tools.canonicalNodes ancestors)))]

def integerOf (attributes : JsonFields) (key : String) : Int :=
  match attributes.field key with
  | some (.int value) => value
  | some (.bool value) => Json.boolInt value
  | _ => 0

def textOf (attributes : JsonFields) (key : String) : String :=
  match attributes.field key with
  | some (.str value) => value
  | _ => ""

/-- The broker and the processes above it prove the operation. -/
def ProofTools.proveAncestors (tools : ProofTools) (origin : OriginRow)
    (nodes : List SessionProcess) (attributes : JsonFields) (start result : Receipt)
    (targets : List SessionProcess) (broker : SessionProcess) : Attempt :=
  match parentNode nodes broker with
  | none => .passed false
  | some parent =>
    let observedNs := integerOf attributes "monotonic" * 1000
    if parent.exe = "/usr/bin/sudo" ∧ parent.pid = some (integerOf attributes "producer_pid") ∧
        start.monotonicNs - 2000000000 ≤ observedNs ∧
        observedNs ≤ result.monotonicNs + 2000000000 then
      match parentNode nodes parent with
      | none => .passed false
      | some engine =>
        if engine.isEngine origin then
          .proven (tools.proof start (targets ++ [broker, parent, engine]))
        else .passed false
    else .passed false

def ProofTools.attempt (tools : ProofTools) (origin : OriginRow) (nodes : List SessionProcess)
    (attributes : JsonFields) (start result : Option Receipt) : Attempt :=
  match start, result with
  | some start, some result =>
    if !receiptPairValid start result then .passed true
    else if start.bootId ≠ textOf attributes "boot_id" ∨
        start.auditSession ≠ integerOf attributes "audit_session" then .passed false
    else
      let broker := onePidGeneration nodes start.brokerPid start.brokerStartTicks
        start.monotonicNs result.monotonicNs none
      let unclear := nodes.any fun node => (node.ambiguous || node.incomplete) &&
        (node.pid = some start.brokerPid || node.pid = result.targetPid)
      match broker, targetNodes nodes start result result.children with
      | some broker, .ok targets =>
        tools.proveAncestors origin nodes attributes start result targets broker
      | none, .ok _ => .passed unclear
      | _, .error conflicted => .passed (conflicted || unclear)
  | _, _ => .passed false

def ProofTools.search (tools : ProofTools) (origin : OriginRow) (nodes : List SessionProcess)
    (attributes : JsonFields) (receipts : List Receipt) : Bool → List String → Verdict
  | conflicted, [] => if conflicted then .conflict else .keep
  | conflicted, operationId :: rest =>
    match tools.attempt origin nodes attributes (receiptOf receipts operationId .start)
        (receiptOf receipts operationId .result) with
    | .passed contradicts => search tools origin nodes attributes receipts
        (conflicted || contradicts) rest
    | .proven proof => .proven proof

/-- What `_resolve_pending_firewall` finds for a held observation, when the health of the audit
is known to be good. -/
def ProofTools.verdict (tools : ProofTools) (tables : ProofTables) (now : Time)
    (observation : Observation) : Verdict :=
  let attributes := observation.attributes
  let key : SessionKey := (textOf attributes "boot_id", integerOf attributes "audit_session")
  if tables.healthy key.1 ≠ some true then .unhealthy
  else
    match tables.origin key with
    | none => .keep
    | some origin =>
      if origin.ambiguous then .ambiguousOrigin
      else if origin.originKind ≠ .cronJobman then .keep
      else
        let receipts := tables.recentReceipts now
        tools.search origin ((tables.nodes key).take 256) attributes receipts false
          (receipts.map fun receipt => receipt.operationId).eraseDups

/-! ### The classifier -/

/-- `_timestamp` accepts the text. -/
def Library.isTimestamp (library : Library) (text : String) : Bool :=
  text.length ≤ 40 && (library.instant text).isSome

/-- `classify_local_only` of a sudo command that is not to be aggregated. -/
def Library.classifySudo (library : Library) (observation : Observation) : Option Classifier :=
  let attributes := observation.attributes
  if isDigest observation.fingerprint && library.isTimestamp observation.observedAt &&
      observation.severity = .high && observation.recommendation = "review" &&
      (attributes.field "local_disposition").any (Json.isText jobmanFirewallClassifier) &&
      (attributes.field "attribution_provenance").any (Json.isText "none") &&
      !attributes.isSet "source_ip" && !attributes.isSet "tty" &&
      (attributes.field "command").any (Json.isText "/usr/local/sbin/mojo-firewall-broker") &&
      isOperationId (textOf attributes "operation_id") then
    some .jobmanFirewallOperation
  else none

/-- The rules of a store that builds evidence and classifies sudo commands as the sensor does. -/
def ProofTools.rules (tools : ProofTools) (rules : Rules) : Rules :=
  { rules with
    buildEvidence := fun kind attributes =>
      (tools.buildEvidence kind (evidenceValues attributes)).toOption
    classify := fun observation =>
      if observation.kind = sudoCommandKind then rules.toLibrary.classifySudo observation
      else rules.classify observation }

end DjangoMojo.Sensor
