import DjangoMojo.Sensor.Conservation
import DjangoMojo.Sensor.ProofRoom

/-! # Proven operations in the store

The turn of a proven operation aborts its transaction exactly when its proof does not fit. A
lineage within its bounds is kept whole, and may leave no room for the disposition.
-/

namespace DjangoMojo.Sensor

open Foundation

/-! ### The store -/

section Resolve

variable {tools : ProofTools} {rules : Rules} {config : Config} {verdict : Observation → Verdict}
  {now : Time} {store : Store} {id : String} {row : PendingRow} {proof : JsonFields}

theorem resolveOne_proven (hrow : store.pendingFirewall.get id = some row)
    (hheld : HeldCandidate tools.toEvidenceTools rules row.payload)
    (hproven : verdict row.payload = .proven proof) :
    (tools.rules rules).resolveOne config (some true) verdict now store id =
      ((tools.rules rules).recordLocalOnly config { row.payload with
          attributes := rebuilt tools row.payload.attributes proof } now store).map fun recorded =>
        (recorded.note (.recorded row.number { row.payload with
          attributes := rebuilt tools row.payload.attributes proof })).deletePending id := by
  have hbuilt : (tools.rules rules).buildEvidence row.payload.kind
      (withProof row.payload.attributes proof) =
        some (rebuilt tools row.payload.attributes proof) := by
    change (tools.buildEvidence _ _).toOption = _
    rw [buildEvidence_rebuilt hheld]
    rfl
  unfold withProof at hbuilt
  simp only [Rules.resolveOne, hrow, hproven, hbuilt, Option.bind_eq_bind, Option.bind_some]
  cases (tools.rules rules).recordLocalOnly config { row.payload with
    attributes := rebuilt tools row.payload.attributes proof } now store <;> rfl

/-- Outside of diagnosis, only a missing classifier makes the record of a local observation
raise. -/
theorem recordLocalOnly_isSome (rules : Rules) (config : Config) (now : Time)
    (found : Observation)
    (hnormalized : (rules.instant (rules.normalized found.observedAt)).isSome = true)
    (hquiet : store.diagnosticActive = false) :
    (rules.recordLocalOnly config found now store).isSome =
      (rules.classifier found).isSome := by
  unfold Rules.recordLocalOnly
  cases hclassifier : rules.classifier found with
  | none => rfl
  | some classifier =>
    obtain ⟨seen, hseen⟩ := Option.isSome_iff_exists.mp hnormalized
    simp only [Option.bind_eq_bind, Option.bind_some, Rules.noteLastSeen, hseen]
    generalize hobserved : (store.incrementSaturating .localOnlyObserved 1).incrementSaturating
      (.localOnlyObservedOf classifier) 1 = observed
    have hquietObserved : observed.diagnosticActive = false := by
      rw [← hobserved]
      exact hquiet
    split
    · simp [hquietObserved]
    next currentTime _ =>
      by_cases hlater : currentTime < seen
      · simp [hlater, hquietObserved]
      · simp [hlater, hquietObserved]

end Resolve

/-! ### A lineage within its bounds -/

theorem child_text {limit : Nat} {text : String} (hempty : text ≠ "") (hnul : NulFree text)
    (hbytes : byteLength text.toList ≤ limit) :
    (EvidenceValue.ofJson (.str text)).child (some limit) = some (.str text) := by
  rw [EvidenceValue.ofJson, EvidenceValue.child,
    cutText_text fun hnil => hempty (ofString_eq_nil.mp hnil), safeText_ofString hnul,
    takeBytes_eq_self hbytes, String.ofList_toList]
  rfl

/-- What is taken of the process is within the bounds of a node. -/
def SessionProcess.Within (node : SessionProcess) : Prop :=
  ∀ policy ∈ nodePolicies, ∀ json, node.get policy.1 = some json →
    (EvidenceValue.ofJson json).child policy.2 = some json

theorem node_projected {node : SessionProcess} (hwithin : node.Within) :
    (EvidenceValue.ofJson node.projected).node = some node.projected := by
  have hnodup : (nodePolicies.map Prod.fst).Nodup := by decide
  have hfields : node.projected = .obj (nodePolicies.filterMap fun policy =>
      (node.get policy.1).map fun json => (policy.1, json)) := rfl
  rw [hfields, EvidenceValue.ofJson, EvidenceValue.node, projectNode]
  refine congrArg (fun fields => some (Json.obj fields)) (List.filterMap_congr ?_)
  intro policy hmem
  rw [EvidenceValue.lookup_ofFields, lookup_filterMap_pairs hnodup hmem]
  cases hget : node.get policy.1 with
  | none => rfl
  | some json =>
    rw [Option.map_some, Option.bind_some, hwithin policy hmem json hget]

theorem listValue_projectAncestors {ancestors : List SessionProcess}
    (hwithin : ∀ node ∈ ancestors, node.Within) :
    (EvidenceValue.ofJson (projectAncestors ancestors)).listValue "lineage" =
      some (projectAncestors ancestors) := by
  have hlength : ((ancestors.take maxEventAncestors).map SessionProcess.projected).length ≤ 8 := by
    rw [List.length_map]
    exact List.length_take_le 8 ancestors
  rw [projectAncestors, EvidenceValue.ofJson, EvidenceValue.listValue, if_neg (by decide),
    if_pos rfl, EvidenceValue.ofItems_eq,
    List.take_of_length_le (by rw [List.length_map]; exact hlength), List.filterMap_map,
    List.filterMap_map]
  refine congrArg (fun items => some (Json.arr items)) ?_
  rw [← List.filterMap_eq_map]
  refine List.filterMap_congr fun node hmem => ?_
  exact node_projected (hwithin node (List.mem_of_mem_take hmem))

/-! ### A session with long names -/

def faces (count : Nat) : String := String.ofList (List.replicate count '😀')

theorem toList_faces (count : Nat) : (faces count).toList = List.replicate count '😀' :=
  String.toList_ofList

theorem textSize_faces (count : Nat) : Json.textSize (faces count) = 2 + 12 * count := by
  have hsize : Json.charSize '😀' = 12 := by decide
  rw [Json.textSize, toList_faces, List.map_replicate, List.sum_replicate_nat, hsize, Nat.mul_comm]

theorem byteLength_faces (count : Nat) : byteLength (faces count).toList = 4 * count := by
  have hsize : '😀'.utf8Size = 4 := by decide
  rw [toList_faces, byteLength, List.map_replicate, List.sum_replicate_nat, hsize, Nat.mul_comm]

theorem faces_ne_empty {count : Nat} (hpositive : 0 < count) : faces count ≠ "" := by
  intro hnil
  have hlength := congrArg (fun text => text.toList.length) hnil
  simp only [toList_faces, List.length_replicate] at hlength
  exact absurd hlength (Nat.ne_of_gt hpositive)

theorem nulFree_faces (count : Nat) : NulFree (faces count) := by
  rw [NulFree, toList_faces]
  exact fun hmem => absurd (List.eq_of_mem_replicate hmem) (by decide)

theorem text_of_short {text : String} (hempty : text ≠ "") (hlength : text.toList.length ≤ 512) :
    SessionProcess.text text = some (.str text) := by
  rw [SessionProcess.text, if_neg hempty, List.take_of_length_le hlength, String.ofList_toList]

theorem text_faces {count : Nat} (hpositive : 0 < count) (hlimit : count ≤ 512) :
    SessionProcess.text (faces count) = some (.str (faces count)) := by
  refine text_of_short (faces_ne_empty hpositive) ?_
  rw [toList_faces, List.length_replicate]
  exact hlimit

def sessionProcess (pid ppid : Int) (exe : String) (argv : List String) (pinned : Bool) :
    SessionProcess where
  pid := some pid
  ppid := some ppid
  startTicks := some 700
  exe := exe
  cgroup := faces 128
  argv := argv
  pinned := pinned

/-- The processes of the session, the broker having a long name of its own. -/
def sessionProcesses : List SessionProcess :=
  [sessionProcess 40 30 "/sbin/iptables" ["iptables"] false,
    sessionProcess 30 20 (faces 61) ["broker"] false,
    sessionProcess 20 10 "/usr/bin/sudo" ["sudo"] false,
    sessionProcess 10 1 "/usr/bin/python3" ["bin/jobs.py", "engine", "foreground"] true]

section SessionProcess

variable {pid ppid : Int} {exe : String} {argv : List String} {pinned : Bool}

theorem projected_sessionProcess (hexe : SessionProcess.text exe = some (.str exe)) :
    (sessionProcess pid ppid exe argv pinned).projected =
      .obj [("pid", .int pid), ("ppid", .int ppid), ("start_ticks", .int 700), ("exe", .str exe),
        ("cgroup", .str (faces 128))] := by
  have hname : (sessionProcess pid ppid exe argv pinned).get "exe" = some (.str exe) := hexe
  have hgroup : (sessionProcess pid ppid exe argv pinned).get "cgroup" = some (.str (faces 128)) :=
    text_faces (by decide) (by decide)
  have hunit : (sessionProcess pid ppid exe argv pinned).get "unit" = none := rfl
  have hselinux : (sessionProcess pid ppid exe argv pinned).get "selinux" = none := rfl
  simp only [SessionProcess.projected, List.filterMap_cons, List.filterMap_nil, hname, hgroup,
    hunit, hselinux, Option.map_some, Option.map_none]
  rfl

theorem within_sessionProcess (hexe : SessionProcess.text exe = some (.str exe))
    (hchild : (EvidenceValue.ofJson (.str exe)).child (some 512) = some (.str exe))
    (hpid : 0 ≤ pid) (hppid : 0 ≤ ppid) : (sessionProcess pid ppid exe argv pinned).Within := by
  have hgroup : SessionProcess.text (faces 128) = some (.str (faces 128)) :=
    text_faces (by decide) (by decide)
  have hnumber : ∀ {number : Int}, 0 ≤ number →
      (EvidenceValue.ofJson (.int number)).child none = some (.int number) := by
    intro number hnumber
    simp only [EvidenceValue.ofJson, EvidenceValue.child, EvidenceValue.natural, hnumber, if_true,
      Option.map_some]
  unfold SessionProcess.Within nodePolicies
  simp only [List.forall_mem_cons, List.not_mem_nil, false_implies, implies_true, and_true]
  refine ⟨?_, ?_, ?_, ?_, ?_, ?_, ?_⟩
  · rintro json ⟨⟩
    exact hnumber hpid
  · rintro json ⟨⟩
    exact hnumber hppid
  · rintro json ⟨⟩
    exact hnumber (by decide)
  · intro json hget
    cases hexe.symm.trans hget
    exact hchild
  · rintro json ⟨⟩
  · intro json hget
    cases hgroup.symm.trans hget
    exact child_text (faces_ne_empty (by decide)) (nulFree_faces 128)
      (by rw [byteLength_faces])
  · rintro json ⟨⟩

theorem size_node (pid ppid ticks exe cgroup : Json) :
    (Json.obj [("pid", pid), ("ppid", ppid), ("start_ticks", ticks), ("exe", exe),
      ("cgroup", cgroup)]).size =
      pid.size + ppid.size + ticks.size + exe.size + cgroup.size + 48 := by
  have hkeys : Json.textSize "pid" = 5 ∧ Json.textSize "ppid" = 6 ∧
      Json.textSize "start_ticks" = 13 ∧ Json.textSize "exe" = 5 ∧ Json.textSize "cgroup" = 8 := by
    decide
  obtain ⟨hpid, hppid, hticks, hname, hgroup⟩ := hkeys
  simp only [Json.size, Json.fieldsSize, Json.commas, List.length_cons, List.length_nil, hpid,
    hppid, hticks, hname, hgroup]
  omega

theorem size_str (text : String) : (Json.str text).size = Json.textSize text := rfl

theorem size_sessionProcess (hexe : SessionProcess.text exe = some (.str exe)) :
    (sessionProcess pid ppid exe argv pinned).projected.size =
      (Json.int pid).size + (Json.int ppid).size + Json.textSize exe + 1589 := by
  have hticks : (Json.int 700).size = 3 := by decide
  rw [projected_sessionProcess hexe, size_node, size_str, size_str, textSize_faces, hticks]
  omega

end SessionProcess

def isShortPath (path : String) : Bool :=
  path ≠ "" && !path.toList.contains '\x00' && path.toList.length ≤ 512 &&
    byteLength path.toList ≤ 512

theorem text_of_isShortPath {path : String} (hshort : isShortPath path = true) :
    SessionProcess.text path = some (.str path) ∧
      (EvidenceValue.ofJson (.str path)).child (some 512) = some (.str path) := by
  simp only [isShortPath, Bool.and_eq_true, decide_eq_true_iff, Bool.not_eq_true',
    List.contains_eq_mem, decide_eq_false_iff_not] at hshort
  obtain ⟨⟨⟨hempty, hnul⟩, hlength⟩, hbytes⟩ := hshort
  exact ⟨text_of_short hempty hlength, child_text hempty hnul hbytes⟩

theorem text_broker : SessionProcess.text (faces 61) = some (.str (faces 61)) :=
  text_faces (by decide) (by decide)

theorem shortPaths : ∀ path ∈ ["/sbin/iptables", "/usr/bin/sudo", "/usr/bin/python3"],
    isShortPath path = true := by
  decide

theorem within_sessionProcesses : ∀ node ∈ sessionProcesses, node.Within := by
  have hbroker : byteLength (faces 61).toList ≤ 512 := by
    rw [byteLength_faces]
    decide
  have hshort := fun path hmem => text_of_isShortPath (shortPaths path hmem)
  simp only [sessionProcesses, List.forall_mem_cons]
  refine ⟨?_, ?_, ?_, ?_, fun _ hmem => nomatch hmem⟩
  · exact within_sessionProcess (hshort _ (by decide)).1 (hshort _ (by decide)).2 (by decide) (by decide)
  · exact within_sessionProcess text_broker
      (child_text (faces_ne_empty (by decide)) (nulFree_faces 61) hbroker) (by decide) (by decide)
  · exact within_sessionProcess (hshort _ (by decide)).1 (hshort _ (by decide)).2 (by decide) (by decide)
  · exact within_sessionProcess (hshort _ (by decide)).1 (hshort _ (by decide)).2 (by decide) (by decide)

theorem size_four (first second third fourth : Json) :
    (Json.arr [first, second, third, fourth]).size =
      first.size + second.size + third.size + fourth.size + 5 := by
  simp only [Json.size, Json.itemsSize, Json.commas, List.length_cons, List.length_nil]
  omega

theorem size_sessionProcesses : (projectAncestors sessionProcesses).size = 7159 := by
  have hsizes : (Json.int 40).size = 2 ∧ (Json.int 30).size = 2 ∧ (Json.int 20).size = 2 ∧
      (Json.int 10).size = 2 ∧ (Json.int 1).size = 1 ∧ Json.textSize "/sbin/iptables" = 16 ∧
      Json.textSize "/usr/bin/sudo" = 15 ∧ Json.textSize "/usr/bin/python3" = 18 := by
    decide
  obtain ⟨hforty, hthirty, htwenty, hten, hone, htables, hsudo, hpython⟩ := hsizes
  have htext := fun path hmem => (text_of_isShortPath (shortPaths path hmem)).1
  rw [projectAncestors, sessionProcesses, List.take_of_length_le (by decide)]
  simp only [List.map_cons, List.map_nil]
  rw [size_four, size_sessionProcess (htext _ (by decide)), size_sessionProcess text_broker,
    size_sessionProcess (htext _ (by decide)), size_sessionProcess (htext _ (by decide)),
    textSize_faces, hforty, hthirty, htwenty, hten, hone, htables, hsudo, hpython]

/-! ### A lineage that leaves no room -/

def sessionTools : ProofTools := { cutCommandTools with canonicalNodes := fun _ => "" }

def startReceipt : Receipt where
  operationId := "0123456789abcdef0123456789abcdef"
  executionId := "execution-1"
  jobId := "job-1"
  function := "mojo.apps.incident.asyncjobs.broadcast_block_ip"
  operation := "rule.insert"
  semantic := "rule.insert"
  argvDigest := ""
  stdinDigest := ""
  stdinLength := 0
  count := 0
  brokerPid := 30
  brokerStartTicks := 700
  targetExe := "/sbin/iptables"
  bootId := "0f1e2d3c4b5a69788796a5b4c3d2e1f0"
  auditSession := 9
  kind := .start
  monotonicNs := 5000000000
  operationId_valid := by decide

def resultReceipt : Receipt :=
  { startReceipt with
    kind := .result
    targetPid := some 40
    targetStartTicks := some 700
    ok := some true
    children := [⟨40, 700, "/sbin/iptables", "", true⟩] }

def sessionTables : ProofTables where
  receipts := [(0, resultReceipt), (0, startReceipt)]
  nodes _ := sessionProcesses
  origin _ := some
    { originKind := .cronJobman, anchorPid := some 10, anchorGeneration := "700", observedAt := 0,
      updatedAt := 0, ambiguous := false, claims := [], wasAmbiguous := false }
  healthy _ := some true

def heldAttributes : JsonFields :=
  [("boot_id", .str "0f1e2d3c4b5a69788796a5b4c3d2e1f0"), ("audit_session", .int 9),
    ("attribution_provenance", .str "none"), ("producer_pid", .int 20),
    ("monotonic", .int 5000000), ("command", .str brokerPath)]

def heldCommand : Observation where
  kind := sudoCommandKind
  fingerprint := "6f1ed002ab5595859014ebf0951522d9b7c1c9a1c2e3f5d5c9f5e4d6d2a6c9f0"
  observedAt := "2026-08-11T02:44:00Z"
  severity := .high
  summary := "Privileged sudo command executed"
  attributes := heldAttributes
  recommendation := "review"
  aggregate := false

def provenAttributes : JsonFields :=
  withProof heldAttributes (sessionTools.proof startReceipt sessionProcesses)

theorem verdict_heldCommand : sessionTools.verdict sessionTables 0 heldCommand =
    .proven (sessionTools.proof startReceipt sessionProcesses) := by
  rfl

/-- A text or a number that the second pass keeps whole, if it fits. -/
def keptWhole (limit : Option Nat) : Json → Bool
  | .str text => !text.toList.contains '\x00' && limit.any fun bytes => byteLength text.toList ≤ bytes
  | .int _ => limit.isNone
  | _ => false

theorem projected_of_keptWhole {key : String} {limit : Option Nat} {json : Json}
    (hkept : keptWhole limit json = true) : Projected key limit json := by
  cases json with
  | str text =>
    cases limit with
    | none =>
      rw [keptWhole, Option.any_none, Bool.and_false] at hkept
      cases hkept
    | some bytes =>
      simp only [keptWhole, Option.any_some, Bool.and_eq_true, Bool.not_eq_true',
        List.contains_eq_mem, decide_eq_false_iff_not, decide_eq_true_iff] at hkept
      exact .text rfl hkept.1 hkept.2
  | int number =>
    cases limit with
    | none =>
      have hscalar : (EvidenceValue.int number).scalar = some (.int number) := rfl
      have hlist : (EvidenceValue.int number).listValue key = none := rfl
      exact .scalar rfl hlist (by intro heq; cases heq) hscalar
    | some bytes => cases hkept
  | _ => cases hkept

/-- What is kept whole field by field is kept as a whole, when there is room. -/
theorem project_of_keptWhole {tools : EvidenceTools} {full : JsonFields}
    {policies : List FieldPolicy} (hnodup : (policies.map Prod.fst).Nodup)
    (hkept : ∀ policy ∈ policies, (full.field policy.1).all (keptWhole policy.2) = true)
    (hroom : (policies.map fun policy => full.weightAt policy.1).sum < evidenceBytes) :
    tools.project (evidenceValues full) policies = EvidenceTools.keptAgain full policies := by
  refine EvidenceTools.projectOnto_again JsonFields.distinct_nil hnodup (fun _ _ => rfl) ?_ ?_
  · intro policy hmem json hfield
    have hjson := hkept policy hmem
    rw [hfield] at hjson
    exact projected_of_keptWhole hjson
  · rw [JsonFields.weight_nil, Nat.zero_add]
    exact hroom

theorem project_beforeLineage :
    sessionTools.project (evidenceValues provenAttributes) (policiesBefore "lineage") =
      EvidenceTools.keptAgain provenAttributes (policiesBefore "lineage") :=
  project_of_keptWhole (by decide) (by decide +kernel) (by decide +kernel)

/-- A list that fits, and leaves less than a text takes: the text does not fit. -/
theorem not_fits_after_list {tools : EvidenceTools} {values : EvidenceValues}
    {before : JsonFields} {key other text : String} {value : EvidenceValue} {json : Json}
    (hdistinct : before.Distinct) (habsent : before.field key = none)
    (hother : before.field other = none) (hne : other ≠ key)
    (hgiven : values.given key = some value) (hlist : value.listValue key = some json)
    (hfits : before.weight + JsonFields.fieldWeight key json < evidenceBytes)
    (hfull : evidenceBytes ≤ before.weight + JsonFields.fieldWeight key json +
      JsonFields.fieldWeight other (.str text)) :
    fits ((tools.addField values before (key, none)).set other (.str text)) = false := by
  have hfirst := JsonFields.weight_set hdistinct key json
  have hlast := JsonFields.weight_set (hdistinct.set key json) other (.str text)
  have hnone : before.weightAt key = 0 := by
    rw [JsonFields.weightAt, habsent]
    rfl
  have hnoneOther : (before.set key json).weightAt other = 0 := by
    rw [JsonFields.weightAt_set_ne hne, JsonFields.weightAt, hother]
    rfl
  have hroom : fits (before.set key json) = true := by
    rw [fits_iff]
    omega
  have hturn : tools.addField values before (key, none) = before.set key json := by
    simp only [EvidenceTools.addField, hgiven, hlist]
    exact EvidenceTools.addWhole_of_fits hroom
  rw [hturn, Bool.eq_false_iff, ne_eq, fits_iff]
  omega

/-- The lineage of the proven command fits, and leaves less than the disposition takes. -/
theorem not_fitsAtTurn_disposition : ¬ FitsAtTurn sessionTools.toEvidenceTools
    (evidenceValues provenAttributes) "local_disposition" jobmanFirewallClassifier := by
  have hsplit : policiesBefore "local_disposition" =
      policiesBefore "lineage" ++ [("lineage", none)] := rfl
  have hdistinct := (EvidenceTools.project_bounded sessionTools.toEvidenceTools
    (evidenceValues provenAttributes) (policiesBefore "lineage")).1
  have hvalue : evidenceValues provenAttributes "lineage" =
      some (.ofJson (projectAncestors sessionProcesses)) := rfl
  have hgiven := EvidenceTools.given_eq_some hvalue (fun heq => nomatch heq) (fun heq => nomatch heq)
  have hweight : (EvidenceTools.keptAgain provenAttributes (policiesBefore "lineage")).weight =
      479 := by decide +kernel
  have hlineage : JsonFields.fieldWeight "lineage" (projectAncestors sessionProcesses) = 7170 := by
    have hkey : Json.textSize "lineage" = 9 := by decide
    rw [JsonFields.fieldWeight, size_sessionProcesses, hkey]
  have hdisposition : JsonFields.fieldWeight "local_disposition"
      (.str jobmanFirewallClassifier) = 51 := by decide
  unfold FitsAtTurn
  rw [hsplit, EvidenceTools.project_append_cons, EvidenceTools.projectOnto_nil,
    Bool.not_eq_true]
  rw [project_beforeLineage] at hdistinct ⊢
  refine not_fits_after_list hdistinct ?_ ?_ (by decide) hgiven
    (listValue_projectAncestors within_sessionProcesses) ?_ ?_
  · exact EvidenceTools.field_keptAgain_of_ne (by decide)
  · exact EvidenceTools.field_keptAgain_of_ne (by decide)
  · rw [hweight, hlineage]
    decide
  · rw [hweight, hlineage, hdisposition]
    decide

theorem held_heldCommand :
    HeldCandidate sessionTools.toEvidenceTools sampleRules heldCommand := by
  have hproject : sessionTools.project (evidenceValues heldAttributes) sudoCommandPolicies =
      EvidenceTools.keptAgain heldAttributes sudoCommandPolicies :=
    project_of_keptWhole (by decide +kernel) (by decide +kernel) (by decide +kernel)
  have hbuilt : sessionTools.buildEvidence sudoCommandKind (evidenceValues heldAttributes) =
      .ok heldAttributes := by
    rw [EvidenceTools.buildEvidence_of_lookup lookup_sudoCommandKind, hproject]
    rfl
  exact ⟨by decide +kernel, ⟨_, hbuilt⟩, by decide +kernel, by decide +kernel, rfl, rfl, rfl, rfl⟩

/-- A held command that is proven is recognised, and its record does not abort the transaction,
exactly when its operation and its disposition fit at their turns. -/
theorem recognised_iff_proofFits (tools : ProofTools) (rules : Rules) (tables : ProofTables)
    (now : Time) {observation : Observation} {proof : JsonFields}
    (hheld : HeldCandidate tools.toEvidenceTools rules observation)
    (hproven : tools.verdict tables now observation = .proven proof) :
    (Recognised tools rules observation proof ↔
        ProofFits tools.toEvidenceTools observation.attributes proof) ∧
      ∀ config store id row, store.pendingFirewall.get id = some row → row.payload = observation →
        store.diagnosticActive = false →
        (((tools.rules rules).resolveOne config (some true) (tools.verdict tables now) now store
            id).isSome ↔
          ProofFits tools.toEvidenceTools observation.attributes proof) := by
  obtain ⟨start, ancestors, rfl⟩ := isProof_of_verdict hproven
  refine ⟨recognised_iff_fits hheld, ?_⟩
  rintro config store id row hrow rfl hquiet
  have hnormalized : ((tools.rules rules).instant
      ((tools.rules rules).normalized row.payload.observedAt)).isSome = true := hheld.normalized
  have hrecord := recordLocalOnly_isSome (tools.rules rules) config now
    { row.payload with
      attributes := rebuilt tools row.payload.attributes (tools.proof start ancestors) }
    hnormalized hquiet
  rw [resolveOne_proven hrow hheld hproven, Option.isSome_map, hrecord, classifier_rebuilt hheld]
  split
  next hfits => exact iff_of_true rfl hfits
  next hnot => exact iff_of_false (fun hsome => nomatch hsome) hnot

theorem recognised_heldCommand :
    (Recognised sessionTools sampleRules heldCommand
          (sessionTools.proof startReceipt sessionProcesses) ↔
        ProofFits sessionTools.toEvidenceTools heldCommand.attributes
          (sessionTools.proof startReceipt sessionProcesses)) ∧
      ∀ config store id row, store.pendingFirewall.get id = some row →
        row.payload = heldCommand → store.diagnosticActive = false →
        (((sessionTools.rules sampleRules).resolveOne config (some true)
            (sessionTools.verdict sessionTables 0) 0 store id).isSome ↔
          ProofFits sessionTools.toEvidenceTools heldCommand.attributes
            (sessionTools.proof startReceipt sessionProcesses)) :=
  recognised_iff_proofFits sessionTools sampleRules sessionTables 0 held_heldCommand
    verdict_heldCommand

/-- A proven operation whose lineage just fits is not recognised. -/
theorem not_recognised_heldCommand :
    ¬ ∀ (tables : ProofTables) (now : Time) (observation : Observation) (proof : JsonFields),
      HeldCandidate sessionTools.toEvidenceTools sampleRules observation →
      sessionTools.verdict tables now observation = .proven proof →
      Recognised sessionTools sampleRules observation proof := by
  intro hall
  have hrecognised := hall sessionTables 0 heldCommand _ held_heldCommand verdict_heldCommand
  have hfits := (recognised_iff_fits held_heldCommand).mp hrecognised
  exact not_fitsAtTurn_disposition hfits.2

end DjangoMojo.Sensor
