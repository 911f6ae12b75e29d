import DjangoMojo.Sensor.FirewallProof
import DjangoMojo.Sensor.Idempotence

/-! # The room for a proof

The fields of a proof come last in the evidence of a sudo command. A command that is held is
recognised, once it is proven, exactly when there is room for its operation and for its
disposition at their turns: the fields before them may have taken it all.
-/

namespace DjangoMojo.Sensor

open Foundation

def brokerPath : String := "/usr/local/sbin/mojo-firewall-broker"

def withProof (attributes proof : JsonFields) : JsonFields :=
  proof.foldl (fun fields entry => fields.set entry.1 entry.2) attributes

/-- An observation as `ingest` holds it: a sudo command as the detector makes it, with the
evidence that was built for it, that runs the broker. -/
structure HeldCandidate (tools : EvidenceTools) (rules : Rules) (observation : Observation) :
    Prop where
  broker : brokerCandidate observation = true
  built : ∃ values, tools.buildEvidence sudoCommandKind values = .ok observation.attributes
  fingerprint : isDigest observation.fingerprint = true
  observedAt : rules.toLibrary.isTimestamp observation.observedAt = true
  normalized : (rules.instant (rules.normalized observation.observedAt)).isSome = true
  severity : observation.severity = .high
  recommendation : observation.recommendation = "review"
  aggregate : observation.aggregate = false

/-- The fields of a sudo command that have their turns before this one. -/
def policiesBefore (key : String) : List FieldPolicy :=
  sudoCommandPolicies.takeWhile fun policy => policy.1 ≠ key

def FitsAtTurn (tools : EvidenceTools) (values : EvidenceValues) (key text : String) : Prop :=
  fits ((tools.project values (policiesBefore key)).set key (.str text)) = true

instance (tools : EvidenceTools) (values : EvidenceValues) (key text : String) :
    Decidable (FitsAtTurn tools values key text) :=
  inferInstanceAs (Decidable (_ = true))

/-- There is room for the operation and for the disposition of a proof. -/
def ProofFits (tools : EvidenceTools) (attributes proof : JsonFields) : Prop :=
  FitsAtTurn tools (evidenceValues (withProof attributes proof)) "operation_id"
      (textOf proof "operation_id") ∧
    FitsAtTurn tools (evidenceValues (withProof attributes proof)) "local_disposition"
      jobmanFirewallClassifier

instance (tools : EvidenceTools) (attributes proof : JsonFields) :
    Decidable (ProofFits tools attributes proof) :=
  inferInstanceAs (Decidable (_ ∧ _))

/-- The evidence that is built again carries what the classifier reads, and the classifier
recognises it. -/
def Recognised (tools : ProofTools) (rules : Rules) (observation : Observation)
    (proof : JsonFields) : Prop :=
  ∃ attributes,
    tools.buildEvidence observation.kind (evidenceValues (withProof observation.attributes proof)) =
        .ok attributes ∧
      attributes.field "local_disposition" = some (.str jobmanFirewallClassifier) ∧
      attributes.field "operation_id" = proof.field "operation_id" ∧
      attributes.field "command" = some (.str brokerPath) ∧
      attributes.field "attribution_provenance" = some (.str "none") ∧
      (tools.rules rules).classifier { observation with attributes := attributes } =
        some .jobmanFirewallOperation

/-! ### Proofs -/

section Proofs

variable {tools : ProofTools} {origin : OriginRow} {nodes : List SessionProcess}
  {attributes proof : JsonFields}

def ProofTools.IsProof (tools : ProofTools) (proof : JsonFields) : Prop :=
  ∃ (start : Receipt) (ancestors : List SessionProcess), proof = tools.proof start ancestors

theorem isProof_of_proveAncestors {start result : Receipt} {targets : List SessionProcess}
    {broker : SessionProcess}
    (hproven : tools.proveAncestors origin nodes attributes start result targets broker =
      .proven proof) : tools.IsProof proof := by
  unfold ProofTools.proveAncestors at hproven
  split at hproven
  · cases hproven
  · simp only at hproven
    split at hproven
    · split at hproven
      · cases hproven
      · split at hproven
        · cases hproven
          exact ⟨start, _, rfl⟩
        · cases hproven
    · cases hproven

theorem isProof_of_attempt {start result : Option Receipt}
    (hproven : tools.attempt origin nodes attributes start result = .proven proof) :
    tools.IsProof proof := by
  unfold ProofTools.attempt at hproven
  split at hproven
  · split at hproven
    · cases hproven
    · split at hproven
      · cases hproven
      · simp only at hproven
        split at hproven
        · exact isProof_of_proveAncestors hproven
        · cases hproven
        · cases hproven
  · cases hproven

theorem isProof_of_search {receipts : List Receipt} {conflicted : Bool}
    {operations : List String}
    (hproven : tools.search origin nodes attributes receipts conflicted operations =
      .proven proof) : tools.IsProof proof := by
  induction operations generalizing conflicted with
  | nil =>
    unfold ProofTools.search at hproven
    split at hproven
    · cases hproven
    · cases hproven
  | cons operationId rest ih =>
    unfold ProofTools.search at hproven
    split at hproven
    · exact ih hproven
    next found hfound =>
      cases hproven
      exact isProof_of_attempt hfound

theorem isProof_of_verdict {tables : ProofTables} {now : Time} {observation : Observation}
    (hproven : tools.verdict tables now observation = .proven proof) : tools.IsProof proof := by
  unfold ProofTools.verdict at hproven
  simp only at hproven
  split at hproven
  · cases hproven
  · split at hproven
    · cases hproven
    · split at hproven
      · cases hproven
      · split at hproven
        · cases hproven
        · exact isProof_of_search hproven

theorem field_withProof_of_not_mem {key : String} (hkey : key ∉ proof.map Prod.fst) :
    (withProof attributes proof).field key = attributes.field key := by
  induction proof generalizing attributes with
  | nil => rfl
  | cons entry rest ih =>
    rw [List.map_cons, List.mem_cons, not_or] at hkey
    change (withProof (attributes.set entry.1 entry.2) rest).field key = _
    rw [ih hkey.2, JsonFields.field_set_ne hkey.1]

end Proofs

/-! ### One field of the evidence -/

namespace EvidenceTools

variable {tools : EvidenceTools} {values others : EvidenceValues} {evidence built : JsonFields}
  {policies : List FieldPolicy}

theorem projectOnto_congr
    (hsame : ∀ policy ∈ policies, values policy.1 = others policy.1) :
    tools.projectOnto values evidence policies = tools.projectOnto others evidence policies := by
  induction policies generalizing evidence with
  | nil => rfl
  | cons policy rest ih =>
    obtain ⟨hfirst, hrest⟩ := List.forall_mem_cons.mp hsame
    have hgiven : values.given policy.1 = others.given policy.1 := by
      rw [EvidenceValues.given, EvidenceValues.given, hfirst]
    have hturn : tools.addField values evidence policy = tools.addField others evidence policy := by
      rw [addField, addField, hgiven]
    rw [projectOnto_cons, projectOnto_cons, hturn]
    exact ih hrest

theorem project_first_again {earlier later : List FieldPolicy}
    (hpolicies : fieldPolicies.lookup sudoCommandKind = some (earlier ++ later))
    (hsame : ∀ policy ∈ earlier, others policy.1 =
      evidenceValues (tools.project values (earlier ++ later)) policy.1) :
    tools.project others earlier = keptAgain (tools.project values (earlier ++ later)) earlier := by
  obtain ⟨horderly, hdigests, hnodup⟩ := regular_of_lookup hpolicies
  have hfits := fits_iff.mp (project_bounded tools values (earlier ++ later)).2.1
  have hfirst : (earlier.map Prod.fst).Nodup := by
    rw [List.map_append] at hnodup
    exact hnodup.of_append_left
  have hsum := JsonFields.sum_weightAt_le hfirst (tools.project values (earlier ++ later))
  rw [List.map_map] at hsum
  refine (projectOnto_congr hsame).trans ?_
  refine projectOnto_again JsonFields.distinct_nil hfirst (fun _ _ => rfl) ?_ ?_
  · intro policy hmem json hfield
    exact projected_project horderly hdigests (List.mem_append_left later hmem) hfield
  · rw [JsonFields.weight_nil, Nat.zero_add]
    exact hsum.trans_lt hfits

section Turn

variable {key text : String} {bytes : Nat} {after : JsonFields}

/-- What a turn leaves under its key: the whole text if that fits, else no more than a part. -/
theorem TextTurn.field_self (hturn : TextTurn tools evidence key text.toList bytes after)
    (habsent : evidence.field key = none) (hbytes : byteLength text.toList ≤ bytes) :
    (fits (evidence.set key (.str text)) = true → after.field key = some (.str text)) ∧
      (fits (evidence.set key (.str text)) = false →
        ∀ kept, after.field key = some (.str kept) → kept.toList.length < text.toList.length) := by
  have hwhole : tools.withPrefix evidence key text.toList text.toList =
      evidence.set key (.str text) := by rw [withPrefix_self, String.ofList_toList]
  refine ⟨fun hfits => ?_, fun hnot kept hfield => ?_⟩
  · rw [← hwhole] at hfits
    rw [hturn.eq_whole hbytes hfits, hwhole, JsonFields.field_set_self]
  · cases hturn with
    | whole _ hfits =>
      rw [hwhole, hnot] at hfits
      cases hfits
    | cut hstarts hproper =>
      rw [withPrefix_of_ne hproper, field_marked, if_neg (digestKey_ne key).symm,
        if_neg (truncatedKey_ne key).symm, JsonFields.field_set_self] at hfield
      cases hfield
      rw [String.toList_ofList]
      refine Nat.lt_of_le_of_ne hstarts.length_le fun hlength => hproper ?_
      exact hstarts.eq_of_length hlength
    | marksOnly =>
      rw [field_marked, if_neg (digestKey_ne key).symm, if_neg (truncatedKey_ne key).symm,
        habsent] at hfield
      cases hfield
    | dropped =>
      rw [habsent] at hfield
      cases hfield

theorem field_project_text (tools : EvidenceTools) {earlier later : List FieldPolicy}
    (horderly : Orderly (earlier ++ (key, some bytes) :: later))
    (hlater : ∀ policy ∈ later, ¬ Touches policy.1 key)
    (hvalue : values key = some (.text (.ofString text))) (hempty : text ≠ "")
    (hnul : NulFree text) (hbytes : byteLength text.toList ≤ bytes) :
    let built := tools.project values (earlier ++ (key, some bytes) :: later)
    let before := tools.project values earlier
    (fits (before.set key (.str text)) = true → built.field key = some (.str text)) ∧
      (fits (before.set key (.str text)) = false →
        ∀ kept, built.field key = some (.str kept) → kept.toList.length < text.toList.length) := by
  have hgiven : values.given key = some (.text (.ofString text)) := by
    refine given_eq_some hvalue (fun heq => nomatch heq) fun heq => hempty ?_
    exact ofString_eq_nil.mp (EvidenceValue.text.inj heq)
  have hdistinct := (project_bounded tools values earlier).1
  have hsafe : tools.safeText (.text (.ofString text)) = text := safeText_ofString hnul
  have hturn := tools.textTurn_addText key (tools.safeText (.text (.ofString text))).toList bytes
    hdistinct
  simp only
  rw [project_append_cons, addField_text tools _ hgiven rfl,
    field_projectOnto (hturn.keeps.distinct hdistinct) hlater]
  rw [hsafe] at hturn ⊢
  exact hturn.field_self (field_before_eq_none tools values horderly.1).1 hbytes

end Turn

end EvidenceTools

/-! ### The evidence of a proven command -/

def commandPolicies : List FieldPolicy := sudoIdentityPolicies ++ [("command", some 2048)]

theorem sudoCommandPolicies_eq : sudoCommandPolicies = commandPolicies ++ sudoProofPolicies := rfl

theorem operation_turn : sudoCommandPolicies =
    policiesBefore "operation_id" ++ ("operation_id", some 64) :: sudoProofPolicies.drop 2 := rfl

theorem disposition_turn : sudoCommandPolicies =
    policiesBefore "local_disposition" ++ [("local_disposition", some 64)] := rfl

theorem lookup_sudoCommandKind :
    fieldPolicies.lookup sudoCommandKind = some sudoCommandPolicies := rfl

theorem truthy_of_again {json kept : Json} (hkept : again json = some kept)
    (htruthy : kept.truthy = true) : json.truthy = true := by
  cases json with
  | arr items =>
    cases hkept
    cases items with
    | nil => exact htruthy
    | cons => rfl
  | _ =>
    simp only [again, Option.ite_none_right_eq_some, Option.some.injEq] at hkept
    rw [hkept.2]
    exact htruthy

theorem isOperationId_text {text : String} (hvalid : isOperationId text = true) :
    text.toList.length = 32 ∧ NulFree text ∧ byteLength text.toList ≤ 64 := by
  unfold isOperationId at hvalid
  obtain ⟨hlength, hchars⟩ := Bool.and_eq_true_iff.mp hvalid
  obtain ⟨hnul, hbytes⟩ := nulFree_of_hexDigits hchars
  refine ⟨of_decide_eq_true hlength, hnul, ?_⟩
  rw [hbytes, of_decide_eq_true hlength]
  decide

section Rebuilt

variable {tools : ProofTools} {start : Receipt} {ancestors : List SessionProcess}
  {given : EvidenceValues} {attributes : JsonFields}

theorem field_rebuilt
    (hbuilt : attributes = tools.project given sudoCommandPolicies)
    {policy : FieldPolicy} (hmem : policy ∈ commandPolicies)
    (huntouched : ∀ other ∈ sudoProofPolicies, ¬ Touches other.1 policy.1) :
    (tools.project (evidenceValues (withProof attributes (tools.proof start ancestors)))
      sudoCommandPolicies).field policy.1 = (attributes.field policy.1).bind again := by
  have hdisjoint : ∀ policy ∈ commandPolicies,
      policy.1 ∉ (tools.proof start ancestors).map Prod.fst := by
    have hkeys : (tools.proof start ancestors).map Prod.fst = ["local_disposition",
      "operation_id", "execution_id", "job_id", "job_function", "origin_kind", "proof_status",
      "lineage", "lineage_sha256"] := rfl
    rw [hkeys]
    decide +kernel
  have hsame : ∀ policy ∈ commandPolicies,
      evidenceValues (withProof attributes (tools.proof start ancestors)) policy.1 =
        evidenceValues (tools.project given (commandPolicies ++ sudoProofPolicies)) policy.1 := by
    intro policy hmem
    rw [evidenceValues, field_withProof_of_not_mem (hdisjoint policy hmem), hbuilt]
    rfl
  have hlookup : fieldPolicies.lookup sudoCommandKind =
      some (commandPolicies ++ sudoProofPolicies) := rfl
  have hfirst := EvidenceTools.project_first_again hlookup hsame
  have hnodup : (commandPolicies.map Prod.fst).Nodup := by decide +kernel
  rw [sudoCommandPolicies_eq, EvidenceTools.project, List.foldl_append]
  have hdistinct := (EvidenceTools.project_bounded tools.toEvidenceTools
    (evidenceValues (withProof attributes (tools.proof start ancestors))) commandPolicies).1
  refine (EvidenceTools.field_projectOnto hdistinct huntouched).trans ?_
  rw [hfirst, EvidenceTools.field_keptAgain hnodup hmem, hbuilt]
  rfl

/-- The evidence of the command, built again with the proof. -/
def rebuilt (tools : ProofTools) (attributes proof : JsonFields) : JsonFields :=
  tools.project (evidenceValues (withProof attributes proof)) sudoCommandPolicies

theorem value_operation (tools : ProofTools) (start : Receipt) (ancestors : List SessionProcess)
    (attributes : JsonFields) : evidenceValues (withProof attributes (tools.proof start ancestors))
    "operation_id" = some (.text (.ofString start.operationId)) := by
  simp [evidenceValues, withProof, ProofTools.proof, JsonFields.field_set, EvidenceValue.ofJson]

theorem value_disposition (tools : ProofTools) (start : Receipt)
    (ancestors : List SessionProcess) (attributes : JsonFields) : evidenceValues (withProof attributes (tools.proof start ancestors))
    "local_disposition" = some (.text (.ofString jobmanFirewallClassifier)) := by
  simp [evidenceValues, withProof, ProofTools.proof, JsonFields.field_set, EvidenceValue.ofJson]

theorem orderly_sudoCommandPolicies : Orderly sudoCommandPolicies :=
  (EvidenceTools.regular_of_lookup lookup_sudoCommandKind).1

theorem field_operation (tools : ProofTools) (start : Receipt) (ancestors : List SessionProcess)
    (attributes : JsonFields) :
    let proof := tools.proof start ancestors
    let fitting := FitsAtTurn tools.toEvidenceTools (evidenceValues (withProof attributes proof))
      "operation_id" start.operationId
    (fitting → (rebuilt tools attributes proof).field "operation_id" =
        some (.str start.operationId)) ∧
      (¬ fitting → isOperationId (textOf (rebuilt tools attributes proof) "operation_id") = false) := by
  obtain ⟨hlength, hnul, hbytes⟩ := isOperationId_text start.operationId_valid
  have hempty : start.operationId ≠ "" := by
    intro hnil
    rw [hnil] at hlength
    cases hlength
  have horderly := orderly_sudoCommandPolicies
  rw [operation_turn] at horderly
  obtain ⟨hwhole, hpart⟩ := EvidenceTools.field_project_text tools.toEvidenceTools
    horderly (by decide +kernel) (value_operation tools start ancestors attributes)
    hempty hnul hbytes
  rw [← operation_turn] at hwhole hpart
  refine ⟨hwhole, fun hnot => ?_⟩
  have hshort := hpart (Bool.eq_false_iff.mpr hnot)
  unfold textOf rebuilt
  split
  next kept hkept =>
    have hless := hshort kept hkept
    refine Bool.eq_false_iff.mpr fun hvalid => ?_
    rw [(isOperationId_text hvalid).1] at hless
    omega
  · rfl

theorem field_disposition (tools : ProofTools) (start : Receipt)
    (ancestors : List SessionProcess) (attributes : JsonFields) :
    let proof := tools.proof start ancestors
    let fitting := FitsAtTurn tools.toEvidenceTools (evidenceValues (withProof attributes proof))
      "local_disposition" jobmanFirewallClassifier
    (fitting → (rebuilt tools attributes proof).field "local_disposition" =
        some (.str jobmanFirewallClassifier)) ∧
      (¬ fitting → ((rebuilt tools attributes proof).field "local_disposition").any
        (Json.isText jobmanFirewallClassifier) = false) := by
  have horderly := orderly_sudoCommandPolicies
  rw [disposition_turn] at horderly
  have hnul : NulFree jobmanFirewallClassifier := by unfold NulFree; decide
  obtain ⟨hwhole, hpart⟩ := EvidenceTools.field_project_text tools.toEvidenceTools
    horderly (by decide) (value_disposition tools start ancestors attributes) (by decide) hnul
    (by decide)
  rw [← disposition_turn] at hwhole hpart
  refine ⟨hwhole, fun hnot => ?_⟩
  have hshort := hpart (Bool.eq_false_iff.mpr hnot)
  cases hfield : (rebuilt tools attributes (tools.proof start ancestors)).field
      "local_disposition" with
  | none => rfl
  | some json =>
    cases json with
    | str kept =>
      have hless := hshort kept hfield
      refine decide_eq_false fun heq => ?_
      rw [heq] at hless
      exact Nat.lt_irrefl _ hless
    | _ => rfl

variable {rules : Rules} {observation : Observation}

theorem proofFits_proof : ProofFits tools.toEvidenceTools attributes (tools.proof start ancestors) ↔
    FitsAtTurn tools.toEvidenceTools
        (evidenceValues (withProof attributes (tools.proof start ancestors))) "operation_id"
        start.operationId ∧
      FitsAtTurn tools.toEvidenceTools
        (evidenceValues (withProof attributes (tools.proof start ancestors))) "local_disposition"
        jobmanFirewallClassifier := Iff.rfl

theorem isSet_rebuilt (hbuilt : attributes = tools.project given sudoCommandPolicies)
    (policy : FieldPolicy) (hmem : policy ∈ commandPolicies)
    (huntouched : ∀ other ∈ sudoProofPolicies, ¬ Touches other.1 policy.1)
    (hset : attributes.isSet policy.1 = false) :
    (rebuilt tools attributes (tools.proof start ancestors)).isSet policy.1 = false := by
  rw [JsonFields.isSet, rebuilt, field_rebuilt hbuilt hmem huntouched]
  cases hfield : attributes.field policy.1 with
  | none => rfl
  | some json =>
    cases hkept : again json with
    | none => rw [Option.bind_some, hkept]; rfl
    | some kept =>
      rw [Option.bind_some, hkept]
      refine Bool.eq_false_iff.mpr fun htruthy => ?_
      rw [JsonFields.isSet, hfield] at hset
      have hjson := truthy_of_again hkept htruthy
      change json.truthy = false at hset
      rw [hjson] at hset
      cases hset

theorem text_rebuilt (hbuilt : attributes = tools.project given sudoCommandPolicies)
    (policy : FieldPolicy) (hmem : policy ∈ commandPolicies)
    (huntouched : ∀ other ∈ sudoProofPolicies, ¬ Touches other.1 policy.1) {text : String}
    (hempty : text ≠ "")
    (hfield : (attributes.field policy.1).any (Json.isText text) = true) :
    (rebuilt tools attributes (tools.proof start ancestors)).field policy.1 =
      some (.str text) := by
  have htext : attributes.field policy.1 = some (.str text) := by
    cases hvalue : attributes.field policy.1 with
    | none =>
      rw [hvalue] at hfield
      cases hfield
    | some json =>
      rw [hvalue] at hfield
      cases json with
      | str value =>
        have heq : value = text := of_decide_eq_true hfield
        rw [heq]
      | _ => cases hfield
  rw [rebuilt, field_rebuilt hbuilt hmem huntouched, htext, Option.bind_some]
  exact again_eq_some_iff.mpr (decide_eq_true hempty)

/-- The fields that the classifier reads beside the proof are as they were. -/
structure KeptFields (rebuilt : JsonFields) : Prop where
  command : rebuilt.field "command" = some (.str brokerPath)
  provenance : rebuilt.field "attribution_provenance" = some (.str "none")
  sourceIp : rebuilt.isSet "source_ip" = false
  tty : rebuilt.isSet "tty" = false

theorem keptFields_rebuilt (hheld : HeldCandidate tools.toEvidenceTools rules observation)
    (start : Receipt) (ancestors : List SessionProcess) :
    KeptFields (rebuilt tools observation.attributes (tools.proof start ancestors)) := by
  obtain ⟨given, hgiven⟩ := hheld.built
  rw [EvidenceTools.buildEvidence_of_lookup lookup_sudoCommandKind] at hgiven
  have hbuilt : observation.attributes = tools.project given sudoCommandPolicies :=
    (Except.ok.inj hgiven).symm
  have hbroker := hheld.broker
  unfold brokerCandidate at hbroker
  simp only [Bool.and_eq_true, Bool.not_eq_true'] at hbroker
  obtain ⟨⟨⟨⟨⟨⟨⟨⟨_, hcommand⟩, hprovenance⟩, hsource⟩, htty⟩, _⟩, _⟩, _⟩, _⟩ := hbroker
  have huntouched : ∀ key ∈ ["command", "attribution_provenance", "source_ip", "tty"],
      ∀ other ∈ sudoProofPolicies, ¬ Touches other.1 key := by decide +kernel
  constructor
  · exact text_rebuilt hbuilt ("command", some 2048) (by decide)
      (huntouched _ (by decide)) (by decide) hcommand
  · exact text_rebuilt hbuilt ("attribution_provenance", some 32) (by decide)
      (huntouched _ (by decide)) (by decide) hprovenance
  · exact isSet_rebuilt hbuilt ("source_ip", some 64) (by decide)
      (huntouched _ (by decide)) hsource
  · exact isSet_rebuilt hbuilt ("tty", some 96) (by decide)
      (huntouched _ (by decide)) htty

theorem kind_of_held (hheld : HeldCandidate tools.toEvidenceTools rules observation) :
    observation.kind = sudoCommandKind := by
  have hbroker := hheld.broker
  unfold brokerCandidate at hbroker
  simp only [Bool.and_eq_true] at hbroker
  obtain ⟨⟨⟨⟨⟨⟨⟨⟨hkind, _⟩, _⟩, _⟩, _⟩, _⟩, _⟩, _⟩, _⟩ := hbroker
  exact of_decide_eq_true hkind

/-- Of what is built again for a held command, the classifier still has to look at the
disposition and at the operation. -/
theorem classifier_of_keptFields (hheld : HeldCandidate tools.toEvidenceTools rules observation)
    {built : JsonFields} (hkept : KeptFields built) :
    (tools.rules rules).classifier { observation with attributes := built } =
      if (built.field "local_disposition").any (Json.isText jobmanFirewallClassifier) &&
          isOperationId (textOf built "operation_id") then
        some .jobmanFirewallOperation
      else none := by
  have hcommand : ("/usr/local/sbin/mojo-firewall-broker" : String) = brokerPath := rfl
  simp only [Rules.classifier, ProofTools.rules, hheld.aggregate, kind_of_held hheld,
    Library.classifySudo, hheld.fingerprint, hheld.observedAt, hheld.severity,
    hheld.recommendation, hkept.provenance, hkept.sourceIp, hkept.tty, hkept.command, hcommand,
    Option.any_some, Json.isText, decide_true, Bool.not_false, Bool.and_true, Bool.true_and,
    Bool.false_eq_true, if_false, if_true]

theorem classifier_rebuilt (hheld : HeldCandidate tools.toEvidenceTools rules observation)
    (start : Receipt) (ancestors : List SessionProcess) :
    (tools.rules rules).classifier { observation with
        attributes := rebuilt tools observation.attributes (tools.proof start ancestors) } =
      if ProofFits tools.toEvidenceTools observation.attributes (tools.proof start ancestors) then
        some .jobmanFirewallOperation
      else none := by
  rw [classifier_of_keptFields hheld (keptFields_rebuilt hheld start ancestors)]
  obtain ⟨hoperation, hnoOperation⟩ := field_operation tools start ancestors
    observation.attributes
  obtain ⟨hdisposition, hnoDisposition⟩ := field_disposition tools start ancestors
    observation.attributes
  by_cases hfits : ProofFits tools.toEvidenceTools observation.attributes
      (tools.proof start ancestors)
  · obtain ⟨hfirst, hlast⟩ := proofFits_proof.mp hfits
    rw [if_pos hfits, hdisposition hlast, textOf, hoperation hfirst]
    simp only [Option.any_some, Json.isText, decide_true, start.operationId_valid, Bool.and_self,
      if_true]
  · rw [if_neg hfits]
    rcases not_and_or.mp (mt proofFits_proof.mpr hfits) with hfirst | hlast
    · rw [hnoOperation hfirst, Bool.and_false]
      rfl
    · rw [hnoDisposition hlast, Bool.false_and]
      rfl

theorem buildEvidence_rebuilt (hheld : HeldCandidate tools.toEvidenceTools rules observation)
    (proof : JsonFields) : tools.buildEvidence observation.kind
      (evidenceValues (withProof observation.attributes proof)) =
        .ok (rebuilt tools observation.attributes proof) := by
  rw [kind_of_held hheld]
  exact EvidenceTools.buildEvidence_of_lookup lookup_sudoCommandKind _

theorem recognised_iff_fits (hheld : HeldCandidate tools.toEvidenceTools rules observation) :
    Recognised tools rules observation (tools.proof start ancestors) ↔
      ProofFits tools.toEvidenceTools observation.attributes (tools.proof start ancestors) := by
  have hkept := keptFields_rebuilt hheld start ancestors
  have hclassifier := classifier_rebuilt hheld start ancestors
  unfold Recognised
  rw [buildEvidence_rebuilt hheld]
  constructor
  · rintro ⟨attributes, hbuilt, _, _, _, _, hrecognised⟩
    cases hbuilt
    rw [hclassifier] at hrecognised
    by_contra hnot
    rw [if_neg hnot] at hrecognised
    cases hrecognised
  · intro hfits
    obtain ⟨hfirst, hlast⟩ := proofFits_proof.mp hfits
    refine ⟨_, rfl, (field_disposition _ _ _ _).1 hlast, (field_operation _ _ _ _).1 hfirst, hkept.command,
      hkept.provenance, ?_⟩
    rw [hclassifier, if_pos hfits]

end Rebuilt

end DjangoMojo.Sensor
