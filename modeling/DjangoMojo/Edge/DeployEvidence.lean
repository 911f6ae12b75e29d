import DjangoMojo.Foundation.PythonDict
import DjangoMojo.Foundation.Trace
import Mathlib.Data.List.Dedup
import Mathlib.Data.List.Nodup
import Mathlib.Data.List.Sort
import Mathlib.Data.String.Basic

/-! # Evidence of a platform deployment

A deployment freezes the roster of its nodes. Each node has its latest observation on the
row, and the failures and outcomes of nodes are told by a journal that only grows. The
deployment is converged when each node of the roster has proved that it runs it.
-/

namespace DjangoMojo.Edge.PlatformDeploy

open Foundation

/-! ### Texts -/

/-- `_text` of a text. -/
def text (limit : Nat) (value : String) : String :=
  let plain := value.toList.map fun char => if char = '\r' ∨ char = '\n' then ' ' else char
  String.ofList (plain.take limit)

structure Redaction where
  /-- `sanitize` of a text, within its bytes. -/
  sanitize : String → String
  lower : String → String

def secretWords : List String := ["secret", "token", "password", "credential", "private_key"]

/-- `_safe`, with the levels that are left. -/
def safe (redaction : Redaction) : Nat → Json → Json
  | 0, _ => .str "[truncated]"
  | _ + 1, .null => .null
  | _ + 1, .bool value => .bool value
  | _ + 1, .int value => .int value
  | _ + 1, .float value => .float value
  | _ + 1, .str value => .str (text 320 (redaction.sanitize value))
  | levels + 1, .arr items => .arr ((items.take 32).map (safe redaction levels))
  | levels + 1, .obj fields =>
    .obj ((fields.take 32).foldl (fun result entry =>
      let name := text 64 entry.1
      if secretWords.any fun word => word.toList <:+: (redaction.lower name).toList then
        JsonFields.set result name (.str "[redacted]")
      else JsonFields.set result name (safe redaction levels entry.2)) [])

/-- `_safe(value or {})`. -/
def safeObject (redaction : Redaction) (value : Json) : Json :=
  safe redaction 5 (if value.truthy then value else .obj [])

/-! ### Rows -/

/-- The frozen roster: what `edge_roster` returns, or nothing when it fails. -/
structure Roster where
  names : List String
  nodup : names.Nodup
  bounded : names.length ≤ 128
  plain : ∀ name ∈ names, text 64 name = name
  filled : ∀ name ∈ names, name ≠ ""

inductive Status where
  | requested | canary | fleet | verified | converged | partly | unknown | failed | superseded
  deriving DecidableEq, Repr

def Status.immutable : Status → Bool
  | failed => true
  | superseded => true
  | converged => true
  | _ => false

/-- An entry of `node_evidence`. -/
structure Observation where
  runner : String
  state : String
  observedAt : Int
  proof : Json
  detail : Json

/-- An entry of `diagnosis`. -/
structure Diagnosis where
  runner : String
  recordedAt : Int
  kind : String
  detail : Json
  proof : Json

structure Row where
  pk : String
  sha : String
  roster : Roster
  status : Status
  nodeEvidence : List Observation
  diagnosis : List Diagnosis
  /-- All observations that were accepted; the row itself does not keep them. -/
  accepted : List Observation

namespace Row

/-- `create`. -/
def create (pk sha : String) (roster : Roster) : Row where
  pk
  sha
  roster
  status := if roster.names = [] then .failed else .requested
  nodeEvidence := []
  diagnosis := []
  accepted := []

/-- `transition`: an attempt that is over keeps its status. -/
def transition (row : Row) (status : Status) : Row × Bool :=
  if row.status.immutable ∧ row.status ≠ status then (row, false)
  else ({ row with status }, true)

end Row

/-! ### The journal -/

/-- `_diagnosis_key`. -/
def diagnosisKey : Json → Json
  | .obj fields =>
    let phase := (JsonFields.field fields "phase").getD .null
    if phase.truthy then phase else (JsonFields.field fields "reason").getD .null
  | _ => .null

/-- The entries have the same kind, runner and phase or reason. -/
def Diagnosis.same (first second : Diagnosis) : Bool :=
  first.kind = second.kind && first.runner = second.runner &&
    (diagnosisKey first.detail).pyEq (diagnosisKey second.detail)

def maxDiagnosis : Nat := 16

variable (redaction : Redaction)

namespace Row

/-- `_append_diagnosis`: the journal with a new entry, unless it is refused. -/
def appendDiagnosis (row : Row) (recordedAt : Int) (runner : String) (detail proof : Json)
    (kind : String) : Option (List Diagnosis) :=
  let runner := text 64 runner
  if runner ∉ row.roster.names then none
  else
    let entry : Diagnosis :=
      { runner, recordedAt, kind := text 16 kind, detail := safeObject redaction detail
        proof := safeObject redaction proof }
    if maxDiagnosis ≤ (row.diagnosis.filter fun item => item.kind = entry.kind).length then none
    else if row.diagnosis.any fun item => item.same entry then none
    else some (row.diagnosis ++ [entry])

/-- `record_diagnosis`. -/
def recordDiagnosis (row : Row) (recordedAt : Int) (runner : String) (detail proof : Json)
    (kind : String) : Row × Bool :=
  match row.appendDiagnosis redaction recordedAt runner detail proof kind with
  | none => (row, false)
  | some entries => ({ row with diagnosis := entries }, true)

end Row

/-! ### Observations -/

def latestOf (items : List Observation) (runner : String) : Option Observation :=
  items.reverse.find? fun item => item.runner = runner

/-- `by_runner`, sorted by the names of the runners. -/
def byRunner (items : List Observation) : List Observation :=
  (((items.map Observation.runner).dedup.filter fun name => name ≠ "").insertionSort
    (· ≤ ·)).filterMap (latestOf items)

/-- `TERMINAL_EVIDENCE_STATES`. -/
def terminalStates : List String := ["failed", "identity_mismatch"]

namespace Row

def observation (observedAt : Int) (runner state : String) (proof detail : Json) : Observation :=
  { runner := text 64 runner, state := text 32 state, observedAt
    proof := safeObject redaction proof, detail := safeObject redaction detail }

/-- The observation of a node of the roster replaces its earlier one. -/
def observe (row : Row) (entry : Observation) : Row :=
  { row with
    nodeEvidence := ((byRunner (row.nodeEvidence ++ [entry])).filter fun item =>
      item.runner ∈ row.roster.names).take 128
    accepted := row.accepted ++ [entry] }

/-- `evidence`. -/
def evidence (row : Row) (observedAt : Int) (runner state : String) (proof detail : Json) :
    Row × Bool :=
  if text 64 runner ∉ row.roster.names then (row, false)
  else
    let entry := observation redaction observedAt runner state proof detail
    let observed := row.observe entry
    if entry.state ∈ terminalStates then
      ((observed.recordDiagnosis redaction observedAt runner detail proof "failure").1, true)
    else (observed, true)

end Row

/-! ### Proofs -/

def isHex (char : Char) : Bool := ('0' ≤ char ∧ char ≤ '9') ∨ ('a' ≤ char ∧ char ≤ 'f')

def hexRun (value : List Char) : Bool := 7 ≤ value.length && value.length ≤ 40 && value.all isHex

/-- `SHA_PATTERN.match`: the dollar also stands before a last line break. -/
def shaPattern (value : List Char) : Bool :=
  hexRun value || value.getLast? = some '\n' && hexRun value.dropLast

/-- `is_valid_sha`. -/
def isValidSha (value : String) : Bool :=
  shaPattern value.toList && value.toList.any fun char => char ≠ '0'

def proofText (proof : Json) (name : String) : Option String :=
  match proof with
  | .obj fields =>
    match JsonFields.field fields name with
    | some (.str value) => some value
    | _ => none
  | _ => none

def liveSha (proof : Json) : Option String :=
  (proofText proof "platform_sha").filter fun sha => sha.length = 40 && isValidSha sha

namespace Row

/-- `proof_matches`. -/
def proofMatches (row : Row) (proof : Json) : Bool :=
  proofText proof "platform_deployment" = some row.pk &&
    (liveSha proof).any fun sha => row.sha.toList.isPrefixOf sha.toList

/-! ### Verification -/

def answered (response : Json) : Json :=
  match response with
  | .obj fields =>
    match JsonFields.field fields "status" with
    | some (.str "success") => (JsonFields.field fields "result").getD .null
    | _ => .null
  | _ => .null

/-- One turn of the loop of `verify`. -/
def verifyRunner (deployment : Row) (responses : String → Json) (times : String → Int)
    (row : Row) (runner : String) : Row :=
  let proof := answered (responses runner)
  if deployment.proofMatches proof then
    (row.evidence redaction (times runner) runner "proven" proof (.obj [])).1
  else
    (row.evidence redaction (times runner) runner "unavailable" proof
      (.obj [("reason", .str "proof_unavailable")])).1

/-- `verify`, with the responses of the runners. -/
def verify (row : Row) (responses : String → Json) (times : String → Int) : Row :=
  let observed := row.roster.names.foldl (row.verifyRunner redaction responses times) row
  let proven := (row.roster.names.filter fun runner =>
    row.proofMatches (answered (responses runner))).length
  if row.roster.names ≠ [] ∧ proven = row.roster.names.length then
    (observed.transition .converged).1
  else if proven ≠ 0 then (observed.transition .partly).1
  else (observed.transition .unknown).1

end Row

structure Restart where
  lease : Option (String × String)
  runner : String
  /-- `local_node_proof`, unless it raises. -/
  proof : Option Json
  time : Int

namespace Row

/-- `finalize_post_restart`. -/
def finalizePostRestart (row : Row) (restart : Restart) : Row :=
  match restart.lease with
  | none => row
  | some (state, owner) =>
    if state ∉ ["deploying", "failed"] ∨ owner ≠ row.pk then row
    else if row.roster.names.length ≠ 1 ∨ restart.runner ∉ row.roster.names then row
    else
      match latestOf row.nodeEvidence restart.runner with
      | none => row
      | some observed =>
        if state = "failed" then
          if observed.state ∉ terminalStates then row
          else if row.status ≠ .failed then (row.transition .failed).1
          else row
        else if observed.state ∉ ["deploying", "identity_pending", "proven"] then row
        else
          match restart.proof with
          | none => row
          | some proof =>
            if !row.proofMatches proof then row
            else
              let (proven, landed) :=
                row.evidence redaction restart.time restart.runner "proven" proof (.obj [])
              if !landed then proven
              else if row.status ≠ .converged then (proven.transition .converged).1
              else proven

/-- `record_rollback_outcomes`, for a row that the bounded scan may reach. -/
def recordRollbackOutcomes (row : Row) (scanned : Bool) (restart : Restart) : Row :=
  let kinds := row.diagnosis.map Diagnosis.kind
  if !scanned || row.status ≠ .failed || row.roster.names ≠ [restart.runner] ||
      "failure" ∉ kinds || "outcome" ∈ kinds then row
  else
    match restart.proof with
    | none => row
    | some proof =>
      if (liveSha proof).isNone then row
      else
        match proof with
        | .obj fields =>
          let owner := (JsonFields.field fields "platform_deployment").getD .null
          if !owner.truthy || owner.isText row.pk then row
          else
            let observed := (row.evidence redaction restart.time restart.runner "rolled_back"
              proof (.obj [("reason", .str "post_restart_observation")])).1
            (observed.recordDiagnosis redaction restart.time restart.runner
              (.obj [("phase", .str "rolled_back")]) proof "outcome").1
        | _ => row

end Row

/-! ### Calls -/

inductive Call where
  | evidence (time : Int) (runner state : String) (proof detail : Json)
  | recordDiagnosis (time : Int) (runner : String) (detail proof : Json) (kind : String)
  | verify (responses : String → Json) (times : String → Int)
  | finalizePostRestart (restart : Restart)
  | recordRollbackOutcomes (scanned : Bool) (restart : Restart)
  /-- The orchestrator moves the attempt on; it declares no convergence. -/
  | progress (status : Status) (hstatus : status ≠ .converged)

def step (row : Row) : Call → Option Row
  | .evidence time runner state proof detail =>
    some (row.evidence redaction time runner state proof detail).1
  | .recordDiagnosis time runner detail proof kind =>
    some (row.recordDiagnosis redaction time runner detail proof kind).1
  | .verify responses times => some (row.verify redaction responses times)
  | .finalizePostRestart restart => some (row.finalizePostRestart redaction restart)
  | .recordRollbackOutcomes scanned restart =>
    some (row.recordRollbackOutcomes redaction scanned restart)
  | .progress status _ => some (row.transition status).1

/-! ### The latest observations -/

theorem latestOf_some {items : List Observation} {runner : String} {entry : Observation}
    (hlatest : latestOf items runner = some entry) : entry ∈ items ∧ entry.runner = runner := by
  refine ⟨List.mem_reverse.mp (List.mem_of_find?_eq_some hlatest), ?_⟩
  have hrunner := List.find?_some hlatest
  exact of_decide_eq_true hrunner

theorem latestOf_append (items : List Observation) (entry : Observation) (runner : String) :
    latestOf (items ++ [entry]) runner =
      if entry.runner = runner then some entry else latestOf items runner := by
  rw [latestOf, List.reverse_append, List.reverse_singleton, List.singleton_append, List.find?_cons]
  by_cases hrunner : entry.runner = runner
  · simp [hrunner]
  · simp [hrunner, latestOf]

theorem latestOf_isSome {items : List Observation} {runner : String}
    (hrunner : runner ∈ items.map Observation.runner) :
    ∃ entry, latestOf items runner = some entry := by
  obtain ⟨item, hitem, hsame⟩ := List.mem_map.mp hrunner
  rw [← Option.isSome_iff_exists, latestOf, List.find?_isSome]
  exact ⟨item, List.mem_reverse.mpr hitem, decide_eq_true hsame⟩

theorem latestOf_eq_some_iff {items : List Observation}
    (hnodup : (items.map Observation.runner).Nodup) {runner : String} {entry : Observation} :
    latestOf items runner = some entry ↔ entry ∈ items ∧ entry.runner = runner := by
  refine ⟨latestOf_some, fun ⟨hentry, hrunner⟩ => ?_⟩
  obtain ⟨other, hother⟩ := latestOf_isSome (List.mem_map.mpr ⟨entry, hentry, hrunner⟩)
  obtain ⟨hmem, hsame⟩ := latestOf_some hother
  rw [hother, List.inj_on_of_nodup_map hnodup hmem hentry (hsame.trans hrunner.symm)]

theorem mem_byRunner {items : List Observation} (hfilled : ∀ item ∈ items, item.runner ≠ "")
    {entry : Observation} :
    entry ∈ byRunner items ↔ latestOf items entry.runner = some entry := by
  simp only [byRunner, List.mem_filterMap, List.mem_insertionSort, List.mem_filter,
    List.mem_dedup, decide_eq_true_eq]
  constructor
  · rintro ⟨runner, _, hlatest⟩
    obtain ⟨_, rfl⟩ := latestOf_some hlatest
    exact hlatest
  · intro hlatest
    have hmem := (latestOf_some hlatest).1
    exact ⟨entry.runner, ⟨List.mem_map_of_mem hmem, hfilled entry hmem⟩, hlatest⟩

theorem map_filterMap_latestOf (items : List Observation) (names : List String) :
    ((names.filterMap (latestOf items)).map Observation.runner).Sublist names := by
  induction names with
  | nil => exact List.Sublist.slnil
  | cons name rest ih =>
    cases hlatest : latestOf items name with
    | none =>
      rw [List.filterMap_cons_none hlatest]
      exact ih.cons name
    | some entry =>
      rw [List.filterMap_cons_some hlatest, List.map_cons, (latestOf_some hlatest).2]
      exact ih.cons_cons name

theorem nodup_byRunner (items : List Observation) :
    ((byRunner items).map Observation.runner).Nodup := by
  refine (map_filterMap_latestOf items _).nodup ?_
  exact (List.perm_insertionSort _ _).nodup_iff.mpr ((List.nodup_dedup _).filter _)

/-! ### What the row keeps -/

namespace Row

/-- The observations are the latest ones that were accepted, one for each node of the
roster that has any. The journal tells of nodes of the roster, within the budget of each
kind and nothing twice. -/
structure Kept (row : Row) : Prop where
  latest : ∀ entry, entry ∈ row.nodeEvidence ↔
    latestOf row.accepted entry.runner = some entry
  single : (row.nodeEvidence.map Observation.runner).Nodup
  members : ∀ entry ∈ row.nodeEvidence, entry.runner ∈ row.roster.names
  budget : ∀ kind, (row.diagnosis.filter fun item => item.kind = kind).length ≤ maxDiagnosis
  once : row.diagnosis.Pairwise fun earlier later => ¬earlier.same later
  story : ∀ entry ∈ row.diagnosis, entry.runner ∈ row.roster.names

theorem mem_observe {row : Row} (hkept : row.Kept) {entry : Observation}
    (hentry : entry.runner ∈ row.roster.names) {item : Observation} :
    item ∈ (row.observe entry).nodeEvidence ↔
      if entry.runner = item.runner then entry = item else item ∈ row.nodeEvidence := by
  have hall : ∀ other ∈ row.nodeEvidence ++ [entry], other.runner ∈ row.roster.names := by
    intro other hother
    rcases List.mem_append.mp hother with hold | hnew
    · exact hkept.members other hold
    · rw [List.mem_singleton.mp hnew]
      exact hentry
  have hmem (other : Observation) := @mem_byRunner (row.nodeEvidence ++ [entry])
    (fun item hitem => row.roster.filled _ (hall item hitem)) other
  have hroster : ∀ other ∈ byRunner (row.nodeEvidence ++ [entry]),
      other.runner ∈ row.roster.names := fun other hother =>
    hall other (latestOf_some ((hmem other).mp hother)).1
  have hfilter : ((byRunner (row.nodeEvidence ++ [entry])).filter fun item =>
      item.runner ∈ row.roster.names) = byRunner (row.nodeEvidence ++ [entry]) := by
    rw [List.filter_eq_self]
    exact fun other hother => decide_eq_true (hroster other hother)
  have hlength : (byRunner (row.nodeEvidence ++ [entry])).length ≤ 128 := by
    have hsubset : (byRunner (row.nodeEvidence ++ [entry])).map Observation.runner ⊆
        row.roster.names := by
      intro name hname
      obtain ⟨other, hother, rfl⟩ := List.mem_map.mp hname
      exact hroster other hother
    have hle := (List.subperm_of_subset (nodup_byRunner _) hsubset).length_le
    rw [List.length_map] at hle
    exact hle.trans row.roster.bounded
  change item ∈ List.take 128 _ ↔ _
  rw [hfilter, List.take_of_length_le hlength, hmem, latestOf_append]
  split
  next hsame => exact Option.some_inj
  next hother =>
    rw [latestOf_eq_some_iff hkept.single]
    exact and_iff_left rfl

theorem Kept.observe {row : Row} (hkept : row.Kept) {entry : Observation}
    (hentry : entry.runner ∈ row.roster.names) : (row.observe entry).Kept where
  latest item := by
    rw [mem_observe hkept hentry]
    change _ ↔ latestOf (row.accepted ++ [entry]) item.runner = some item
    rw [latestOf_append]
    split
    next hsame => exact Option.some_inj.symm
    next hother => exact hkept.latest item
  single := by
    have hsublist : (row.observe entry).nodeEvidence.Sublist
        (byRunner (row.nodeEvidence ++ [entry])) :=
      (List.take_sublist _ _).trans List.filter_sublist
    exact (hsublist.map Observation.runner).nodup (nodup_byRunner _)
  members item hitem := by
    rw [mem_observe hkept hentry] at hitem
    split at hitem
    next hsame =>
      rw [← hitem]
      exact hentry
    next hother => exact hkept.members item hitem
  budget := hkept.budget
  once := hkept.once
  story := hkept.story

/-- The row goes on: its journal grows, and what it keeps is kept. -/
structure Grows (row next : Row) : Prop where
  pk : next.pk = row.pk
  sha : next.sha = row.sha
  roster : next.roster = row.roster
  story : row.diagnosis <+: next.diagnosis
  keeps : row.Kept → next.Kept

theorem Grows.refl (row : Row) : row.Grows row := ⟨rfl, rfl, rfl, List.prefix_refl _, id⟩

theorem Grows.trans {row middle next : Row} (hfirst : row.Grows middle)
    (hsecond : middle.Grows next) : row.Grows next where
  pk := hsecond.pk.trans hfirst.pk
  sha := hsecond.sha.trans hfirst.sha
  roster := hsecond.roster.trans hfirst.roster
  story := hfirst.story.trans hsecond.story
  keeps hkept := hsecond.keeps (hfirst.keeps hkept)

theorem grows_observe {row : Row} {entry : Observation}
    (hentry : entry.runner ∈ row.roster.names) : row.Grows (row.observe entry) :=
  ⟨rfl, rfl, rfl, List.prefix_refl _, fun hkept => hkept.observe hentry⟩

variable {redaction}

theorem appendDiagnosis_some {row : Row} {recordedAt : Int} {runner kind : String}
    {detail proof : Json} {entries : List Diagnosis}
    (happend : row.appendDiagnosis redaction recordedAt runner detail proof kind = some entries) :
    ∃ entry, entries = row.diagnosis ++ [entry] ∧ entry.runner ∈ row.roster.names ∧
      (row.diagnosis.filter fun item => item.kind = entry.kind).length < maxDiagnosis ∧
        ∀ item ∈ row.diagnosis, ¬item.same entry := by
  unfold appendDiagnosis at happend
  dsimp only at happend
  split at happend
  next => cases happend
  next hroster =>
    split at happend
    next => cases happend
    next hbudget =>
      split at happend
      next => cases happend
      next hsame =>
        cases happend
        refine ⟨_, rfl, not_not.mp hroster, Nat.not_le.mp hbudget, fun item hitem hitemSame => ?_⟩
        exact hsame (List.any_eq_true.mpr ⟨item, hitem, hitemSame⟩)

theorem grows_recordDiagnosis (row : Row) (recordedAt : Int) (runner kind : String)
    (detail proof : Json) :
    row.Grows (row.recordDiagnosis redaction recordedAt runner detail proof kind).1 := by
  unfold recordDiagnosis
  cases happend : row.appendDiagnosis redaction recordedAt runner detail proof kind with
  | none => exact .refl row
  | some entries =>
    obtain ⟨entry, rfl, hroster, hbudget, hsame⟩ := appendDiagnosis_some happend
    refine ⟨rfl, rfl, rfl, List.prefix_append _ _, fun hkept => ?_⟩
    refine ⟨hkept.latest, hkept.single, hkept.members, fun kind => ?_, ?_, ?_⟩
    · rw [List.filter_append, List.length_append]
      by_cases hkind : entry.kind = kind
      · subst hkind
        simpa using Nat.succ_le_of_lt hbudget
      · simpa [hkind] using hkept.budget kind
    · refine List.pairwise_append.mpr ⟨hkept.once, List.pairwise_singleton _ _, ?_⟩
      intro item hitem other hother
      rw [List.mem_singleton.mp hother]
      exact hsame item hitem
    · intro item hitem
      rcases List.mem_append.mp hitem with hold | hnew
      · exact hkept.story item hold
      · rw [List.mem_singleton.mp hnew]
        exact hroster

theorem recordDiagnosis_status (row : Row) (recordedAt : Int) (runner kind : String)
    (detail proof : Json) :
    (row.recordDiagnosis redaction recordedAt runner detail proof kind).1.status = row.status := by
  unfold recordDiagnosis
  split <;> rfl

theorem grows_evidence (row : Row) (observedAt : Int) (runner state : String)
    (proof detail : Json) :
    row.Grows (row.evidence redaction observedAt runner state proof detail).1 := by
  unfold evidence
  dsimp only
  split
  next => exact .refl row
  next hroster =>
    have hobserve : row.Grows (row.observe
        (observation redaction observedAt runner state proof detail)) :=
      grows_observe (not_not.mp hroster)
    split
    next => exact hobserve.trans (grows_recordDiagnosis _ _ _ _ _ _)
    next => exact hobserve

theorem evidence_status (row : Row) (observedAt : Int) (runner state : String)
    (proof detail : Json) :
    (row.evidence redaction observedAt runner state proof detail).1.status = row.status := by
  unfold evidence
  dsimp only
  split
  next => rfl
  next =>
    split
    next => exact recordDiagnosis_status _ _ _ _ _ _
    next => rfl

theorem grows_transition (row : Row) (status : Status) : row.Grows (row.transition status).1 := by
  unfold transition
  split
  next => exact .refl row
  next =>
    exact ⟨rfl, rfl, rfl, List.prefix_refl _, fun hkept => ⟨hkept.latest, hkept.single,
      hkept.members, hkept.budget, hkept.once, hkept.story⟩⟩

theorem transition_converged {row : Row} {status : Status} (hstatus : status ≠ .converged)
    (hconverged : (row.transition status).1.status = .converged) : row.status = .converged := by
  unfold transition at hconverged
  split at hconverged
  next => exact hconverged
  next => exact absurd hconverged hstatus

/-! ### Full proofs -/

/-- The proof names the deployment and a full commit of 40 hexadecimal digits that extends
the commit of the row. -/
def FullProof (row : Row) (proof : Json) : Prop :=
  proofText proof "platform_deployment" = some row.pk ∧
    ∃ sha, proofText proof "platform_sha" = some sha ∧ sha.length = 40 ∧
      sha.toList.all isHex ∧ row.sha.toList <+: sha.toList

/-- The proof names the deployment, and its commit is 39 digits and a line break. -/
def CutProof (row : Row) (proof : Json) : Prop :=
  proofText proof "platform_deployment" = some row.pk ∧
    ∃ sha, proofText proof "platform_sha" = some sha ∧ sha.toList.getLast? = some '\n' ∧
      sha.toList.dropLast.length = 39 ∧ sha.toList.dropLast.all isHex ∧
        row.sha.toList <+: sha.toList

theorem proofMatches_cases {row : Row} {proof : Json} (hmatches : row.proofMatches proof = true) :
    row.FullProof proof ∨ row.CutProof proof := by
  rw [proofMatches, Bool.and_eq_true, decide_eq_true_eq, Option.any_eq_true] at hmatches
  obtain ⟨howner, sha, hlive, hprefix⟩ := hmatches
  rw [List.isPrefixOf_iff_prefix] at hprefix
  obtain ⟨hsha, hvalid⟩ := (Option.filter_eq_some_iff).mp hlive
  rw [Bool.and_eq_true, decide_eq_true_eq] at hvalid
  obtain ⟨hlength, hpattern⟩ := hvalid
  have hcases := (Bool.and_eq_true _ _ ▸ hpattern : _ ∧ _).1
  rw [shaPattern, Bool.or_eq_true, Bool.and_eq_true, decide_eq_true_eq] at hcases
  rcases hcases with hrun | ⟨hbreak, hrun⟩
  · rw [hexRun, Bool.and_eq_true] at hrun
    exact .inl ⟨howner, sha, hsha, hlength, hrun.2, hprefix⟩
  · rw [hexRun, Bool.and_eq_true] at hrun
    refine .inr ⟨howner, sha, hsha, hbreak, ?_, hrun.2, hprefix⟩
    rw [List.length_dropLast, String.length_toList, hlength]

/-! ### One call -/

theorem grows_verifyRunner (deployment row : Row) (responses : String → Json)
    (times : String → Int) (runner : String) :
    row.Grows (deployment.verifyRunner redaction responses times row runner) := by
  unfold verifyRunner
  dsimp only
  split
  next => exact grows_evidence _ _ _ _ _ _
  next => exact grows_evidence _ _ _ _ _ _

theorem verifyRunner_status (deployment row : Row) (responses : String → Json)
    (times : String → Int) (runner : String) :
    (deployment.verifyRunner redaction responses times row runner).status = row.status := by
  unfold verifyRunner
  dsimp only
  split
  next => exact evidence_status _ _ _ _ _ _
  next => exact evidence_status _ _ _ _ _ _

theorem foldl_verifyRunner (deployment : Row) (responses : String → Json)
    (times : String → Int) (runners : List String) (row : Row) :
    row.Grows (runners.foldl (deployment.verifyRunner redaction responses times) row) ∧
      (runners.foldl (deployment.verifyRunner redaction responses times) row).status =
        row.status := by
  induction runners generalizing row with
  | nil => exact ⟨.refl row, rfl⟩
  | cons runner rest ih =>
    obtain ⟨hgrows, hstatus⟩ := ih (deployment.verifyRunner redaction responses times row runner)
    exact ⟨(grows_verifyRunner _ _ _ _ _).trans hgrows,
      hstatus.trans (verifyRunner_status _ _ _ _ _)⟩

theorem grows_verify (row : Row) (responses : String → Json) (times : String → Int) :
    row.Grows (row.verify redaction responses times) := by
  have hloop := (@foldl_verifyRunner redaction row responses times
    row.roster.names row).1
  unfold verify
  dsimp only
  split
  next => exact hloop.trans (grows_transition _ _)
  next =>
    split
    next => exact hloop.trans (grows_transition _ _)
    next => exact hloop.trans (grows_transition _ _)

theorem verify_converged {row : Row} {responses : String → Json} {times : String → Int}
    (hbefore : row.status ≠ .converged)
    (hafter : (row.verify redaction responses times).status = .converged) :
    row.roster.names ≠ [] ∧
      ∀ runner ∈ row.roster.names, row.proofMatches (answered (responses runner)) = true := by
  have hloop := (@foldl_verifyRunner redaction row responses times
    row.roster.names row).2
  unfold verify at hafter
  dsimp only at hafter
  split at hafter
  next hproven => exact ⟨hproven.1, List.length_filter_eq_length_iff.mp hproven.2⟩
  next =>
    split at hafter
    next =>
      exact absurd (hloop.symm.trans (transition_converged (by decide) hafter)) hbefore
    next =>
      exact absurd (hloop.symm.trans (transition_converged (by decide) hafter)) hbefore

/-- A node that has restarted records what it observes, and closes the attempt only when it
is the whole roster and its proof matches. -/
theorem finalizePostRestart_cases (row : Row) (restart : Restart) :
    row.Grows (row.finalizePostRestart redaction restart) ∧
      ((row.finalizePostRestart redaction restart).status = .converged →
        row.status = .converged ∨ row.roster.names = [restart.runner] ∧
          ∃ proof, restart.proof = some proof ∧ row.proofMatches proof = true) := by
  unfold finalizePostRestart
  have hsame (claim : Prop) :
      row.Grows row ∧ (row.status = .converged → row.status = .converged ∨ claim) :=
    ⟨.refl row, .inl⟩
  cases hlease : restart.lease with
  | none => exact hsame _
  | some lease =>
    dsimp only
    split
    next => exact hsame _
    next =>
      split
      next => exact hsame _
      next hsingle =>
        cases hlatest : latestOf row.nodeEvidence restart.runner with
        | none => exact hsame _
        | some observed =>
          dsimp only
          split
          next =>
            split
            next => exact hsame _
            next =>
              split
              next =>
                exact ⟨grows_transition _ _, fun hconverged =>
                  .inl (transition_converged (by decide) hconverged)⟩
              next => exact hsame _
          next =>
            split
            next => exact hsame _
            next =>
              cases hproof : restart.proof with
              | none => exact hsame _
              | some proof =>
                dsimp only
                split
                next => exact hsame _
                next hmatches =>
                  have hnames : row.roster.names = [restart.runner] := by
                    obtain ⟨hlength, hmember⟩ := not_or.mp hsingle
                    obtain ⟨name, hname⟩ := List.length_eq_one_iff.mp (not_not.mp hlength)
                    rw [hname, List.mem_singleton, not_not] at hmember
                    rw [hname, hmember]
                  have hproves : row.roster.names = [restart.runner] ∧
                      ∃ other, some proof = some other ∧ row.proofMatches other = true := by
                    refine ⟨hnames, proof, rfl, ?_⟩
                    simpa using hmatches
                  have hevidence := @grows_evidence redaction row restart.time
                    restart.runner "proven" proof (.obj [])
                  split
                  next => exact ⟨hevidence, fun _ => .inr hproves⟩
                  next =>
                    split
                    next =>
                      exact ⟨hevidence.trans (grows_transition _ _), fun _ => .inr hproves⟩
                    next => exact ⟨hevidence, fun _ => .inr hproves⟩

theorem recordRollbackOutcomes_cases (row : Row) (scanned : Bool) (restart : Restart) :
    row.Grows (row.recordRollbackOutcomes redaction scanned restart) ∧
      (row.recordRollbackOutcomes redaction scanned restart).status = row.status := by
  have hsame : row.Grows row ∧ row.status = row.status := ⟨.refl row, rfl⟩
  unfold recordRollbackOutcomes
  dsimp only
  split
  next => exact hsame
  next =>
    cases restart.proof with
    | none => exact hsame
    | some proof =>
      dsimp only
      split
      next => exact hsame
      next =>
        split
        next fields =>
          split
          next => exact hsame
          next =>
            exact ⟨(grows_evidence _ _ _ _ _ _).trans (grows_recordDiagnosis _ _ _ _ _ _),
              (recordDiagnosis_status _ _ _ _ _ _).trans (evidence_status _ _ _ _ _ _)⟩
        next => exact hsame

end Row

/-! ### Runs -/

def Call.answer : Call → String → Option Json
  | .verify responses _, runner => some (Row.answered (responses runner))
  | .finalizePostRestart restart, runner =>
    if runner = restart.runner then restart.proof else none
  | _, _ => none

def Call.Proves (row : Row) (call : Call) : Prop :=
  row.roster.names ≠ [] ∧ ∀ runner ∈ row.roster.names,
    ∃ proof, call.answer runner = some proof ∧ row.FullProof proof

/-- No node of the roster returns a commit that ends in a line break. -/
def Call.Intact (row : Row) (call : Call) : Prop :=
  ∀ runner ∈ row.roster.names, ∀ proof, call.answer runner = some proof → ¬row.CutProof proof

variable {redaction}

theorem grows_step {row next : Row} {call : Call} (hnext : step redaction row call = some next) :
    row.Grows next := by
  cases call with
  | evidence time runner state proof detail =>
    cases hnext
    exact Row.grows_evidence _ _ _ _ _ _
  | recordDiagnosis time runner detail proof kind =>
    cases hnext
    exact Row.grows_recordDiagnosis _ _ _ _ _ _
  | verify responses times =>
    cases hnext
    exact Row.grows_verify _ _ _
  | finalizePostRestart restart =>
    cases hnext
    exact (Row.finalizePostRestart_cases _ _).1
  | recordRollbackOutcomes scanned restart =>
    cases hnext
    exact (Row.recordRollbackOutcomes_cases _ _ _).1
  | progress status hstatus =>
    cases hnext
    exact Row.grows_transition _ _

theorem step_converged {row next : Row} {call : Call} (hnext : step redaction row call = some next)
    (hbefore : row.status ≠ .converged) (hafter : next.status = .converged) :
    row.roster.names ≠ [] ∧ ∀ runner ∈ row.roster.names,
      ∃ proof, call.answer runner = some proof ∧ row.proofMatches proof = true := by
  cases call with
  | evidence time runner state proof detail =>
    cases hnext
    exact absurd ((Row.evidence_status _ _ _ _ _ _).symm.trans hafter) hbefore
  | recordDiagnosis time runner detail proof kind =>
    cases hnext
    exact absurd ((Row.recordDiagnosis_status _ _ _ _ _ _).symm.trans hafter) hbefore
  | verify responses times =>
    cases hnext
    obtain ⟨hnames, hmatches⟩ := Row.verify_converged hbefore hafter
    exact ⟨hnames, fun runner hrunner => ⟨_, rfl, hmatches runner hrunner⟩⟩
  | finalizePostRestart restart =>
    cases hnext
    rcases (Row.finalizePostRestart_cases row restart).2 hafter with
      hconverged | ⟨hnames, proof, hproof, hmatches⟩
    · exact absurd hconverged hbefore
    · rw [hnames]
      refine ⟨List.cons_ne_nil _ _, fun runner hrunner => ⟨proof, ?_, hmatches⟩⟩
      rw [Call.answer, if_pos (List.mem_singleton.mp hrunner), hproof]
  | recordRollbackOutcomes scanned restart =>
    cases hnext
    exact absurd ((Row.recordRollbackOutcomes_cases _ _ _).2.symm.trans hafter) hbefore
  | progress status hstatus =>
    cases hnext
    exact absurd (Row.transition_converged hstatus hafter) hbefore

/-- Whatever the nodes return, from any row: the attempt stays the same and its journal only
grows, and it converges only on answers of the whole roster that match. -/
theorem converges_onMatches (redaction : Redaction) (row : Row) (calls : List Call) :
    EachStep (step redaction) (fun row call next => row.Grows next ∧
      (row.status ≠ .converged → next.status = .converged →
        row.roster.names ≠ [] ∧ ∀ runner ∈ row.roster.names,
          ∃ proof, call.answer runner = some proof ∧ row.proofMatches proof = true)) row calls :=
  EachStep.of_step (fun _ _ _ hnext => ⟨grows_step hnext, step_converged hnext⟩) row calls

theorem Row.kept_create (pk sha : String) (roster : Roster) : (Row.create pk sha roster).Kept where
  latest entry := by simp [Row.create, latestOf]
  single := List.nodup_nil
  members entry hentry := absurd hentry List.not_mem_nil
  budget kind := Nat.zero_le _
  once := List.Pairwise.nil
  story entry hentry := absurd hentry List.not_mem_nil

/-- The evidence of a deployment, whatever calls are made on its row. As long as no node
returns a commit that ends in a line break, the row becomes converged only at a call in
which every node of the roster returns a full proof. -/
theorem evidence_of_intact (redaction : Redaction) (pk sha : String) (roster : Roster)
    (calls : List Call)
    (hintact : EachStep (step redaction) (fun row call _ => call.Intact row)
      (Row.create pk sha roster) calls) :
    Always (step redaction) Row.Kept (Row.create pk sha roster) calls ∧
      Throughout (step redaction) (fun row later => row.diagnosis <+: later.diagnosis)
        (Row.create pk sha roster) calls ∧
      EachStep (step redaction) (fun row call next => row.status ≠ .converged →
        next.status = .converged → call.Proves row) (Row.create pk sha roster) calls := by
  refine ⟨?_, ?_, ?_⟩
  · exact always_of_inductive (fun row call next hkept hnext => (grows_step hnext).keeps hkept)
      (Row.kept_create pk sha roster) calls
  · have hextend (first row : Row) (call : Call) (next : Row) (_ : row.Kept)
        (hfirst : first.diagnosis <+: row.diagnosis) (_ : call.Intact row)
        (hnext : step redaction row call = some next) : first.diagnosis <+: next.diagnosis :=
      hfirst.trans (grows_step hnext).story
    exact throughout_of_eachStep
      (fun row call next hkept _ hnext => (grows_step hnext).keeps hkept)
      (fun row _ => List.prefix_refl _) hextend (Row.kept_create pk sha roster) hintact
  · have hsteps : EachStep (step redaction) (fun row call next => row.status ≠ .converged →
        next.status = .converged → row.roster.names ≠ [] ∧ ∀ runner ∈ row.roster.names,
          ∃ proof, call.answer runner = some proof ∧ row.proofMatches proof = true)
        (Row.create pk sha roster) calls := by
      refine EachStep.of_step ?_ _ _
      intro row call next hnext
      exact step_converged hnext
    refine (hsteps.and hintact).imp fun row call next ⟨hconverges, hcall⟩ hbefore hafter => ?_
    obtain ⟨hnames, hmatches⟩ := hconverges hbefore hafter
    refine ⟨hnames, fun runner hrunner => ?_⟩
    obtain ⟨proof, hanswer, hproof⟩ := hmatches runner hrunner
    refine ⟨proof, hanswer, (Row.proofMatches_cases hproof).resolve_right ?_⟩
    exact hcall runner hrunner proof hanswer

def nodeRoster : Roster := ⟨["node-1"], by decide, by decide, by decide, by decide⟩

/-- Every node answers with the deployment and the given commit. -/
def commitCall (commit : String) : Call :=
  .verify (fun _ => .obj [("status", .str "success"), ("result", .obj [
    ("platform_deployment", .str "attempt-1"), ("platform_sha", .str commit)])]) fun _ => 0

def nodeRow : Row := .create "attempt-1" "4a1b2c3" nodeRoster

theorem fullCommit_evidence :
    ((run (step ⟨id, id⟩) nodeRow [commitCall "4a1b2c3d4e5f60718293a4b5c6d7e8f901234567"]).any
        fun row => row.status = .converged) = true ∧
      EachStep (step ⟨id, id⟩) (fun row call next => row.status ≠ .converged →
        next.status = .converged → call.Proves row) nodeRow
          [commitCall "4a1b2c3d4e5f60718293a4b5c6d7e8f901234567"] := by
  refine ⟨by decide, (evidence_of_intact ⟨id, id⟩ "attempt-1" "4a1b2c3" nodeRoster _ ?_).2.2⟩
  refine fun next _ => ⟨?_, trivial⟩
  rintro runner _ proof hanswer ⟨_, sha, hsha, hbreak, _⟩
  cases hanswer
  cases hsha
  exact absurd hbreak (by decide)

/-- A commit of 39 digits and a line break makes the row converged. -/
theorem lineBreak_converges : ¬∀ (redaction : Redaction) (pk sha : String) (roster : Roster)
    (calls : List Call),
    Always (step redaction) Row.Kept (Row.create pk sha roster) calls ∧
      Throughout (step redaction) (fun row later => row.diagnosis <+: later.diagnosis)
        (Row.create pk sha roster) calls ∧
      EachStep (step redaction) (fun row call next => row.status ≠ .converged →
        next.status = .converged → call.Proves row) (Row.create pk sha roster) calls := by
  intro hall
  obtain ⟨hproves, _⟩ := (hall ⟨id, id⟩ "attempt-1" "4a1b2c3" nodeRoster
    [commitCall "4a1b2c3d4e5f60718293a4b5c6d7e8f90123456\n"]).2.2 _ rfl
  obtain ⟨_, hfull⟩ := hproves (by decide) (by decide)
  obtain ⟨proof, hanswer, _, sha, hsha, _, hdigits, _⟩ := hfull "node-1" (by decide)
  cases hanswer
  cases hsha
  exact absurd hdigits (by decide)

end DjangoMojo.Edge.PlatformDeploy
