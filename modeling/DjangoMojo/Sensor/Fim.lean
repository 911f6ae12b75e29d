import Mathlib.Data.List.Dedup
import Mathlib.Data.List.Lex
import Mathlib.Data.Nat.Basic
import DjangoMojo.Sensor.ExpectedChanges
import DjangoMojo.Sensor.Transactions

/-! # The integrity collector

A scan gives a snapshot of the entries of files by their paths. The difference between
the baseline and a complete snapshot is reported as one observation for each changed
path.
-/

namespace DjangoMojo.Sensor

open Foundation

inductive Anomaly where
  | pthInvalidEncoding | pthExecutable | pthExternal | symlinkEscape | symlinkDangling
  deriving DecidableEq, Repr

def Anomaly.text : Anomaly → String
  | .pthInvalidEncoding => "pth_invalid_encoding"
  | .pthExecutable => "pth_executable"
  | .pthExternal => "pth_external"
  | .symlinkEscape => "symlink_escape"
  | .symlinkDangling => "symlink_dangling"

/-- What `_entry_at` finds. -/
structure FimEntry where
  mode : Int
  uid : Int
  gid : Int
  size : Int
  mtimeNs : Int
  ctimeNs : Int
  device : Int
  inode : Int
  kind : FimKind
  sha256 : Option String := none
  targetSha256 : Option String := none
  anomaly : Option Anomaly := none
  hashOwned : Bool := false
  hashSkipped : Bool := false
  sha256_digest : ∀ digest ∈ sha256, isDigest digest = true := by simp
  targetSha256_digest : ∀ digest ∈ targetSha256, isDigest digest = true := by simp
  deriving DecidableEq

namespace FimEntry

def optional (key : String) (value : Option Json) : JsonFields :=
  (value.map fun value => (key, value)).toList

/-- The fields that `diff` reports of an entry, after its kind. -/
def reported (entry : FimEntry) : JsonFields :=
  [("mode", .int entry.mode), ("uid", .int entry.uid), ("gid", .int entry.gid),
    ("size", .int entry.size), ("mtime_ns", .int entry.mtimeNs),
    ("ctime_ns", .int entry.ctimeNs), ("device", .int entry.device),
    ("inode", .int entry.inode)] ++
    (optional "sha256" (entry.sha256.map .str) ++
      optional "target_sha256" (entry.targetSha256.map .str) ++
        optional "anomaly" (entry.anomaly.map fun anomaly => .str anomaly.text))

def json (entry : FimEntry) : JsonFields :=
  ("kind", .str entry.kind.text) :: entry.reported ++
    (optional "hash_owned" (if entry.hashOwned then some (.bool true) else none) ++
      optional "hash_skipped" (if entry.hashSkipped then some (.bool true) else none))

end FimEntry

abbrev Snapshot := List (RawText × FimEntry)

/-- A name of a tier, as `validate_config` accepts it. -/
def isTier : String → Bool :=
  startsAndGoesOn isLower (fun char => isLower char || isDigit char || "_-".toList.contains char) 31

structure FimCollector where
  profile : String
  tier : String
  baselineKey : String
  tier_name : isTier tier = true

/-- A scan, as far as `diff` reads it. -/
structure Scan where
  snapshot : Snapshot
  complete : Bool

/-- The clock during a difference: the time of the annotation of a path, and the texts of
`utc_now` for the observation of a path and for one without a path. -/
structure FimClock where
  now : RawText → Int
  utcNow : Option RawText → String

/-- `safe_text(path)[:2048]`. -/
def reportedPath (path : RawText) : String :=
  String.ofList ((RawText.safeText path).toList.take 2048)

def changedPaths (baseline current : Snapshot) : List RawText :=
  ((current.map Prod.fst ++ baseline.map Prod.fst).dedup).mergeSort fun first second =>
    decide (first.codes ≤ second.codes)

/-- The change between two entries of a path, with the entry that is reported. -/
def changeOf : Option FimEntry → Option FimEntry → Option (FimChange × FimEntry)
  | none, none => none
  | none, some after => some (.created, after)
  | some before, none => some (.deleted, before)
  | some before, some after => if before = after then none else some (.modified, after)

def reportRest (change : FimChange) (entry : FimEntry) (note : Option JsonFields) :
    JsonFields :=
  ("change", .str change.text) :: ("kind", .str entry.kind.text) ::
    (entry.reported ++ FimEntry.optional "expected_change" (note.map .obj))

def report (path : RawText) (change : FimChange) (entry : FimEntry)
    (note : Option JsonFields) : JsonFields :=
  ("path", .str (reportedPath path)) :: reportRest change entry note

def fimChange : String := "fim.change"
def fimExpectedChangeError : String := "fim.expected_change_error"
def fimOverflow : String := "fim.overflow"

variable (rules : FimRules)

namespace FimRules

def changeObservation (entries : List ManifestEntry) (clock : FimClock) (path : RawText)
    (change : FimChange) (entry : FimEntry) : Observation :=
  let now := clock.now path
  let after := if change = .deleted then [] else entry.json
  { kind := fimChange
    fingerprint := rules.fingerprint fimChange
      [path, RawText.ofString change.text, RawText.ofString (rules.dumps after)]
    observedAt := clock.utcNow (some path)
    severity := .high
    summary := "Targeted filesystem integrity change"
    attributes := report path change entry
      (rules.annotationFor entries path change.text entry.json now now)
    recommendation := "review"
    aggregate := false }

def overflowObservation (collector : FimCollector) (clock : FimClock) (scan : Scan) :
    Observation :=
  { kind := fimOverflow
    fingerprint := rules.fingerprint fimOverflow
      [RawText.ofString collector.profile, RawText.ofString collector.tier]
    observedAt := clock.utcNow none
    severity := .critical
    summary := "Filesystem integrity scan was incomplete"
    attributes := [("profile", .str collector.profile), ("tier", .str collector.tier),
      ("entries", .int scan.snapshot.length)]
    recommendation := "review"
    aggregate := false }

def errorObservation (collector : FimCollector) (clock : FimClock) (error : String) :
    Observation :=
  { kind := fimExpectedChangeError
    fingerprint := rules.fingerprint fimExpectedChangeError
      [RawText.ofString collector.tier, RawText.ofString error]
    observedAt := clock.utcNow none
    severity := .high
    summary := "Expected-change evidence was malformed; changes remain unexplained"
    attributes := [("tier", .str collector.tier), ("error", .str error)]
    recommendation := "review"
    aggregate := false }

/-- `diff`. -/
def diff (collector : FimCollector) (manifest : Manifest) (clock : FimClock)
    (baseline : Snapshot) (scan : Scan) : List Observation :=
  if !scan.complete then [rules.overflowObservation collector clock scan]
  else
    let changes := (changedPaths baseline scan.snapshot).filterMap fun path =>
      (changeOf (baseline.lookup path) (scan.snapshot.lookup path)).map fun found =>
        rules.changeObservation manifest.entries clock path found.1 found.2
    let manifestError := match manifest with
      | .ok _ => ""
      | .error error => String.ofList (error.toList.take 256)
    changes ++
      if manifestError = "" then [] else [rules.errorObservation collector clock manifestError]

/-- The call of `record_fim_scan` for a scan and its difference. -/
def scanCall (collector : FimCollector) (manifest : Manifest) (clock : FimClock)
    (baseline : Snapshot) (scan : Scan) (now : Time) : FimScanCall :=
  { now := now
    profile := collector.baselineKey
    snapshot := scan.snapshot.map fun entry => (entry.1, entry.2.json)
    observations := rules.diff collector manifest clock baseline scan
    complete := scan.complete }

/-- The call of `annotate_pending_fim` with a manifest. -/
def annotateCall (manifest : Manifest) (activePaths : List String) (now : Time) : AnnotateCall :=
  { now := now
    entries := !manifest.entries.isEmpty
    activePaths := activePaths
    annotation := fun event created =>
      rules.attributesAnnotation manifest.entries now event.attributes created }

end FimRules

end DjangoMojo.Sensor
