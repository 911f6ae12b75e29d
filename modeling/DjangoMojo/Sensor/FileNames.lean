import DjangoMojo.Sensor.Conservation
import DjangoMojo.Sensor.Fim

/-! # File names and the integrity collector

A reported path is bounded in characters and its event in escaped bytes. Every change
of a snapshot is reported and delivered exactly when the escaped path leaves room for
the other fields, also for those of a later annotation, and every path of the snapshot
can be stored.
-/

namespace DjangoMojo.Sensor

open Foundation

variable (rules : FimRules) (config : Config) (collector : FimCollector)
  (manifest later : Manifest) (clock : FimClock) (baseline snapshot : Snapshot)

/-- What is claimed of a complete scan: its observations make events, the events stay valid
on the wire after a later annotation, and the scan commits where its windows do. -/
structure ReportsEveryName : Prop where
  accepted : ∀ found ∈ rules.diff collector manifest clock baseline ⟨snapshot, true⟩,
    (rules.makeSingleEvent config.sensorId found).toOption.isSome = true
  delivered : ∀ found ∈ rules.diff collector manifest clock baseline ⟨snapshot, true⟩,
    ∀ event, rules.makeSingleEvent config.sensorId found = .ok event →
      ∀ (row : EventRow) activePaths now, row.payload = event →
        rules.validateEvent (((rules.annotateCall later activePaths now).changedRow
          row).payload.withoutPrivateFields) = .ok ()
  commits : ∀ now (store : Store),
    (∀ other : Store, other.aggregates = store.aggregates →
      (rules.flushDueRows config now other).isSome = true) →
    (rules.recordFimScan config
      (rules.scanCall collector manifest clock baseline ⟨snapshot, true⟩ now)
      store).isSome = true

def Changed (path : RawText) (change : FimChange) (entry : FimEntry) : Prop :=
  changeOf (baseline.lookup path) (snapshot.lookup path) = some (change, entry)

def FimRules.annotationAtScan (path : RawText) (change : FimChange) (entry : FimEntry) :
    Option JsonFields :=
  rules.annotationFor manifest.entries path change.text entry.json (clock.now path) (clock.now path)

def annotated (fields value : JsonFields) : JsonFields :=
  fields ++ [("expected_change", .obj value)]

def publicFields (fields : JsonFields) : JsonFields :=
  fields.filter fun field => !privateFields.contains field.1

/-- The escaped path fits into the attributes together with the other fields. -/
def FitsWith (path : RawText) (rest : JsonFields) : Prop :=
  Json.textSize (reportedPath path) + (Json.obj rest).size + 8 ≤ maxAttributeBytes

/-- Every path of the snapshot can be stored, and every changed one leaves room for the
other fields of its report, before and after a later annotation. -/
structure NamesFit : Prop where
  stored : ∀ entry ∈ snapshot, (RawText.encoded entry.1).isSome = true
  reported : ∀ path change entry, Changed baseline snapshot path change entry →
    FitsWith path
      (reportRest change entry (rules.annotationAtScan manifest clock path change entry))
  annotated : ∀ path change entry, Changed baseline snapshot path change entry →
    rules.annotationAtScan manifest clock path change entry = none →
    ∀ now created value,
      rules.attributesAnnotation later.entries now (report path change entry none) created =
        some value →
      FitsWith path (publicFields (annotated (reportRest change entry none) value))

variable {rules config collector manifest later clock baseline snapshot}
variable {path : RawText} {change : FimChange} {entry : FimEntry} {note : Option JsonFields}

/-! ### Reports -/

/-- An annotation, if there is one, is of an accepted entry of a manifest. -/
def Announced (note : Option JsonFields) : Prop :=
  ∀ value, note = some value → ∃ entry : ManifestEntry, value = entry.json

theorem announced_annotationAtScan :
    Announced (rules.annotationAtScan manifest clock path change entry) :=
  fun _ hvalue => annotation_some hvalue

theorem announced_none : Announced none := fun _ hvalue => nomatch hvalue

theorem length_reportedPath (path : RawText) : (reportedPath path).length ≤ 2048 := by
  rw [reportedPath, ← String.length_toList, String.toList_ofList]
  exact List.length_take_le _ _

def reportKeys : List String :=
  ["path", "change", "kind", "mode", "uid", "gid", "size", "mtime_ns", "ctime_ns", "device",
    "inode", "sha256", "target_sha256", "anomaly", "expected_change"]

theorem isAttributeKey_report : ∀ key ∈ reportKeys, isAttributeKey key = true := by
  decide

theorem mem_optional {key : String} {value : Option Json} {field : String × Json} :
    field ∈ FimEntry.optional key value ↔ field.1 = key ∧ value = some field.2 := by
  cases value with
  | none => simp [FimEntry.optional]
  | some found =>
    simp only [FimEntry.optional, Option.map_some, Option.toList_some, List.mem_singleton,
      Option.some.injEq, Prod.ext_iff]
    constructor
    · rintro ⟨hkey, hvalue⟩
      exact ⟨hkey, hvalue.symm⟩
    · rintro ⟨hkey, hvalue⟩
      exact ⟨hkey, hvalue.symm⟩

theorem validateAttributes_digest {digest : String} (hdigest : isDigest digest = true) :
    validateAttributes 1 (.str digest) = .ok () := by
  have hlength : digest.toList.length = 64 := by
    simp only [isDigest, Bool.and_eq_true, decide_eq_true_eq] at hdigest
    exact hdigest.1
  rw [validateAttributes_str_ok, ← String.length_toList, hlength]
  decide

theorem mem_reported {field : String × Json} (hfield : field ∈ entry.reported) :
    field.1 ∈ reportKeys ∧ validateAttributes 1 field.2 = .ok () ∧
      field.1 ≠ "expected_change" := by
  unfold FimEntry.reported at hfield
  rcases List.mem_append.mp hfield with hnumber | hoptional
  · simp only [List.mem_cons, List.not_mem_nil, or_false] at hnumber
    rcases hnumber with rfl | rfl | rfl | rfl | rfl | rfl | rfl | rfl <;>
      exact ⟨by simp [reportKeys], rfl, by simp⟩
  · simp only [List.mem_append, mem_optional, Option.map_eq_some_iff] at hoptional
    obtain ⟨key, value⟩ := field
    rcases hoptional with (⟨rfl, digest, hdigest, rfl⟩ | ⟨rfl, digest, hdigest, rfl⟩) |
      ⟨rfl, anomaly, _, rfl⟩
    · exact ⟨by simp [reportKeys], validateAttributes_digest (entry.sha256_digest _ hdigest),
        by simp⟩
    · exact ⟨by simp [reportKeys],
        validateAttributes_digest (entry.targetSha256_digest _ hdigest), by simp⟩
    · exact ⟨by simp [reportKeys], by cases anomaly <;> decide, by simp⟩

theorem mem_report (hannounced : Announced note) {field : String × Json}
    (hfield : field ∈ report path change entry note) :
    field.1 ∈ reportKeys ∧ validateAttributes 1 field.2 = .ok () ∧
      (field.1 = "expected_change" → note ≠ none) := by
  simp only [report, reportRest, List.mem_cons, List.mem_append, mem_optional,
    Option.map_eq_some_iff] at hfield
  rcases hfield with rfl | rfl | rfl | hreported | ⟨hkey, value, hvalue, hjson⟩
  · exact ⟨by simp [reportKeys],
      validateAttributes_str_ok.mpr ⟨by decide, length_reportedPath path⟩, by simp⟩
  · exact ⟨by simp [reportKeys], by cases change <;> decide, by simp⟩
  · exact ⟨by simp [reportKeys], by cases entry.kind <;> decide, by simp⟩
  · obtain ⟨hkey, hvalid, hother⟩ := mem_reported hreported
    exact ⟨hkey, hvalid, fun heq => absurd heq hother⟩
  · obtain ⟨announcing, rfl⟩ := hannounced value hvalue
    rw [hkey, ← hjson]
    exact ⟨by simp [reportKeys], validateAttributes_json announcing, by simp [hvalue]⟩

theorem field_report_none :
    (report path change entry none).field "expected_change" = none := by
  rw [JsonFields.field_eq_none_iff]
  intro field hfield heq
  exact (mem_report announced_none hfield).2.2 heq rfl

theorem isSet_report (hannounced : Announced note) :
    (report path change entry note).isSet "expected_change" = note.isSome := by
  cases note with
  | none =>
    rw [JsonFields.isSet, field_report_none]
    rfl
  | some value =>
    obtain ⟨announcing, rfl⟩ := hannounced value rfl
    have hreport : report path change entry (some announcing.json) =
        report path change entry none ++ [("expected_change", .obj announcing.json)] := by
      simp [report, reportRest, FimEntry.optional]
    rw [JsonFields.isSet, JsonFields.field, hreport, List.lookup_append]
    change ((report path change entry none).field "expected_change" |>.or _).any _ = _
    rw [field_report_none]
    rfl

theorem length_report_le : (report path change entry note).length ≤ 15 := by
  have hoptional (key : String) (value : Option Json) :
      (FimEntry.optional key value).length ≤ 1 := by
    cases value <;> simp [FimEntry.optional]
  have hsha := hoptional "sha256" (entry.sha256.map .str)
  have htarget := hoptional "target_sha256" (entry.targetSha256.map .str)
  have hanomaly := hoptional "anomaly" (entry.anomaly.map fun anomaly => .str anomaly.text)
  have hexpected := hoptional "expected_change" (note.map .obj)
  simp only [report, reportRest, FimEntry.reported, List.length_cons, List.length_append,
    List.length_nil]
  omega

/-- Fields that are valid as the attributes of an event, whatever their size. -/
structure FieldsValid (fields : JsonFields) : Prop where
  attributes : validateAttributes 0 (.obj fields) = .ok ()
  noSource : fields.field "source_ip" = none

theorem fieldsValid_of_keys {fields : JsonFields} (hlength : fields.length ≤ 16)
    (hfields : ∀ field ∈ fields, field.1 ∈ reportKeys ∧ validateAttributes 1 field.2 = .ok ()) :
    FieldsValid fields where
  attributes := by
    rw [validateAttributes_obj_ok]
    refine ⟨by decide, by omega, ?_⟩
    intro field hfield
    obtain ⟨hkey, hvalid⟩ := hfields field hfield
    exact ⟨isAttributeKey_report _ hkey, hvalid⟩
  noSource := by
    rw [JsonFields.field_eq_none_iff]
    intro field hfield heq
    have hkey := (hfields field hfield).1
    rw [heq] at hkey
    exact absurd hkey (by decide)

theorem fieldsValid_filter {fields : JsonFields} (keeps : String × Json → Bool)
    (hvalid : FieldsValid fields) : FieldsValid (fields.filter keeps) where
  attributes := by
    have hattributes := validateAttributes_obj_ok.mp hvalid.attributes
    rw [validateAttributes_obj_ok]
    refine ⟨hattributes.1, (List.length_filter_le _ _).trans hattributes.2.1, ?_⟩
    intro field hfield
    exact hattributes.2.2 field (List.mem_filter.mp hfield).1
  noSource := by
    rw [JsonFields.field_eq_none_iff]
    intro field hfield
    exact JsonFields.field_eq_none_iff.mp hvalid.noSource field (List.mem_filter.mp hfield).1

theorem fieldsValid_report (hannounced : Announced note) :
    FieldsValid (report path change entry note) := by
  refine fieldsValid_of_keys (length_report_le.trans (by decide)) ?_
  intro field hfield
  obtain ⟨hkey, hvalid, _⟩ := mem_report hannounced hfield
  exact ⟨hkey, hvalid⟩

theorem fieldsValid_annotated (announcing : ManifestEntry) :
    FieldsValid (annotated (report path change entry none) announcing.json) := by
  refine fieldsValid_of_keys ?_ ?_
  · have hlength : (report path change entry none).length ≤ 15 := length_report_le
    rw [annotated, List.length_append, List.length_singleton]
    omega
  · intro field hfield
    rcases List.mem_append.mp hfield with hreport | hnoted
    · obtain ⟨hkey, hvalid, _⟩ := mem_report announced_none hreport
      exact ⟨hkey, hvalid⟩
    · rw [List.mem_singleton.mp hnoted]
      exact ⟨by simp [reportKeys], validateAttributes_json announcing⟩

/-! ### Sizes -/

theorem fitsWith_iff {rest : JsonFields} (hrest : rest ≠ []) :
    (Json.obj (("path", .str (reportedPath path)) :: rest)).size ≤ maxAttributeBytes ↔
      FitsWith path rest := by
  obtain ⟨next, others, rfl⟩ := List.exists_cons_of_ne_nil hrest
  have hkey : Json.textSize "path" = 6 := by decide
  rw [Json.size_obj_cons_cons, FitsWith, hkey, Json.size]
  omega

theorem size_report_iff :
    (Json.obj (report path change entry note)).size ≤ maxAttributeBytes ↔
      FitsWith path (reportRest change entry note) :=
  fitsWith_iff (List.cons_ne_nil _ _)

theorem publicFields_report (rest : JsonFields) :
    publicFields (("path", .str (reportedPath path)) :: rest) =
      ("path", .str (reportedPath path)) :: publicFields rest := by
  have hpath : (!privateFields.contains "path") = true := by decide
  rw [publicFields, List.filter_cons, if_pos hpath]
  rfl

theorem publicFields_reportRest_ne_nil (rest : JsonFields) :
    publicFields (("change", .str change.text) :: rest) ≠ [] := by
  have hchange : (!privateFields.contains "change") = true := by decide
  rw [publicFields, List.filter_cons, if_pos hchange]
  exact List.cons_ne_nil _ _

theorem size_annotated_iff (value : JsonFields) :
    (Json.obj (publicFields (annotated (report path change entry none) value))).size ≤
        maxAttributeBytes ↔
      FitsWith path (publicFields (annotated (reportRest change entry none) value)) := by
  change (Json.obj (publicFields (_ :: annotated (reportRest change entry none) value))).size ≤
    maxAttributeBytes ↔ _
  rw [publicFields_report]
  exact fitsWith_iff (publicFields_reportRest_ne_nil _)

/-! ### The observations of a scan -/

theorem mem_changedPaths {current : Snapshot} :
    path ∈ changedPaths baseline current ↔
      path ∈ current.map Prod.fst ∨ path ∈ baseline.map Prod.fst := by
  rw [changedPaths, List.mem_mergeSort, List.mem_dedup, List.mem_append]

theorem mem_of_lookup_ne_none {current : Snapshot} (hfound : current.lookup path ≠ none) :
    path ∈ current.map Prod.fst := by
  by_contra hmissing
  apply hfound
  rw [List.lookup_eq_none_iff]
  intro found hmem
  rw [bne_iff_ne]
  intro heq
  exact hmissing (List.mem_map.mpr ⟨found, hmem, heq.symm⟩)

theorem Changed.mem_changedPaths (hchanged : Changed baseline snapshot path change entry) :
    path ∈ changedPaths baseline snapshot := by
  rw [Sensor.mem_changedPaths]
  unfold Changed at hchanged
  by_cases hafter : snapshot.lookup path = none
  · right
    apply mem_of_lookup_ne_none
    intro hbefore
    rw [hafter, hbefore] at hchanged
    cases hchanged
  · exact .inl (mem_of_lookup_ne_none hafter)

theorem mem_diff {found : Observation} :
    found ∈ rules.diff collector manifest clock baseline ⟨snapshot, true⟩ ↔
      (∃ path change entry, Changed baseline snapshot path change entry ∧
        found = rules.changeObservation manifest.entries clock path change entry) ∨
      ∃ error : String, error ≠ "" ∧ error.length ≤ 256 ∧
        (∃ message, manifest = .error message ∧
          error = String.ofList (message.toList.take 256)) ∧
        found = rules.errorObservation collector clock error := by
  have hchanges : found ∈ (changedPaths baseline snapshot).filterMap (fun path =>
      (changeOf (baseline.lookup path) (snapshot.lookup path)).map fun found =>
        rules.changeObservation manifest.entries clock path found.1 found.2) ↔
      ∃ path change entry, Changed baseline snapshot path change entry ∧
        found = rules.changeObservation manifest.entries clock path change entry := by
    simp only [List.mem_filterMap, Option.map_eq_some_iff, Prod.exists]
    constructor
    · rintro ⟨path, _, change, entry, hchanged, heq⟩
      exact ⟨path, change, entry, hchanged, heq.symm⟩
    · rintro ⟨path, change, entry, hchanged, heq⟩
      exact ⟨path, Changed.mem_changedPaths hchanged, change, entry, hchanged, heq.symm⟩
  simp only [FimRules.diff, Bool.not_true, Bool.false_eq_true, if_false, List.mem_append, hchanges]
  refine or_congr_right ?_
  cases hmanifest : manifest with
  | ok entries => simp
  | error message =>
    have hlength : (String.ofList (message.toList.take 256)).length ≤ 256 := by
      rw [← String.length_toList, String.toList_ofList]
      exact List.length_take_le _ _
    simp only
    split
    next hempty =>
      constructor
      · exact nofun
      · rintro ⟨error, hnonempty, _, ⟨other, hother, rfl⟩, _⟩
        cases hother
        exact absurd hempty hnonempty
    next hnonempty =>
      rw [List.mem_singleton]
      constructor
      · intro heq
        exact ⟨_, hnonempty, hlength, ⟨message, rfl, rfl⟩, heq⟩
      · rintro ⟨error, _, _, ⟨other, hother, rfl⟩, heq⟩
        cases hother
        exact heq

theorem Changed.mem_diff (hchanged : Changed baseline snapshot path change entry) :
    rules.changeObservation manifest.entries clock path change entry ∈
      rules.diff collector manifest clock baseline ⟨snapshot, true⟩ :=
  Sensor.mem_diff.mpr (.inl ⟨path, change, entry, hchanged, rfl⟩)

/-! ### Annotation of a spooled event -/

theorem changedRow_payload (call : AnnotateCall) (row : EventRow) :
    (call.changedRow row).payload = row.payload ∨
      ∃ value, row.payload.kind = fimChange ∧
        row.payload.attributes.isSet "expected_change" = false ∧
        call.annotation row.payload row.created = some value ∧
        (call.changedRow row).payload = { row.payload with
          attributes := row.payload.attributes.set "expected_change" (.obj value) } := by
  have hextended (deadline : Time) : (row.extendedTo deadline).payload = row.payload := by
    unfold EventRow.extendedTo
    split <;> rfl
  unfold AnnotateCall.changedRow
  split
  · exact .inl rfl
  next hwaiting =>
    have hkind : row.payload.kind = fimChange := by
      by_contra hkind
      exact hwaiting (by simp [show row.payload.kind ≠ "fim.change" from hkind])
    have hunset : row.payload.attributes.isSet "expected_change" = false := by
      by_contra hset
      exact hwaiting (by simp [hset])
    simp only
    split
    · exact .inl (hextended _)
    · cases hvalue : call.annotation row.payload row.created with
      | none => exact .inl (hextended _)
      | some value =>
        refine .inr ⟨value, hkind, hunset, rfl, ?_⟩
        simp only [EventRow.annotated, hextended]

theorem changedRow_annotated {call : AnnotateCall} {row : EventRow} {value : JsonFields}
    (hkind : row.payload.kind = fimChange)
    (hunset : row.payload.attributes.isSet "expected_change" = false)
    (hpaths : call.activePaths = []) (hwaiting : call.now < row.annotationDeadline)
    (hentries : call.entries = true)
    (hvalue : call.annotation row.payload row.created = some value) :
    (call.changedRow row).payload = { row.payload with
      attributes := row.payload.attributes.set "expected_change" (.obj value) } := by
  have hdeadline : call.extendedDeadline row = row.annotationDeadline := by
    have hinactive : ((row.payload.attributes.field "path").any fun path =>
        call.activePaths.any fun text => path.isText text) = false := by
      rw [hpaths]
      cases row.payload.attributes.field "path" <;> rfl
    simp only [AnnotateCall.extendedDeadline, hinactive, Bool.false_and, Bool.false_eq_true,
      if_false]
  have hfim : (row.payload.kind ≠ "fim.change" : Bool) = false := by
    simp [show row.payload.kind = "fim.change" from hkind]
  have hlate : ¬ row.annotationDeadline ≤ call.now := Int.not_le.mpr hwaiting
  simp only [AnnotateCall.changedRow, hfim, hunset, Bool.or_false, Bool.false_eq_true, if_false,
    hdeadline, hlate, decide_false, hentries, Bool.not_true, hvalue, EventRow.annotated,
    EventRow.extendedTo, Int.lt_irrefl]

theorem withoutPrivateFields_change {event : Event} (hkind : event.kind = fimChange) :
    event.withoutPrivateFields =
      { event with attributes := publicFields event.attributes } := by
  have hfim : event.kind = "fim.change" := hkind
  rw [Event.withoutPrivateFields, if_pos hfim, JsonFields.foldl_pop]
  rfl

theorem baselineRows_isSome {entries : List (RawText × JsonFields)} :
    (baselineRows entries).isSome = true ↔
      ∀ entry ∈ entries, (RawText.encoded entry.1).isSome = true := by
  induction entries with
  | nil => simp [baselineRows]
  | cons entry rest ih =>
    rw [List.forall_mem_cons, ← ih]
    cases hencoded : RawText.encoded entry.1 with
    | none => simp [baselineRows, hencoded]
    | some chars =>
      cases hrest : baselineRows rest with
      | none => simp [baselineRows, hencoded, hrest]
      | some others => simp [baselineRows, hencoded, hrest]

theorem flushDueRows_of_noWindow {store : Store}
    (hnone : store.aggregates = ({} : Store).aggregates) :
    (rules.flushDueRows config 0 store).isSome = true := by
  rw [Rules.flushDueRows, hnone]
  simp [Table.orderedBy, Table.select, Table.empty, run]

/-! ### Events of a scan -/

/-- The environment of the collector behaves as documented: a digest is one, the clock
writes timestamps that are accepted, and the fixed proofs of local observations are
about sudo commands and sessions only. -/
structure FimRules.Sound (rules : FimRules) (clock : FimClock) : Prop where
  digest : ∀ text, isDigest (rules.digest text) = true
  dated : ∀ source, ∃ instant, rules.Dated (clock.utcNow source) instant
  classify : ∀ found : Observation, found.kind ≠ sudoCommand → found.kind ≠ "auth.session_open" →
    rules.classify found = none

variable (hsound : rules.Sound clock)
include hsound

/-- An observation of the collector makes an event exactly when its attributes have the size. -/
theorem validateEvent_fim {found : Observation} {attributes : JsonFields}
    {source : Option RawText} (hkind : isKind found.kind = true)
    (hsummary : found.summary ≠ "" ∧ found.summary.length ≤ maxSummary)
    (hrecommendation : found.recommendation = "review")
    (hobserved : found.observedAt = clock.utcNow source) (hvalid : FieldsValid attributes) :
    rules.validateEvent { rules.assembleEvent config.sensorId found 1 "" "" with
      attributes := attributes } = .ok () ↔
        (Json.obj attributes).size ≤ maxAttributeBytes := by
  rw [Library.validateEvent_ok]
  constructor
  · rintro ⟨_, _, _, hcontent⟩
    exact hcontent.size
  · intro hsize
    obtain ⟨instant, hdated⟩ := hsound.dated source
    rw [← hobserved] at hdated
    have hcount : 1 ≤ 1 ∧ 1 ≤ Library.maxCount := by decide
    have htext : String.ofList (found.summary.toList.take maxSummary) = found.summary := by
      rw [List.take_of_length_le (by rw [String.length_toList]; exact hsummary.2),
        String.ofList_toList]
    refine ⟨hsound.digest _, ⟨instant, instant, hdated, hdated, hdated, le_refl _⟩, hcount,
      ⟨hkind, ?_, ?_, hvalid.attributes, hsize, ?_⟩⟩
    · change String.ofList _ ≠ "" ∧ (String.ofList _).length ≤ maxSummary
      rw [htext]
      exact hsummary
    · change recommendations.contains found.recommendation = true
      rw [hrecommendation]
      decide
    · intro source hfield
      rw [hvalid.noSource] at hfield
      cases hfield

/-- The event that is made of an observation, before its validation. -/
def FimRules.assembled (rules : FimRules) (config : Config) (found : Observation) : Event :=
  rules.assembleEvent config.sensorId found 1 "" ""

theorem validateEvent_change {fields : JsonFields} (hvalid : FieldsValid fields) :
    rules.validateEvent { rules.assembled config
        (rules.changeObservation manifest.entries clock path change entry) with
      attributes := fields } = .ok () ↔ (Json.obj fields).size ≤ maxAttributeBytes := by
  have hkind : isKind fimChange = true := by decide
  have hsummary : "Targeted filesystem integrity change" ≠ "" ∧
      "Targeted filesystem integrity change".length ≤ maxSummary := by decide
  exact validateEvent_fim hsound hkind hsummary rfl rfl hvalid

theorem accepted_change_iff :
    (rules.makeSingleEvent config.sensorId
      (rules.changeObservation manifest.entries clock path change entry)).toOption.isSome = true ↔
      FitsWith path
        (reportRest change entry (rules.annotationAtScan manifest clock path change entry)) := by
  rw [Library.makeSingleEvent, Library.makeEvent_isSome, ← size_report_iff]
  exact validateEvent_change hsound (fieldsValid_report announced_annotationAtScan)

theorem validateEvent_error {error : String} (herror : error.length ≤ 256) :
    rules.validateEvent
      (rules.assembled config (rules.errorObservation collector clock error)) = .ok () := by
  have htier := length_le_of_startsAndGoesOn collector.tier_name
  have hvalid : FieldsValid [("tier", .str collector.tier), ("error", .str error)] := by
    refine ⟨?_, rfl⟩
    rw [validateAttributes_obj_ok]
    refine ⟨by decide, by simp, ?_⟩
    simp only [List.forall_mem_cons, validateAttributes_str_ok]
    exact ⟨⟨by decide, by decide, by omega⟩, ⟨by decide, by decide, by omega⟩,
      nofun⟩
  have hkind : isKind fimExpectedChangeError = true := by decide
  have hsummary : "Expected-change evidence was malformed; changes remain unexplained" ≠ "" ∧
      "Expected-change evidence was malformed; changes remain unexplained".length ≤ maxSummary := by
    decide
  refine (validateEvent_fim hsound hkind hsummary rfl rfl hvalid).mpr ?_
  have htierSize := Json.textSize_le collector.tier
  have herrorSize := Json.textSize_le error
  have htierKey : Json.textSize "tier" = 6 := by decide
  have herrorKey : Json.textSize "error" = 7 := by decide
  simp only [Json.size, Json.fieldsSize, Json.commas, List.length_cons, List.length_nil,
    htierKey, herrorKey, maxAttributeBytes]
  omega

/-- An observation of the collector that makes an event is spooled; no window is touched. -/
theorem ingestOne_fim {found : Observation} (now : Time) (store : Store)
    (hkind : found.kind ≠ sudoCommand) (hsession : found.kind ≠ "auth.session_open")
    (haggregate : found.aggregate = false)
    (haccepted : (rules.makeSingleEvent config.sensorId found).toOption.isSome = true) :
    ∃ next, rules.ingestOne config found now store = some next ∧
      next.aggregates = store.aggregates := by
  obtain ⟨event, hevent⟩ := Option.isSome_iff_exists.mp haccepted
  have hclassifier : rules.classifier found = none := by
    rw [Rules.classifier, haggregate]
    exact hsound.classify found hkind hsession
  refine ⟨(enqueue config event now .ordinary .observation store).1, ?_, enqueue_aggregates⟩
  simp only [Rules.ingestOne, Rules.projected, if_neg hkind, Option.bind_eq_bind,
    Option.bind_some, hclassifier, Option.isSome_none, Bool.false_eq_true, if_false, haggregate,
    Bool.not_false, if_true, hevent]
  rfl

theorem validateEvent_public {fields : JsonFields} (hvalid : FieldsValid fields) :
    rules.validateEvent ({ rules.assembled config
        (rules.changeObservation manifest.entries clock path change entry) with
      attributes := fields }).withoutPrivateFields = .ok () ↔
        (Json.obj (publicFields fields)).size ≤ maxAttributeBytes := by
  rw [withoutPrivateFields_change rfl]
  exact validateEvent_change hsound (fieldsValid_filter _ hvalid)

theorem delivered_change
    (hfits : NamesFit rules manifest later clock baseline snapshot)
    (hchanged : Changed baseline snapshot path change entry) {row : EventRow}
    {activePaths : List String} {now : Time}
    (hpayload : row.payload = rules.assembled config
      (rules.changeObservation manifest.entries clock path change entry)) :
    rules.validateEvent (((rules.annotateCall later activePaths now).changedRow
      row).payload.withoutPrivateFields) = .ok () := by
  have hannounced : Announced (rules.annotationAtScan manifest clock path change entry) :=
    announced_annotationAtScan
  have hattributes : row.payload.attributes =
      report path change entry (rules.annotationAtScan manifest clock path change entry) := by
    rw [hpayload]
    rfl
  rcases changedRow_payload (rules.annotateCall later activePaths now) row with
    hsame | ⟨value, _, hunset, hvalue, hannotated⟩
  · rw [hsame, hpayload]
    apply (validateEvent_public hsound (fieldsValid_report hannounced)).mpr
    exact (Json.size_obj_filter_le _ _).trans
      (size_report_iff.mpr (hfits.reported path change entry hchanged))
  · rw [hattributes, isSet_report hannounced, Option.isSome_eq_false_iff,
      Option.isNone_iff_eq_none] at hunset
    rw [hunset] at hattributes
    change rules.attributesAnnotation _ _ row.payload.attributes _ = _ at hvalue
    rw [hattributes] at hvalue
    have hroom := hfits.annotated path change entry hchanged hunset _ _ _ hvalue
    obtain ⟨announcing, rfl⟩ := attributesAnnotation_some hvalue
    rw [hannotated, hattributes, JsonFields.set_of_field_none _ field_report_none, hpayload]
    exact (validateEvent_public hsound (fieldsValid_annotated announcing)).mpr
      ((size_annotated_iff _).mpr hroom)

theorem fits_of_delivered
    (hreports : ReportsEveryName rules config collector manifest later clock baseline snapshot)
    (hchanged : Changed baseline snapshot path change entry)
    (hunannotated : rules.annotationAtScan manifest clock path change entry = none) {now : Int}
    {created : Time} {value : JsonFields}
    (hvalue : rules.attributesAnnotation later.entries now (report path change entry none)
      created = some value) :
    FitsWith path (publicFields (annotated (reportRest change entry none) value)) := by
  obtain ⟨event, hevent⟩ :=
    Option.isSome_iff_exists.mp (hreports.accepted _ (Changed.mem_diff hchanged))
  rw [toOption_some] at hevent
  have hpayload : event = rules.assembled config
      (rules.changeObservation manifest.entries clock path change entry) :=
    Library.makeEvent_ok _ hevent
  have hattributes : event.attributes = report path change entry none := by
    rw [hpayload, ← hunannotated]
    rfl
  -- A row that waits until after the annotation.
  let row : EventRow :=
    { payload := event, severity := .high, created := created, annotationDeadline := now + 1 }
  have hentries : (rules.annotateCall later [] now).entries = true := by
    change (!later.entries.isEmpty) = true
    by_contra hempty
    simp only [Bool.not_eq_true, Bool.not_eq_false', List.isEmpty_iff] at hempty
    obtain ⟨announcing, hannouncing⟩ : ∃ announcing, announcing ∈ later.entries := by
      unfold FimRules.attributesAnnotation at hvalue
      split at hvalue
      · obtain ⟨announcing, hfind, _⟩ := Option.map_eq_some_iff.mp hvalue
        exact ⟨announcing, List.mem_of_find?_eq_some hfind⟩
      · cases hvalue
    rw [hempty] at hannouncing
    cases hannouncing
  have hannotated : ((rules.annotateCall later [] now).changedRow row).payload =
      { event with attributes := event.attributes.set "expected_change" (.obj value) } := by
    apply changedRow_annotated
    · change event.kind = fimChange
      rw [hpayload]
      rfl
    · change event.attributes.isSet "expected_change" = false
      rw [hattributes, isSet_report announced_none]
      rfl
    · rfl
    · exact Int.lt_succ now
    · exact hentries
    · change rules.attributesAnnotation _ _ event.attributes _ = _
      rw [hattributes]
      exact hvalue
  have hvalid := hreports.delivered _ (Changed.mem_diff hchanged) event hevent row [] now rfl
  obtain ⟨announcing, rfl⟩ := attributesAnnotation_some hvalue
  rw [hannotated, hattributes, JsonFields.set_of_field_none _ field_report_none, hpayload] at hvalid
  exact (size_annotated_iff _).mp
    ((validateEvent_public hsound (fieldsValid_annotated announcing)).mp hvalid)

/-- A complete scan is reported, delivered and committed whatever the names of its files
exactly when the names fit. -/
theorem reportsEveryName_iff_namesFit :
    ReportsEveryName rules config collector manifest later clock baseline snapshot ↔
      NamesFit rules manifest later clock baseline snapshot := by
  constructor
  · intro hreports
    have haccepted {path : RawText} {change : FimChange} {entry : FimEntry}
        (hchanged : Changed baseline snapshot path change entry) :=
      hreports.accepted _ (Changed.mem_diff hchanged)
    refine ⟨?_, ?_, ?_⟩
    · obtain ⟨last, hlast⟩ :=
        Option.isSome_iff_exists.mp (hreports.commits 0 {} fun _ => flushDueRows_of_noWindow)
      simp only [Rules.recordFimScan, Option.bind_eq_bind, Option.bind_eq_some_iff] at hlast
      obtain ⟨ingested, _, recorded, hrecorded, _⟩ := hlast
      have hcomplete : (rules.scanCall collector manifest clock baseline
          ⟨snapshot, true⟩ 0).complete = true := rfl
      rw [recordBaseline, if_pos hcomplete] at hrecorded
      obtain ⟨rows, hrows, _⟩ := Option.map_eq_some_iff.mp hrecorded
      have hencoded := baselineRows_isSome.mp (Option.isSome_iff_exists.mpr ⟨rows, hrows⟩)
      intro entry hentry
      exact hencoded (entry.1, entry.2.json) (List.mem_map.mpr ⟨entry, hentry, rfl⟩)
    · intro path change entry hchanged
      exact (accepted_change_iff hsound).mp (haccepted hchanged)
    · intro path change entry hchanged hunannotated now created value hvalue
      exact fits_of_delivered hsound hreports hchanged hunannotated hvalue
  · intro hfits
    have haccepted : ∀ found ∈ rules.diff collector manifest clock baseline ⟨snapshot, true⟩,
        (rules.makeSingleEvent config.sensorId found).toOption.isSome = true := by
      intro found hfound
      rcases mem_diff.mp hfound with ⟨path, change, entry, hchanged, rfl⟩ |
        ⟨error, _, hlength, _, rfl⟩
      · exact (accepted_change_iff hsound).mpr (hfits.reported path change entry hchanged)
      · rw [Library.makeSingleEvent, Library.makeEvent_isSome]
        exact validateEvent_error hsound hlength
    refine ⟨haccepted, ?_, ?_⟩
    · intro found hfound event hevent row activePaths now hpayload
      have hmade := Library.makeEvent_ok _ hevent
      rcases mem_diff.mp hfound with ⟨path, change, entry, hchanged, rfl⟩ |
        ⟨error, _, hlength, _, rfl⟩
      · exact delivered_change hsound hfits hchanged (hpayload.trans hmade)
      · have hkind : row.payload.kind ≠ "fim.change" := by
          rw [hpayload, hmade]
          exact (by decide : fimExpectedChangeError ≠ "fim.change")
        rcases changedRow_payload (rules.annotateCall later activePaths now) row with
          hsame | ⟨value, hchange, _⟩
        · rw [hsame, Event.withoutPrivateFields, if_neg hkind, hpayload, hmade]
          exact validateEvent_error hsound hlength
        · exact absurd hchange hkind
    · intro now store hflushed
      have hingested : ∃ ingested, run (fun store observation =>
          rules.ingestOne config observation now (store.note (.received observation))) store
          (rules.diff collector manifest clock baseline ⟨snapshot, true⟩) = some ingested ∧
            ingested.aggregates = store.aggregates := by
        refine exists_run ?_ rfl
        intro found hfound before hbefore
        obtain ⟨hsudo, hsession, haggregate⟩ : found.kind ≠ sudoCommand ∧
            found.kind ≠ "auth.session_open" ∧ found.aggregate = false := by
          rcases mem_diff.mp hfound with ⟨path, change, entry, _, rfl⟩ | ⟨error, _, _, _, rfl⟩
          · exact ⟨(by decide : fimChange ≠ _), (by decide : fimChange ≠ _), rfl⟩
          · exact ⟨(by decide : fimExpectedChangeError ≠ _),
              (by decide : fimExpectedChangeError ≠ _), rfl⟩
        obtain ⟨next, hnext, hsame⟩ := ingestOne_fim hsound now
          (before.note (.received found)) hsudo hsession haggregate (haccepted found hfound)
        exact ⟨next, hnext, hsame.trans hbefore⟩
      obtain ⟨ingested, hingested, hwindows⟩ := hingested
      have hstored : (baselineRows (snapshot.map fun entry => (entry.1, entry.2.json))).isSome =
          true := by
        rw [baselineRows_isSome, List.forall_mem_map]
        exact hfits.stored
      obtain ⟨rows, hrows⟩ := Option.isSome_iff_exists.mp hstored
      simp only [Rules.recordFimScan, FimRules.scanCall, hingested, recordBaseline, if_true, hrows,
        Option.map_some, Option.bind_eq_bind, Option.bind_some]
      exact hflushed _ hwindows

omit hsound

/-! ### One new directory -/

def newDirectory : FimEntry where
  mode := 493
  uid := 0
  gid := 0
  size := 4096
  mtimeNs := 0
  ctimeNs := 0
  device := 1
  inode := 2
  kind := .directory

/-- Digests and texts that are right for one new directory. -/
def directoryRules (eventId fingerprint : String) : FimRules :=
  { sampleRules with
    digest := fun _ => eventId
    dumps := fun _ => "\x7b\"ctime_ns\":0,\"device\":1,\"gid\":0,\"inode\":2,\"kind\":\"directory\"," ++
      "\"mode\":493,\"mtime_ns\":0,\"size\":4096,\"uid\":0\x7d"
    fingerprint := fun _ _ => fingerprint }

def fullTier : FimCollector where
  profile := "server"
  tier := "full"
  baselineKey := "server:full"
  tier_name := by decide

def steadyClock : FimClock where
  now _ := 0
  utcNow _ := "2026-08-11T02:44:00Z"

/-- `b"/etc/bad-\xff"`, decoded with `surrogateescape`. -/
def undecodablePath : RawText := RawText.ofString "/etc/bad-" ++ [.surrogate 0x4FF]

/-- The name of a directory that is no valid text makes the scan roll back. -/
theorem not_reportsEveryName_undecodable :
    ¬ ReportsEveryName
      (directoryRules "3fc7c60b4a3bb64647230ace2afe6a51c712a755e31bad73946f77bdbc3224c9"
        "d7fe9a2f2be8dcb2693412e6c6a1a708da39191020e308ed39cff723d26f7f7e")
      { sensorId := "web1" } fullTier (.ok []) (.ok []) steadyClock []
      [(undecodablePath, newDirectory)] := by
  intro hreports
  exact absurd (hreports.commits 0 {} fun _ => flushDueRows_of_noWindow) (by decide +kernel)

theorem reportsEveryName_newDirectory :
    ReportsEveryName
      (directoryRules "04eafd4772a4b9a4c2d23e75b7f6a598dead2d0c1ee3a5aec38b9cb9ce787be1"
        "d695b728ab0c3ccdff694016445f3929a28965695cdc0e581eedcb5042807e23")
      { sensorId := "web1" } fullTier (.ok []) (.ok []) steadyClock []
      [(RawText.ofString "/etc/new", newDirectory)] := by
  refine (reportsEveryName_iff_namesFit ⟨?_, ?_, fun _ _ _ => rfl⟩).mpr ⟨?_, ?_, ?_⟩
  · intro text
    change isDigest "04eafd4772a4b9a4c2d23e75b7f6a598dead2d0c1ee3a5aec38b9cb9ce787be1" = true
    decide
  · intro source
    exact ⟨0, (by decide : "2026-08-11T02:44:00Z".length ≤ 40), rfl⟩
  · intro entry hentry
    rw [List.mem_singleton.mp hentry]
    decide
  · intro path change entry hchanged
    have hpath : path = RawText.ofString "/etc/new" := by
      by_contra hother
      simp [Changed, changeOf, List.lookup_cons, beq_eq_false_iff_ne.mpr hother] at hchanged
    subst hpath
    obtain ⟨rfl, rfl⟩ : FimChange.created = change ∧ newDirectory = entry := by
      simpa [Changed, changeOf, List.lookup_cons] using hchanged
    unfold FitsWith
    decide
  · intro path change entry _ _ now created value hvalue
    simp [FimRules.attributesAnnotation, FimRules.annotationFor, Manifest.entries, report,
      reportRest, JsonFields.field, List.lookup_cons] at hvalue

end DjangoMojo.Sensor
