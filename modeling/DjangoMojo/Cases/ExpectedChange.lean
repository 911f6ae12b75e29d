import DjangoMojo.Cases.Evidence
import DjangoMojo.Foundation.Checks

/-! # Changes that a deployment explains

A sensor annotates a file change with the deployment that made it. A well formed and
fresh annotation makes the change evidence of that deployment, which stays quiet; any
other change is unexplained. The annotation in its second format also says when its
operation was completed, and its lifetime counts from then.
-/

namespace DjangoMojo.Cases

open Foundation

/-! ### Times -/

/-- Times count from 1 January of the year 1, and the calendar ends with the year 9999. -/
def calendarEnd : Time := 3652059 * 24 * hour

def InCalendar (time : Time) : Prop := 0 ≤ time ∧ time < calendarEnd

instance (time : Time) : Decidable (InCalendar time) := inferInstanceAs (Decidable (_ ∧ _))

def inCalendar (time : Time) : Except String Time :=
  if InCalendar time then .ok time else .error "date value out of range"

def second : Time := 1000000

def later (time : Time) (seconds : Int) : Except String Time := inCalendar (time + seconds * second)

def maxExpectedTtlSeconds : Int := 900

def maxFutureSkewSeconds : Int := 3600

/-- `future_skew_seconds`, from the value of the setting. -/
def futureSkewSeconds : Json → Int
  | .int value => if 0 ≤ value ∧ value ≤ maxFutureSkewSeconds then value else 0
  | _ => 0

/-! ### Annotations -/

def tokenChar (char : Char) : Bool :=
  ('A' ≤ char ∧ char ≤ 'Z') ∨ ('a' ≤ char ∧ char ≤ 'z') ∨ ('0' ≤ char ∧ char ≤ '9') ∨
    char = '.' ∨ char = '_' ∨ char = ':' ∨ char = '-'

/-- The text of a value that `_TOKEN` accepts. -/
def token : Json → Option String
  | .str text =>
    if 1 ≤ text.length ∧ text.length ≤ 128 ∧ text.toList.all tokenChar then some text else none
  | _ => none

/-- `value.get(name)`. -/
def field (value : JsonFields) (name : String) : Json := (value.lookup name).getD .null

def v1Fields : List String := ["deployment_id", "expires_at"]

def v2Fields : List String := v1Fields ++ ["operation_id", "operation_kind", "completed_at"]

/-- `set(value) == names`. -/
def hasFields (value : JsonFields) (names : List String) : Bool :=
  value.all (fun entry => entry.1 ∈ names) && names.all fun name => name ∈ value.map Prod.fst

/-- What `_safe_expected` returns. -/
structure Expected where
  deploymentId : String
  operationKind : String
  deriving DecidableEq

/-- The names of an annotation that has the fields of one of the formats. -/
def namesOf (value : JsonFields) : Option Expected :=
  if hasFields value v1Fields || hasFields value v2Fields then do
    let deployment ← token (field value "deployment_id")
    let operation ← token ((value.lookup "operation_kind").getD (.str "deployment"))
    some ⟨deployment, operation⟩
  else none

section

-- `datetime.fromisoformat` of the text of a value, where `Z` stands for `+00:00`: the
-- local time and the UTC offset of an aware timestamp.
variable (fromisoformat : Json → Option (Time × Time))

def instantOf (value : Json) : Option Time :=
  (fromisoformat value).map fun aware => aware.1 - aware.2

/-- `_observed`. -/
def observedOf (value : Json) : Except String (Option Time) :=
  match fromisoformat value with
  | none => .ok none
  | some (wall, offset) => do
      let instant ← inCalendar (wall - offset)
      pure (some instant)

/-- The annotation expires soon enough: after the completion of the operation, or in the
first format after the observation. -/
def livesShortly (value : JsonFields) (observed expires : Time) : Except String Bool :=
  if hasFields value v2Fields then
    if (token (field value "operation_id")).isNone then pure false
    else do
      match ← observedOf fromisoformat (field value "completed_at") with
      | none => pure false
      | some completed =>
        if expires < completed then pure false
        else do
          let bound ← later completed maxExpectedTtlSeconds
          pure (expires ≤ bound)
  else do
    let bound ← later observed maxExpectedTtlSeconds
    pure (expires ≤ bound)

/-- `_safe_expected`. -/
def safeExpected (attributes : JsonFields) (observed : Time) : Except String (Option Expected) :=
  match field attributes "expected_change" with
  | .obj value =>
    match namesOf value with
    | none => pure none
    | some names => do
        match ← observedOf fromisoformat (field value "expires_at") with
        | none => pure none
        | some expires =>
          if expires < observed then pure none
          else do
            let trusted ← livesShortly fromisoformat value observed expires
            pure (if trusted then some names else none)
  | _ => pure none

/-! ### The receiver -/

/-- A row of `MojoSecDeployment`. -/
structure DeploymentRow where
  installationKey : Nat
  deploymentId : String
  expiresAt : Time

structure Receiver where
  naming : Naming
  apiKey : Nat
  sensorId : String
  /-- `receipt.created`, when it is an aware datetime. -/
  created : Option Time
  /-- `dates.utcnow()`. -/
  now : Time
  skewSetting : Json
  binding : Option JsonFields
  deployments : List DeploymentRow

/-- A sensor event of the kind `fim.change`. -/
structure FimChange where
  lastSeen : Json
  count : Json
  attributes : Json

namespace Receiver

variable (receiver : Receiver)

def clock : Time := receiver.created.getD receiver.now

/-- The last instant that the clock and its allowance permit. -/
def latest : Time := receiver.clock + futureSkewSeconds receiver.skewSetting * second

/-- `_bounded_observed`. -/
def boundedObserved (observed : Time) : Except String Time := do
  let bound ← later receiver.clock (futureSkewSeconds receiver.skewSetting)
  pure (if bound < observed then receiver.clock else observed)

/-- `_deployment_registered`, at the time of the server. -/
def registered (deploymentId : String) : Bool :=
  receiver.deployments.any fun row =>
    row.installationKey = receiver.apiKey ∧ row.deploymentId = deploymentId ∧
      receiver.now ≤ row.expiresAt

def requiresRegistration : Bool :=
  receiver.binding.any fun row => (field row "require_registered_deployments").truthy

end Receiver

/-- `_fim_tier`; no text but that of a string starts with a slash. -/
def fimTier : Json → String
  | .str path =>
    let tiers := [("/etc/", "system_config"), ("/usr/", "system_binary"),
      ("/opt/", "application"), ("/var/www/", "web_content"), ("/var/lib/", "service_state")]
    match tiers.find? fun tier => tier.1.toList.isPrefixOf (cut 512 path).toList with
    | some tier => tier.2
    | none => "other_protected"
  | _ => "other_protected"

def attributesOf : Json → JsonFields
  | .obj fields => fields
  | _ => []

/-- `count`, unless it is refused. -/
def countOf : Json → Option Nat
  | .int count => if 1 ≤ count then some count.toNat else none
  | _ => none

def judgedInput (receiver : Receiver) (observed : Time) (count : Nat) (tier : String) :
    Option Expected → Except String CaseInput
  | some names =>
    pure (caseInput receiver.naming receiver.apiKey receiver.sensorId observed count
      (.deployment names.operationKind tier names.deploymentId))
  | none => do
      let _ ← inCalendar (window observed 15).2
      pure (caseInput receiver.naming receiver.apiKey receiver.sensorId observed count
        (.change tier))

/-- `_case_input` of a `fim.change` event. -/
def fimChangeInput (receiver : Receiver) (change : FimChange) :
    Except String (Option CaseInput) := do
  match ← observedOf fromisoformat change.lastSeen with
  | none => pure none
  | some claimed =>
    let observed ← receiver.boundedObserved claimed
    match countOf change.count with
    | none => pure none
    | some count =>
      let attributes := attributesOf change.attributes
      let expected ← safeExpected fromisoformat attributes observed
      let expected := expected.filter fun names =>
        !receiver.requiresRegistration || receiver.registered names.deploymentId
      let input ← judgedInput receiver observed count (fimTier (field attributes "path"))
        expected
      pure (some input)

/-! ### What an annotation is trusted for -/

def ttl : Time := maxExpectedTtlSeconds * second

/-- The lifetime is short, as far as the times can be read. -/
def LivesShortly (value : JsonFields) (observed expires : Time) : Prop :=
  if hasFields value v2Fields then
    (token (field value "operation_id")).isSome ∧ ∃ completed,
      instantOf fromisoformat (field value "completed_at") = some completed ∧
        completed ≤ expires ∧ expires ≤ completed + ttl
  else expires ≤ observed + ttl

/-- The times that the lifetime is judged by are in the calendar. -/
def LifetimeInCalendar (value : JsonFields) (observed expires : Time) : Prop :=
  if hasFields value v2Fields then
    (token (field value "operation_id")).isSome → ∀ completed,
      instantOf fromisoformat (field value "completed_at") = some completed →
        InCalendar completed ∧ (completed ≤ expires → InCalendar (completed + ttl))
  else InCalendar (observed + ttl)

def Accepted (value : JsonFields) (observed : Time) (names : Expected) : Prop :=
  namesOf value = some names ∧ ∃ expires,
    instantOf fromisoformat (field value "expires_at") = some expires ∧ observed ≤ expires ∧
      LivesShortly fromisoformat value observed expires

/-- The times that the annotation is judged by are in the calendar. -/
def AnnotationInCalendar (value : JsonFields) (observed : Time) : Prop :=
  (namesOf value).isSome → ∀ expires,
    instantOf fromisoformat (field value "expires_at") = some expires →
      InCalendar expires ∧
        (observed ≤ expires → LifetimeInCalendar fromisoformat value observed expires)

/-- The annotation of the attributes; one that is not an object has no fields. -/
def annotationOf (attributes : JsonFields) : JsonFields :=
  attributesOf (field attributes "expected_change")

variable {fromisoformat}

theorem inCalendar_ok {time found : Time} :
    inCalendar time = .ok found ↔ InCalendar time ∧ time = found := by
  unfold inCalendar
  split
  next hin => simp [hin]
  next hout => simp [hout]

theorem observedOf_ok {value : Json} {found : Option Time} :
    observedOf fromisoformat value = .ok found ↔
      instantOf fromisoformat value = found ∧ ∀ instant, found = some instant →
        InCalendar instant := by
  unfold observedOf instantOf
  cases fromisoformat value with
  | none =>
    simp only [Option.map_none, Except.ok.injEq]
    constructor
    · rintro rfl
      exact ⟨rfl, nofun⟩
    · exact And.left
  | some aware =>
    simp only [bind_ok, inCalendar_ok, pure_ok, Option.map_some]
    constructor
    · rintro ⟨instant, ⟨hin, rfl⟩, rfl⟩
      exact ⟨rfl, fun other hother => by cases hother; exact hin⟩
    · rintro ⟨rfl, hin⟩
      exact ⟨_, ⟨hin _ rfl, rfl⟩, rfl⟩

theorem observedOf_bind {Value : Type} {value : Json} {found : Option Time}
    {next : Option Time → Except String Value} {result : Value}
    (hfound : instantOf fromisoformat value = found) :
    (observedOf fromisoformat value >>= next) = .ok result ↔
      (∀ instant, found = some instant → InCalendar instant) ∧ next found = .ok result := by
  rw [bind_ok]
  constructor
  · rintro ⟨other, hother, hnext⟩
    obtain ⟨hsame, hin⟩ := observedOf_ok.mp hother
    obtain rfl := hfound.symm.trans hsame
    exact ⟨hin, hnext⟩
  · intro ⟨hin, hnext⟩
    exact ⟨found, observedOf_ok.mpr ⟨hfound, hin⟩, hnext⟩

theorem livesShortly_ok {value : JsonFields} {observed expires : Time} {trusted : Bool} :
    livesShortly fromisoformat value observed expires = .ok trusted ↔
      LifetimeInCalendar fromisoformat value observed expires ∧
        (trusted = true ↔ LivesShortly fromisoformat value observed expires) := by
  have hbound (start : Time) : (do
        let bound ← later start maxExpectedTtlSeconds
        pure (decide (expires ≤ bound)) : Except String Bool) = .ok trusted ↔
      InCalendar (start + ttl) ∧ (trusted = true ↔ expires ≤ start + ttl) := by
    rw [later, bind_ok]
    simp only [inCalendar_ok, pure_ok]
    change (∃ bound, (InCalendar (start + ttl) ∧ start + ttl = bound) ∧ _) ↔ _
    constructor
    · rintro ⟨_, ⟨hin, rfl⟩, rfl⟩
      exact ⟨hin, decide_eq_true_iff⟩
    · rintro ⟨hin, hsame⟩
      refine ⟨_, ⟨hin, rfl⟩, ?_⟩
      rw [Bool.eq_iff_iff, hsame, decide_eq_true_iff]
  unfold livesShortly LifetimeInCalendar LivesShortly
  split
  next hv2 =>
    cases token (field value "operation_id") with
    | none => simp
    | some operation =>
      simp only [Option.isNone_some, Bool.false_eq_true, if_false, Option.isSome_some,
        true_and, forall_const]
      rw [observedOf_bind rfl]
      cases instantOf fromisoformat (field value "completed_at") with
      | none => simp
      | some completed =>
        by_cases horder : completed ≤ expires
        · simp only [Option.some.injEq, forall_eq', exists_eq_left', horder, true_and,
            forall_const, if_neg (Int.not_lt.mpr horder), hbound, and_assoc]
        · simp [horder, if_pos (Int.not_le.mp horder)]
  next hv1 => exact hbound observed

theorem namedExpected_ok {value : JsonFields} {observed : Time} {names : Expected}
    {expected : Option Expected} (hnames : namesOf value = some names) :
    (observedOf fromisoformat (field value "expires_at") >>= fun expires =>
        match expires with
        | none => pure none
        | some expires =>
          if expires < observed then pure none
          else do
            let trusted ← livesShortly fromisoformat value observed expires
            pure (if trusted then some names else none)) = .ok expected ↔
      AnnotationInCalendar fromisoformat value observed ∧
        ∀ other, expected = some other ↔ Accepted fromisoformat value observed other := by
  have hnone : none = expected ↔ ∀ other, ¬expected = some other := by
    cases expected with
    | none => simp
    | some names => simp
  rw [observedOf_bind rfl]
  unfold AnnotationInCalendar Accepted
  rw [hnames]
  cases instantOf fromisoformat (field value "expires_at") with
  | none => simp [hnone]
  | some expires =>
    by_cases horder : observed ≤ expires
    · simp only [if_neg (Int.not_lt.mpr horder), bind_ok, livesShortly_ok, pure_ok,
        Option.some.injEq, forall_eq', Option.isSome_some, forall_const, exists_eq_left', horder,
        true_and, and_assoc]
      refine and_congr_right fun _ => ?_
      constructor
      · rintro ⟨trusted, hlife, hlives, rfl⟩
        refine ⟨hlife, fun other => ?_⟩
        cases trusted with
        | true => simp [hlives.mp rfl]
        | false => simpa using fun _ hother => Bool.false_ne_true (hlives.mpr hother)
      · rintro ⟨hlife, hexpected⟩
        by_cases hlives : LivesShortly fromisoformat value observed expires
        · exact ⟨true, hlife, iff_of_true rfl hlives,
            ((hexpected names).mpr ⟨rfl, hlives⟩).symm⟩
        · refine ⟨false, hlife, iff_of_false Bool.false_ne_true hlives, hnone.mpr ?_⟩
          exact fun other hother => hlives ((hexpected other).mp hother).2
    · simp [horder, if_pos (Int.not_le.mp horder), hnone]

/-- An annotation is judged when its times are in the calendar, and what it is accepted
with is what it names. -/
theorem safeExpected_ok {attributes : JsonFields} {observed : Time}
    {expected : Option Expected} :
    safeExpected fromisoformat attributes observed = .ok expected ↔
      AnnotationInCalendar fromisoformat (annotationOf attributes) observed ∧
        ∀ names, expected = some names ↔
          Accepted fromisoformat (annotationOf attributes) observed names := by
  have hnone {refused : JsonFields} (hrefused : namesOf refused = none) :
      (pure none : Except String (Option Expected)) = .ok expected ↔
        AnnotationInCalendar fromisoformat refused observed ∧
          ∀ names, expected = some names ↔ Accepted fromisoformat refused observed names := by
    unfold AnnotationInCalendar Accepted
    rw [hrefused, pure_ok]
    cases expected with
    | none => simp
    | some names => simp
  unfold safeExpected annotationOf
  cases field attributes "expected_change" with
  | obj value =>
    cases hnames : namesOf value with
    | none =>
      dsimp only
      rw [hnames]
      exact hnone hnames
    | some names =>
      dsimp only
      rw [hnames]
      exact namedExpected_ok hnames
  | null => exact hnone rfl
  | bool => exact hnone rfl
  | int => exact hnone rfl
  | float => exact hnone rfl
  | str => exact hnone rfl
  | arr => exact hnone rfl

/-! ### What the change becomes -/

/-- The observation that the claimed time stands for: no later than the clock allows. -/
def Receiver.heldTo (receiver : Receiver) (claimed : Time) : Time :=
  if receiver.latest < claimed then receiver.clock else claimed

theorem boundedObserved_ok {receiver : Receiver} {claimed observed : Time} :
    receiver.boundedObserved claimed = .ok observed ↔
      InCalendar receiver.latest ∧ receiver.heldTo claimed = observed := by
  unfold Receiver.boundedObserved
  rw [later, bind_ok]
  simp only [inCalendar_ok, pure_ok]
  constructor
  · rintro ⟨_, ⟨hin, rfl⟩, hobserved⟩
    exact ⟨hin, hobserved⟩
  · rintro ⟨hin, hobserved⟩
    exact ⟨_, ⟨hin, rfl⟩, hobserved⟩

variable (fromisoformat) in
/-- The receiver takes an annotation with these names as evidence of a deployment. -/
def Receiver.Takes (receiver : Receiver) (value : JsonFields) (observed : Time)
    (names : Expected) : Prop :=
  Accepted fromisoformat value observed names ∧
    (receiver.requiresRegistration → receiver.registered names.deploymentId)

variable (fromisoformat)

/-- The event can be read, and its times and those of its annotation are in the calendar. -/
structure Readable (receiver : Receiver) (change : FimChange) (claimed : Time) (count : Nat) :
    Prop where
  reads : instantOf fromisoformat change.lastSeen = some claimed
  claimedIn : InCalendar claimed
  latestIn : InCalendar receiver.latest
  counts : countOf change.count = some count
  annotationIn : AnnotationInCalendar fromisoformat (annotationOf (attributesOf change.attributes))
    (receiver.heldTo claimed)

/-- The annotation that makes a change evidence of a deployment: one of the two formats,
not expired, short of life after the observation or after a completion that is not ahead
of the clock, and registered where that is required. -/
structure Trusted (receiver : Receiver) (value : JsonFields) (observed : Time)
    (deploymentId : String) : Prop where
  fields : hasFields value v1Fields ∨ hasFields value v2Fields
  deployment : token (field value "deployment_id") = some deploymentId
  operation : hasFields value v2Fields →
    (token (field value "operation_id")).isSome ∧ (token (field value "operation_kind")).isSome
  lifetime : ∃ expires, instantOf fromisoformat (field value "expires_at") = some expires ∧
    observed ≤ expires ∧ (expires ≤ observed + ttl ∨ hasFields value v2Fields ∧ ∃ completed,
      instantOf fromisoformat (field value "completed_at") = some completed ∧
        expires ≤ completed + ttl ∧ completed ≤ receiver.latest)
  registered : receiver.requiresRegistration → receiver.registered deploymentId

/-- A lifetime that is long after the observation counts from a completion that is not
ahead of the clock. -/
def CompletedByNow (receiver : Receiver) (value : JsonFields) (observed : Time) : Prop :=
  hasFields value v2Fields → ∀ expires completed,
    instantOf fromisoformat (field value "expires_at") = some expires →
      instantOf fromisoformat (field value "completed_at") = some completed →
        observed + ttl < expires → completed ≤ receiver.latest

variable {fromisoformat}

theorem judgedInput_ok {receiver : Receiver} {observed : Time} {count : Nat} {tier : String}
    {expected : Option Expected} {input : CaseInput} :
    judgedInput receiver observed count tier expected = .ok input ↔
      (∃ names, expected = some names ∧ caseInput receiver.naming receiver.apiKey
          receiver.sensorId observed count
          (.deployment names.operationKind tier names.deploymentId) = input) ∨
        expected = none ∧ InCalendar (window observed 15).2 ∧ caseInput receiver.naming
          receiver.apiKey receiver.sensorId observed count (.change tier) = input := by
  cases expected with
  | none =>
    simp only [judgedInput, bind_ok, inCalendar_ok, pure_ok]
    simp
  | some names => simp [judgedInput]

theorem exists_accepted (value : JsonFields) (observed : Time) :
    ∃ accepted : Option Expected, ∀ names, accepted = some names ↔
      Accepted fromisoformat value observed names := by
  by_cases hsome : ∃ names, Accepted fromisoformat value observed names
  · obtain ⟨names, haccepted⟩ := hsome
    refine ⟨some names, fun other => ?_⟩
    constructor
    · intro heq
      cases heq
      exact haccepted
    · intro hother
      exact haccepted.1.symm.trans hother.1
  · exact ⟨none, fun names => iff_of_false nofun fun haccepted => hsome ⟨names, haccepted⟩⟩

theorem fimChangeInput_ok {receiver : Receiver} {change : FimChange} {input : CaseInput} :
    fimChangeInput fromisoformat receiver change = .ok (some input) ↔
      ∃ claimed count, Readable fromisoformat receiver change claimed count ∧
        ∃ expected : Option Expected, (∀ names, expected = some names ↔
            receiver.Takes fromisoformat (annotationOf (attributesOf change.attributes))
              (receiver.heldTo claimed) names) ∧
          judgedInput receiver (receiver.heldTo claimed) count
            (fimTier (field (attributesOf change.attributes) "path")) expected =
              .ok input := by
  have hregistered (names : Expected) : (!receiver.requiresRegistration ||
      receiver.registered names.deploymentId) = true ↔
        (receiver.requiresRegistration → receiver.registered names.deploymentId) := by
    cases receiver.requiresRegistration with
    | false => simp
    | true => simp
  unfold fimChangeInput
  rw [observedOf_bind rfl]
  cases hreads : instantOf fromisoformat change.lastSeen with
  | none =>
    refine iff_of_false (by rintro ⟨_, hnone⟩; cases hnone) ?_
    rintro ⟨claimed, count, hreadable, _⟩
    cases hreads.symm.trans hreadable.reads
  | some claimed =>
    simp only [Option.some.injEq, forall_eq', bind_ok, boundedObserved_ok]
    cases hcount : countOf change.count with
    | none =>
      refine iff_of_false (by rintro ⟨_, _, _, hnone⟩; cases hnone) ?_
      rintro ⟨_, count, hreadable, _⟩
      cases hcount.symm.trans hreadable.counts
    | some count =>
      simp only [bind_ok, safeExpected_ok, pure_ok]
      constructor
      · rintro ⟨hclaimed, _, ⟨hlatest, rfl⟩, expected, ⟨hnoted, hexpected⟩, other,
          hjudged, hsame⟩
        cases hsame
        refine ⟨claimed, count, ⟨hreads, hclaimed, hlatest, hcount, hnoted⟩, _,
          fun names => ?_, hjudged⟩
        rw [Option.filter_eq_some_iff, hexpected, Receiver.Takes, hregistered]
      · rintro ⟨_, _, hreadable, expected, hexpected, hjudged⟩
        cases hreads.symm.trans hreadable.reads
        cases hcount.symm.trans hreadable.counts
        obtain ⟨accepted, haccepted⟩ := @exists_accepted fromisoformat
          (annotationOf (attributesOf change.attributes)) (receiver.heldTo claimed)
        refine ⟨hreadable.claimedIn, _, ⟨hreadable.latestIn, rfl⟩, accepted,
          ⟨hreadable.annotationIn, haccepted⟩, input, ?_, rfl⟩
        have hfilter : accepted.filter (fun names => !receiver.requiresRegistration ||
            receiver.registered names.deploymentId) = expected := by
          ext names
          rw [Option.filter_eq_some_iff, haccepted, hexpected, Receiver.Takes, hregistered]
        rw [hfilter]
        exact hjudged

theorem namesOf_some {value : JsonFields} {names : Expected} (hnames : namesOf value = some names) :
    (hasFields value v1Fields ∨ hasFields value v2Fields) ∧
      token (field value "deployment_id") = some names.deploymentId ∧
        (hasFields value v2Fields → (token (field value "operation_kind")).isSome) := by
  unfold namesOf at hnames
  split at hnames
  next hfields =>
    obtain ⟨deployment, hdeployment, hrest⟩ := Option.bind_eq_some_iff.mp hnames
    obtain ⟨operation, hoperation, hsame⟩ := Option.bind_eq_some_iff.mp hrest
    cases hsame
    refine ⟨by simpa using hfields, hdeployment, fun hv2 => ?_⟩
    have hpresent : "operation_kind" ∈ value.map Prod.fst := by
      have hnames := (Bool.and_eq_true_iff.mp hv2).2
      exact of_decide_eq_true (List.all_eq_true.mp hnames _ (by decide))
    cases hlookup : value.lookup "operation_kind" with
    | none =>
      obtain ⟨entry, hentry, hname⟩ := List.mem_map.mp hpresent
      have := List.lookup_eq_none_iff.mp hlookup entry hentry
      simp [hname] at this
    | some kind =>
      rw [hlookup] at hoperation
      rw [field, hlookup, Option.isSome_iff_exists]
      exact ⟨operation, hoperation⟩
  next => cases hnames

theorem trusted_of_takes {receiver : Receiver} {value : JsonFields} {observed : Time}
    {names : Expected} (htakes : receiver.Takes fromisoformat value observed names)
    (hcompleted : CompletedByNow fromisoformat receiver value observed) :
    Trusted fromisoformat receiver value observed names.deploymentId := by
  obtain ⟨⟨hnames, expires, hexpires, hfresh, hlives⟩, hregistered⟩ := htakes
  obtain ⟨hfields, hdeployment, hkind⟩ := namesOf_some hnames
  unfold LivesShortly at hlives
  by_cases hv2 : hasFields value v2Fields
  · rw [if_pos hv2] at hlives
    obtain ⟨hoperation, completed, hcompletedAt, horder, hshort⟩ := hlives
    refine ⟨hfields, hdeployment, fun _ => ⟨hoperation, hkind hv2⟩,
      ⟨expires, hexpires, hfresh, ?_⟩, hregistered⟩
    by_cases hlong : observed + ttl < expires
    · exact .inr ⟨hv2, completed, hcompletedAt, hshort,
        hcompleted hv2 expires completed hexpires hcompletedAt hlong⟩
    · exact .inl (Int.not_lt.mp hlong)
  · rw [if_neg hv2] at hlives
    exact ⟨hfields, hdeployment, fun hother => absurd hother hv2,
      ⟨expires, hexpires, hfresh, .inl hlives⟩, hregistered⟩

theorem completedByNow_of_trusted {receiver : Receiver} {value : JsonFields} {observed : Time}
    {deploymentId : String}
    (htrusted : Trusted fromisoformat receiver value observed deploymentId) :
    CompletedByNow fromisoformat receiver value observed := by
  intro _ expires completed hexpires hcompletedAt hlong
  obtain ⟨other, hother, _, hshort | ⟨_, found, hfound, _, hearly⟩⟩ := htrusted.lifetime
  · cases hexpires.symm.trans hother
    exact absurd hshort (Int.not_le.mpr hlong)
  · cases hcompletedAt.symm.trans hfound
    exact hearly

/-- A change is evidence of a deployment only with a trusted annotation, and urgent without
one, if and only if it can be read, its times do not leave the calendar, and an annotation
that is taken and long counts its lifetime from a completion that the clock has reached. -/
theorem fimChangeInput_trusted_iff (receiver : Receiver) (change : FimChange) :
    (∃ input, fimChangeInput fromisoformat receiver change = .ok (some input) ∧
        (input.urgencyReason = .trustedDeploymentChange ∧
            Trusted fromisoformat receiver (annotationOf (attributesOf change.attributes))
              input.observed input.deploymentId ∨
          input.urgencyReason = .unexplainedProtectedChange ∧ input.urgency = .high)) ↔
      ∃ claimed count, Readable fromisoformat receiver change claimed count ∧
        (∀ names, receiver.Takes fromisoformat (annotationOf (attributesOf change.attributes))
            (receiver.heldTo claimed) names →
          CompletedByNow fromisoformat receiver (annotationOf (attributesOf change.attributes))
            (receiver.heldTo claimed)) ∧
        ((∀ names, ¬receiver.Takes fromisoformat (annotationOf (attributesOf change.attributes))
            (receiver.heldTo claimed) names) →
          InCalendar (window (receiver.heldTo claimed) 15).2) := by
  simp only [fimChangeInput_ok]
  constructor
  · rintro ⟨input, ⟨claimed, count, hreadable, expected, hexpected, hjudged⟩, hclass⟩
    refine ⟨claimed, count, hreadable, ?_, ?_⟩
    · intro names htakes
      obtain rfl := (hexpected names).mpr htakes
      cases hjudged
      obtain ⟨_, htrusted⟩ | ⟨hreason, _⟩ := hclass
      · exact completedByNow_of_trusted htrusted
      · cases hreason
    · intro hnone
      obtain ⟨names, hsome, _⟩ | ⟨_, hwindow, _⟩ := judgedInput_ok.mp hjudged
      · exact absurd ((hexpected names).mp hsome) (hnone names)
      · exact hwindow
  · rintro ⟨claimed, count, hreadable, hcompleted, hwindow⟩
    by_cases hsome : ∃ names, receiver.Takes fromisoformat
        (annotationOf (attributesOf change.attributes)) (receiver.heldTo claimed) names
    · obtain ⟨names, htakes⟩ := hsome
      refine ⟨_, ⟨claimed, count, hreadable, some names, fun other => ?_, rfl⟩,
        .inl ⟨rfl, trusted_of_takes htakes (hcompleted names htakes)⟩⟩
      constructor
      · intro heq
        cases heq
        exact htakes
      · intro hother
        exact htakes.1.1.symm.trans hother.1.1
    · have hnone := not_exists.mp hsome
      refine ⟨caseInput receiver.naming receiver.apiKey receiver.sensorId
        (receiver.heldTo claimed) count
          (.change (fimTier (field (attributesOf change.attributes) "path"))),
        ⟨claimed, count, hreadable, none, fun names => ?_, ?_⟩, .inr ⟨rfl, rfl⟩⟩
      · exact iff_of_false nofun (hnone names)
      · exact judgedInput_ok.mpr (.inr ⟨rfl, hwindow hnone, rfl⟩)

end

/-! ### A completion far ahead -/

def january : Time := 739616 * 24 * hour

/-- The texts of the times of an event, and what they stand for. -/
def januaryTimes : Json → Option (Time × Time)
  | .str text =>
    if text = "2026-01-01T00:00:00Z" then some (january, 0)
    else if text = "2026-01-31T00:00:00Z" then some (january + 30 * 24 * hour, 0)
    else if text = "2026-01-31T00:15:00Z" then
      some (january + 30 * 24 * hour + 15 * minute, 0)
    else none
  | _ => none

def januaryReceiver : Receiver where
  naming := ⟨fun _ => "", fun _ => "", fun _ => "", id⟩
  apiKey := 1
  sensorId := "edge"
  created := some january
  now := january
  skewSetting := .int 300
  binding := none
  deployments := []

/-- A change of the first day whose operation is completed on the last one. -/
def remoteAnnotation : JsonFields :=
  [("deployment_id", .str "release"), ("expires_at", .str "2026-01-31T00:15:00Z"),
    ("operation_id", .str "op"), ("operation_kind", .str "sync"),
    ("completed_at", .str "2026-01-31T00:00:00Z")]

def remoteChange : FimChange where
  lastSeen := .str "2026-01-01T00:00:00Z"
  count := .int 1
  attributes := .obj [("path", .str "/etc/passwd"), ("expected_change", .obj remoteAnnotation)]

/-- The change is evidence of the deployment for the whole month. -/
theorem remoteChange_untrusted : ¬∃ input,
    fimChangeInput januaryTimes januaryReceiver remoteChange = .ok (some input) ∧
      (input.urgencyReason = .trustedDeploymentChange ∧
          Trusted januaryTimes januaryReceiver
            (annotationOf (attributesOf remoteChange.attributes)) input.observed
            input.deploymentId ∨
        input.urgencyReason = .unexplainedProtectedChange ∧ input.urgency = .high) := by
  rintro ⟨input, hinput, hclass⟩
  have hquiet : fimChangeInput januaryTimes januaryReceiver remoteChange =
      .ok (some (caseInput januaryReceiver.naming 1 "edge" january 1
        (.deployment "sync" "system_config" "release"))) := by
    rfl
  cases hquiet.symm.trans hinput
  obtain ⟨_, htrusted⟩ | ⟨hreason, _⟩ := hclass
  · have hcompleted := completedByNow_of_trusted htrusted rfl _ _ rfl rfl
    revert hcompleted
    decide
  · cases hreason

end DjangoMojo.Cases
