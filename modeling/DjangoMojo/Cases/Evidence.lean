import DjangoMojo.Foundation.Json

/-! # What a receipt contributes to a case

The evidence of a sensor event decides the case it belongs to, how urgent it is by
itself, and the bounded sample that the case keeps of it.
-/

namespace DjangoMojo.Cases

open Foundation

abbrev Time := Int

inductive Urgency where
  | info | warning | high | critical
  deriving DecidableEq, Repr

namespace Urgency

/-- `_URGENCY_RANK`. -/
def rank : Urgency → Int
  | info => 0
  | warning => 1
  | high => 2
  | critical => 3

/-- `urgency in ("high", "critical")`. -/
def isPromoted (urgency : Urgency) : Bool := urgency = high || urgency = critical

theorem rank_le_critical (urgency : Urgency) : urgency.rank ≤ critical.rank := by
  cases urgency <;> decide

theorem rank_nonneg (urgency : Urgency) : 0 ≤ urgency.rank := by
  cases urgency <;> decide

end Urgency

/-- The rank of a projected urgency, which is blank until the first projection. -/
def projectedRank (projected : Option Urgency) : Int := projected.elim (-1) Urgency.rank

inductive SensorKind where
  | web | fim | auth | host | campaign
  deriving DecidableEq, Repr

inductive Reason where
  | unknownEvidence | shadowObservation
  | trustedImpossiblePath | trustedBoundedResponse
  | trustedDeploymentChange | unexplainedProtectedChange | fimCollectorOverflow
  | sshFailuresObserved | sshLogin | sudoSession | sudoFailuresObserved
  | serviceFailure | oomKill
  | sustainedTrustedImpossiblePaths | sshFailureThenSuccess | sshLoginDuringFailureBurst
  | sshFailureBurst | serviceFailureBurst | corroboratedCompromise | distributedCampaign
  | deploymentReopened | deploymentQuietWindow
  deriving DecidableEq, Repr

/-- `CORROBORATION_REASONS`. -/
def corroborationReasons : List Reason :=
  [.unexplainedProtectedChange, .sshFailureThenSuccess, .serviceFailureBurst,
    .fimCollectorOverflow, .sustainedTrustedImpossiblePaths]

/-- `HOST_KINDS`: the kinds whose input names them. -/
inductive HostKind where
  | sshFailure | sshLogin | sudoCommand | sudoFailure | oom | serviceError
  deriving DecidableEq, Repr

def HostKind.text : HostKind → String
  | sshFailure => "auth.ssh_failure"
  | sshLogin => "auth.ssh_login"
  | sudoCommand => "auth.sudo_command"
  | sudoFailure => "auth.sudo_failure"
  | oom => "system.oom"
  | serviceError => "system.service_error"

inductive Evidence where
  | web (family network resourceId path responseClass : String) (policyVersion : Nat)
      (redirect : Bool) (sourceIp : Option String)
  | deployment (operation tier deploymentId : String)
  | change (tier : String)
  | overflow (tier : String)
  | ssh (login : Bool) (user : String) (sourceIp : Option String)
  | sudoCommand (actor targetUser commandPath : String) (sourceIp : Option String)
  | sudoFailure
  | serviceError (unit failureKind : String)
  | oom (unit : String)

structure BreakdownInput where
  operation : String
  tier : String
  count : Nat

/-- What `_case_input` normalizes an event to. -/
structure CaseInput where
  sensorKind : SensorKind
  family : String
  network : String := ""
  resourceId : String
  policyVersion : Nat := 1
  observed : Time
  windowStart : Time
  windowEnd : Time
  occurrences : Nat
  projectedEvents : Nat := 1
  urgency : Urgency
  urgencyReason : Reason
  deploymentId : String := ""
  breakdown : Option BreakdownInput := none
  sample : Json
  sourceIp : Option String := none
  sampleKey : String
  correlationKey : String
  windowKey : String
  wireKind : Option HostKind := none

structure Naming where
  /-- `_digest`. -/
  digest : List Json → String
  isoformat : Time → String
  isodate : Time → String
  /-- `_source_network`. -/
  sourceNetwork : String → String

def minute : Time := 60 * 1000000
def hour : Time := 60 * minute

/-- The part of the hour that a time lies in; `minutes` divides sixty. -/
def window (value : Time) (minutes : Int) : Time × Time :=
  let start := value - value % (minutes * minute)
  (start, start + minutes * minute)

def Naming.windowKey (naming : Naming) (start stop : Time) : String :=
  naming.digest [.str (naming.isoformat start), .str (naming.isoformat stop)]

def orUnknown (text : String) : String := if text = "" then "unknown" else text

/-- `[:length]`. -/
def cut (length : Nat) (text : String) : String := String.ofList (text.toList.take length)

/-- `_case_input`, after the event is decoded; `observed` is bounded by the clock of the
server. -/
def caseInput (naming : Naming) (apiKey : Nat) (sensorId : String) (observed : Time)
    (count : Nat) : Evidence → CaseInput
  | .web family network resourceId path responseClass policyVersion redirect sourceIp =>
    let (start, stop) := window observed 60
    { sensorKind := .web, family, network, resourceId := orUnknown resourceId
      policyVersion := if policyVersion = 0 then 1 else policyVersion
      observed, windowStart := start, windowEnd := stop, occurrences := count
      projectedEvents := if redirect then 0 else 1
      urgency := if responseClass = "impossible_path" then .warning else .info
      urgencyReason := if responseClass = "impossible_path" then .trustedImpossiblePath
        else .trustedBoundedResponse
      sample := .obj [("family", .str family), ("network", .str network),
        ("resource_id", .str (orUnknown resourceId)),
        ("response_class", .str (orUnknown responseClass)),
        ("path_shape_sha256", .str (naming.digest [.str path]))]
      sourceIp
      sampleKey := naming.digest [.str family, .str network, .str resourceId, .str path]
      correlationKey := naming.digest [.str "web", .str family, .str network, .str resourceId,
        .int policyVersion]
      windowKey := naming.windowKey start stop }
  | .deployment operation tier deploymentId =>
    { sensorKind := .fim, family := "deployment"
      resourceId := "installation:" ++ toString apiKey
      observed, windowStart := observed, windowEnd := observed, occurrences := count
      urgency := .info, urgencyReason := .trustedDeploymentChange
      deploymentId
      breakdown := some ⟨operation, tier, count⟩
      sample := .obj [("operation", .str operation), ("tier", .str tier)]
      sampleKey := naming.digest [.str "deploy", .str operation, .str tier]
      correlationKey := naming.digest [.str "fim.deploy", .str sensorId, .str deploymentId]
      windowKey := naming.digest [.str "fim.deploy", .str deploymentId,
        .str (naming.isodate observed)] }
  | .change tier => protectedChange tier tier .high .unexplainedProtectedChange
  | .overflow tier => protectedChange tier "overflow" .critical .fimCollectorOverflow
  | .ssh login user sourceIp =>
    let kind := if login then HostKind.sshLogin else .sshFailure
    let ipKey := sourceIp.getD "unknown"
    { host kind with
      sensorKind := .auth, family := "ssh", network := naming.sourceNetwork ipKey
      resourceId := cut 96 ("user:" ++ user)
      urgencyReason := if login then .sshLogin else .sshFailuresObserved
      sourceIp
      breakdown := some ⟨kind.text, "auth", count⟩
      sample := .obj [("kind", .str kind.text), ("user", .str user),
        ("network", .str (naming.sourceNetwork ipKey))]
      sampleKey := naming.digest [.str kind.text, .str ipKey, .str user]
      correlationKey := naming.digest [.str "auth.ssh", .str sensorId, .str ipKey, .str user] }
  | .sudoCommand actor targetUser commandPath sourceIp =>
    let kind := HostKind.sudoCommand
    { host kind with
      sensorKind := .auth, family := "sudo", resourceId := cut 96 ("user:" ++ actor)
      urgencyReason := .sudoSession
      sourceIp
      breakdown := some ⟨kind.text, "auth", count⟩
      sample := .obj ([("kind", .str kind.text), ("actor", .str actor),
        ("target_user", .str targetUser)] ++
        if commandPath = "" then [] else [("command_path", .str commandPath)])
      sampleKey := naming.digest [.str kind.text, .str actor, .str targetUser, .str commandPath]
      correlationKey := naming.digest [.str "auth.sudo", .str sensorId, .str actor,
        .str targetUser] }
  | .sudoFailure =>
    let kind := HostKind.sudoFailure
    { host kind with
      sensorKind := .auth, family := "sudo_failure"
      urgency := .warning, urgencyReason := .sudoFailuresObserved
      breakdown := some ⟨kind.text, "auth", count⟩
      sample := .obj [("kind", .str kind.text)]
      sampleKey := naming.digest [.str kind.text, .str sensorId]
      correlationKey := naming.digest [.str "auth.sudo_failure", .str sensorId] }
  | .serviceError unit failureKind =>
    let kind := HostKind.serviceError
    { host kind with
      family := "service"
      urgency := .warning, urgencyReason := .serviceFailure
      breakdown := some ⟨cut 96 unit, cut 64 failureKind, count⟩
      sample := .obj [("kind", .str kind.text), ("unit", .str unit),
        ("failure_kind", .str failureKind)]
      sampleKey := naming.digest [.str kind.text, .str unit, .str failureKind]
      correlationKey := naming.digest [.str "host.service", .str sensorId, .str unit,
        .str failureKind] }
  | .oom unit =>
    let kind := HostKind.oom
    { host kind with
      family := "oom"
      urgency := .critical, urgencyReason := .oomKill
      breakdown := some ⟨cut 96 unit, "oom", count⟩
      sample := .obj [("kind", .str kind.text), ("unit", .str unit)]
      sampleKey := naming.digest [.str kind.text, .str unit]
      correlationKey := naming.digest [.str "host.oom", .str sensorId] }
where
  protectedChange (tier family : String) (urgency : Urgency) (reason : Reason) : CaseInput :=
    let (start, stop) := window observed 15
    { sensorKind := .fim, family, resourceId := "installation:" ++ toString apiKey
      observed, windowStart := start, windowEnd := stop, occurrences := count
      urgency, urgencyReason := reason
      sample := .obj [("family", .str family), ("protected_tier", .str tier),
        ("operation", .str "unknown")]
      sampleKey := naming.digest [.str tier, .str family, .str "untrusted"]
      correlationKey := naming.digest [.str "fim", .str tier, .str family, .str "untrusted"]
      windowKey := naming.windowKey start stop }
  host (kind : HostKind) : CaseInput :=
    let (start, stop) := window observed 60
    { sensorKind := .host, family := "", resourceId := "installation:" ++ toString apiKey
      observed, windowStart := start, windowEnd := stop, occurrences := count
      urgency := .info, urgencyReason := .unknownEvidence
      sample := .null
      sampleKey := "", correlationKey := ""
      windowKey := naming.windowKey start stop
      wireKind := some kind }

theorem caseInput_warning {naming : Naming} {apiKey count : Nat} {sensorId : String}
    {observed : Time} {evidence : Evidence}
    (hwarning : (caseInput naming apiKey sensorId observed count evidence).urgency = .warning) :
    (caseInput naming apiKey sensorId observed count evidence).wireKind ≠ some .sshLogin := by
  cases evidence with
  | ssh login => cases hwarning
  | web => exact (Option.some_ne_none _).symm
  | deployment => exact (Option.some_ne_none _).symm
  | change => exact (Option.some_ne_none _).symm
  | overflow => exact (Option.some_ne_none _).symm
  | sudoCommand => cases hwarning
  | sudoFailure => exact fun hkind => nomatch hkind
  | serviceError => exact fun hkind => nomatch hkind
  | oom => cases hwarning

end DjangoMojo.Cases
