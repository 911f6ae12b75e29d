import DjangoMojo.Cases.CaseRow
import DjangoMojo.Foundation.Trace

/-! # Corroboration, projection and the sweeps

Beside contributions four transactions write cases: a search for corroborating evidence, the
projection of a promotion as an Event, the campaigns of the day, and the settling of quiet
deployments. Each holds the lock of the case that it writes.
-/

namespace DjangoMojo.Cases

open Foundation

namespace CaseRow

/-- The guards of `_corroborate_case` on the case itself. -/
def mayCorroborate (row : CaseRow) : Bool :=
  row.urgency.isPromoted && row.urgencyReason ≠ .corroboratedCompromise &&
    row.breakdown.corroboratedWith.isNone && row.projectedUrgency ≠ some .critical &&
    row.sensorKind ≠ .campaign

/-- Evidence of a login, or of a change that no deployment explains. -/
def isAnchor (row : CaseRow) : Bool :=
  row.sensorKind = .auth || (row.sensorKind = .fim && row.family ≠ "deployment")

/-- Two kinds of sensor take part, and one of the participants is an anchor. -/
def isCorroboratedBy (neighbors : List CaseRow) (row : CaseRow) : Bool :=
  2 ≤ ((row :: neighbors).map sensorKind).dedup.length && (row :: neighbors).any isAnchor

def corroborated (neighbors : List Nat) (row : CaseRow) : CaseRow :=
  { row with
    urgency := .critical, urgencyReason := .corroboratedCompromise
    state := .elevated, stateReason := .corroboratedCompromise
    breakdown := { row.breakdown with
      corroboratedWith := some (neighbors.take maxCorroboratingCases) } }

/-- What `_project_case` writes of the row. -/
def projected (row : CaseRow) : CaseRow :=
  { row with
    projectedUrgency := some row.urgency
    projectedEventCount := row.projectedEventCount + 1
    projectionDispatchedAt := none }

def settled (now : Time) (row : CaseRow) : CaseRow :=
  { row with state := .settled, stateReason := .deploymentQuietWindow, settledAt := some now }

end CaseRow

namespace Database

variable (db : Database)

/-! ### Corroboration -/

/-- The promoted cases of the sensor that were seen near the case. -/
def neighbors (settings : Settings) (id : Nat) (row : CaseRow) : List (Nat × CaseRow) :=
  (latestFirst (db.filter fun other found =>
    found.installationKey = row.installationKey && found.sensorId = row.sensorId &&
    row.lastSeen - settings.corroborationWindow ≤ found.lastSeen &&
    found.lastSeen ≤ row.lastSeen + settings.corroborationWindow &&
    found.urgency.isPromoted && other ≠ id && found.sensorKind ≠ .campaign &&
    found.family ≠ "deployment")).take 32

/-- `_corroborate_case`; a promotion is followed by a projection. -/
def corroborate (settings : Settings) (id : Nat) : Database × List Call :=
  match db.cases.get id with
  | none => (db, [])
  | some row =>
    let neighbors := db.neighbors settings id row
    if row.mayCorroborate && row.isCorroboratedBy (neighbors.map Prod.snd) then
      let promoted := row.corroborated (neighbors.map Prod.fst)
      ({ db with
        cases := db.cases.put id promoted
        transitions := db.transitions ++ [{
          case := id, kind := .promoted, reason := .corroboratedCompromise
          fromState := some row.state, toState := promoted.state
          fromUrgency := some row.urgency, toUrgency := promoted.urgency }] }, [.project id])
    else (db, [])

/-! ### Projection -/

def memberKeys (id : Nat) : List Nat :=
  ((latestFirst (db.filter fun _ row => row.campaign = some id)).take 64).map
    fun member => member.2.installationKey

/-- The guards of `_project_case`: the ratchet, and the mode of the installation. A campaign
surfaces when any member is authoritative. -/
def mayProject (settings : Settings) (id : Nat) (row : CaseRow) : Bool :=
  row.urgency.isPromoted && projectedRank row.projectedUrgency < row.urgency.rank &&
    if row.sensorKind = .campaign then (db.memberKeys id).any settings.isAuthoritative
    else settings.isAuthoritative row.installationKey

def nextEvent : Nat := db.events.length + 1

def promotionEvent (id : Nat) (row : CaseRow) (publication : Publication) : ProjectedEvent where
  id := db.nextEvent
  case := id
  level := if row.urgency = .critical then 12 else 8
  urgency := row.urgency
  reason := row.urgencyReason
  corroboratingCaseIds := (row.breakdown.corroboratedWith.filter (· ≠ [])).map
    (List.take maxCorroboratingCases)
  publication

/-- The transaction of `_project_case`, with the case and the Event it goes on with. -/
def projectCase (settings : Settings) (id : Nat) (publication : Publication) :
    Option (Database × CaseRow × ProjectedEvent) :=
  (db.cases.get id).bind fun row =>
    if db.mayProject settings id row then
      let event := db.promotionEvent id row publication
      some ({ db with
        cases := db.cases.put id row.projected
        events := db.events ++ [event]
        transitions := db.transitions ++ [{
          case := id, kind := .projection, reason := row.urgencyReason
          fromState := some row.state, toState := row.state
          fromUrgency := row.projectedUrgency, toUrgency := row.urgency
          projectedEvent := some event.id }] }, row.projected, event)
    else none

/-! ### Campaigns -/

def webProbeFamilies : List String :=
  ["wordpress", "php_runtime", "secret_files", "admin_tools", "other_probe"]

def campaignReasons : List Reason :=
  [.trustedImpossiblePath, .sustainedTrustedImpossiblePaths, .corroboratedCompromise]

structure CampaignKey where
  group : Nat
  family : String
  resourceId : String

def campaignMembers (key : CampaignKey) (dayStart : Time) : List (Nat × CaseRow) :=
  latestFirst (db.filter fun _ row => row.sensorKind = .web && row.groupId = some key.group &&
    row.family = key.family && row.resourceId = key.resourceId &&
    row.urgencyReason ∈ campaignReasons && dayStart ≤ row.lastSeen &&
    row.lastSeen < dayStart + 24 * hour)

structure CampaignStats where
  networks : Nat
  occurrences : Nat
  receipts : Nat
  sources : Nat
  first : Time
  last : Time

def campaignStats (members : List CaseRow) : CampaignStats where
  networks := (members.map CaseRow.network).dedup.length
  occurrences := (members.map CaseRow.occurrenceCount).sum
  receipts := (members.map CaseRow.receiptCount).sum
  sources := (members.map CaseRow.distinctSourceCount).sum
  first := (members.map CaseRow.firstSeen).min?.getD 0
  last := (members.map CaseRow.lastSeen).max?.getD 0

def collectSources (sources : List String) : List CaseRow → List String
  | [] => sources
  | row :: rest =>
    let collected := row.observedSources.foldl
      (fun kept item => if item ∈ kept then kept else kept ++ [item]) sources
    if 256 ≤ collected.length then collected else collectSources collected rest

def newCampaign (settings : Settings) (key : CampaignKey) (dayStart : Time)
    (stats : CampaignStats) (stamp : Nat) : CaseRow where
  groupId := some key.group
  installationKey := stamp
  sensorId := cut 128 ("campaign:" ++ toString key.group)
  sensorKind := .campaign
  resourceId := key.resourceId
  family := key.family
  correlationKey := settings.naming.digest [.str "campaign", .int key.group, .str key.family,
    .str key.resourceId]
  windowKey := settings.naming.digest [.str "campaign", .str (settings.naming.isodate dayStart)]
  windowStart := dayStart
  windowEnd := dayStart + 24 * hour
  firstSeen := stats.first
  lastSeen := stats.last
  state := .elevated
  stateReason := .distributedCampaign
  urgency := .high
  urgencyReason := .distributedCampaign

def refreshedCampaign (members : List CaseRow) (stats : CampaignStats) (row : CaseRow) : CaseRow :=
  { row with
    occurrenceCount := stats.occurrences
    receiptCount := stats.receipts
    distinctCount := stats.networks
    distinctSourceCount := stats.sources
    observedSources := (collectSources [] ((members.filter (·.observedSources ≠ [])).take 256)).take 256
    firstSeen := min row.firstSeen stats.first
    lastSeen := max row.lastSeen stats.last
    -- the default order takes part in the DISTINCT, so a network may stand twice
    samples := (members.take maxSamples).map fun member => .obj [("network", .str member.network)]
    sampleCount := (members.take maxSamples).length }

def joinCampaign (cases : Table Nat CaseRow) (campaign : Nat) (members : List Nat) :
    Table Nat CaseRow :=
  members.foldl (fun cases member =>
    cases.modify member fun row => { row with campaign := some campaign }) cases

/-- Write the counters of a campaign and the members' references to it, and an audit row when
the campaign is new or its counters changed. -/
def refreshCampaign (stats : CampaignStats) (members : List (Nat × CaseRow)) (created : Bool)
    (id : Nat) (before : CaseRow) : Database :=
  let row := refreshedCampaign (members.map Prod.snd) stats before
  let changed := (row.occurrenceCount, row.distinctCount) ≠
    (before.occurrenceCount, before.distinctCount)
  { db with
    cases := joinCampaign (db.cases.put id row) id (members.map Prod.fst)
    transitions := db.transitions ++
      if created || changed then [{
        case := id, kind := if created then .opened else .updated
        reason := .distributedCampaign
        fromState := if created then none else some row.state, toState := row.state
        fromUrgency := if created then none else some row.urgency, toUrgency := row.urgency }]
      else [] }

/-- The transaction of `campaign_sweep` for one campaign. The statistics are of the database
that the sweep saw before it. -/
def campaignSweep (settings : Settings) (now : Time) (seen : Database) (key : CampaignKey)
    (fresh : Nat) : Option Database :=
  let dayStart := now - now % (24 * hour)
  let stats := campaignStats ((seen.campaignMembers key dayStart).map Prod.snd)
  if key.family ∉ webProbeFamilies || stats.networks < settings.campaignMinSources then some db
  else
    let members := db.campaignMembers key dayStart
    match (members.map fun member => member.2.installationKey).min? with
    | none => some db
    | some stamp =>
      let campaign := newCampaign settings key dayStart stats stamp
      let found := (db.filter fun _ row => row.sensorKind = .campaign &&
        row.correlationKey = campaign.correlationKey && row.windowKey = campaign.windowKey).head?
      match found with
      | some (id, row) => some (db.refreshCampaign stats members false id row)
      | none =>
        if (db.cases.get fresh).isSome then none
        else some (db.refreshCampaign stats members true fresh campaign)

/-! ### Settling -/

/-- The transaction of `settle_sweep` for one case. -/
def settle (settings : Settings) (now : Time) (id : Nat) : Database :=
  match db.cases.get id with
  | none => db
  | some row =>
    if row.sensorKind = .fim && row.family = "deployment" && row.state = .observing &&
        row.lastSeen < now - settings.quiet then
      { db with
        cases := db.cases.put id (row.settled now)
        transitions := db.transitions ++ [{
          case := id, kind := .settled, reason := .deploymentQuietWindow
          fromState := some .observing, toState := .settled
          fromUrgency := some row.urgency, toUrgency := row.urgency }] }
    else db

def confirmDispatch (now : Time) (id : Nat) : Database :=
  { db with cases := db.cases.modify id fun row => { row with projectionDispatchedAt := some now } }

end Database

/-! ### Runs -/

/-- The database and the calls that commits have made and that no process has run. -/
structure System where
  db : Database
  calls : List Call := []

inductive Action where
  | contribute (settings : Settings) (call : Contribution)
  | corroborate (settings : Settings) (id : Nat)
  | project (settings : Settings) (id : Nat) (publication : Publication)
  | confirm (now : Time) (id : Nat)
  | campaign (settings : Settings) (now : Time) (seen : Database) (key : Database.CampaignKey)
      (fresh : Nat)
  | settle (settings : Settings) (now : Time) (id : Nat)
  | drop (call : Call)

def step (system : System) : Action → Option System
  | .contribute settings call =>
    (system.db.contribute settings call).map fun (db, calls) => ⟨db, system.calls ++ calls⟩
  | .corroborate settings id =>
    if .corroborate id ∈ system.calls then
      let (db, calls) := system.db.corroborate settings id
      some ⟨db, system.calls.erase (.corroborate id) ++ calls⟩
    else none
  | .project settings id publication =>
    let calls := system.calls.erase (.project id)
    match system.db.projectCase settings id publication with
    | none => some ⟨system.db, calls⟩
    | some (db, _, _) => some ⟨db, calls⟩
  | .confirm now id => some { system with db := system.db.confirmDispatch now id }
  | .campaign settings now seen key fresh =>
    (system.db.campaignSweep settings now seen key fresh).map fun db => { system with db := db }
  | .settle settings now id => some { system with db := system.db.settle settings now id }
  | .drop call => some { system with calls := system.calls.erase call }

end DjangoMojo.Cases
