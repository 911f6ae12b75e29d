import DjangoMojo.Incidents.Event

/-! # The publication of an event

A publication looks for the incident of the bundle, under a row lock, or opens one. It counts
the events that the incident has, moves its status, links the event, and decides whether the
handlers run. All of it is one transaction.
-/

namespace DjangoMojo.Incidents

open Foundation

inductive Route where
  | ignored
  | unmatched
  | bundle (ruleSet : Option RuleSet)

def Settings.route (settings : Settings) (options : PublishOptions) (event : Event) : Route :=
  match settings.findRuleSet options event with
  | some ruleSet => if ruleSet.ignores then .ignored else .bundle (some ruleSet)
  | none =>
    if !options.exactCategory && settings.incidentLevelThreshold ≤ event.level then .bundle none
    else .unmatched

namespace Incident

def escalate (level : Int) (incident : Incident) : Incident :=
  if incident.priority < level then { incident with priority := level } else incident

def hold (trigger : Option ℕ+) (count : Nat) (incident : Incident) : Incident :=
  match trigger with
  | none => incident
  | some trigger =>
    if count < (trigger : Nat) then { incident with status := .pending }
    else if incident.status = .pending then { incident with status := .new }
    else incident

/-- `link_to_incident`, as far as the incident goes. Where the count cannot be read, nothing
is written. -/
def link (settings : Settings) (group : Option Nat) (incident : Incident) : Incident :=
  match settings.eventCount incident.metadata with
  | none => incident
  | some count =>
    let counted := incident.metadata.set "event_count" (.int (count + 1))
    match group, incident.group with
    | some group, none =>
      if incident.metadata.isSet "group_mismatch" then { incident with metadata := counted }
      else { incident with metadata := counted, group := some group }
    | some group, some known =>
      if group ≠ known then
        { incident with
          metadata := counted.set "group_mismatch" (.bool true)
          group := none }
      else { incident with metadata := counted }
    | none, _ => { incident with metadata := counted }

/-- The baseline of the next trigger; a value that is no positive integer does not count. -/
def lastTriggerCount (trigger : Option ℕ+) (metadata : JsonFields) : Int :=
  let default : Int := trigger.elim 1 fun count => (count : Nat)
  match metadata.field "last_trigger_count" with
  | some (.int count) => if count < 1 then default else count
  | some (.bool true) => 1
  | _ => default

def noteTrigger (total : Nat) (incident : Incident) : Incident :=
  { incident with metadata := incident.metadata.set "last_trigger_count" (.int total) }

/-- Whether the handlers run, and what the incident keeps of it. -/
def trigger (ruleSet : RuleSet) (created : Bool) (previous : Status) (count total : Nat)
    (incident : Incident) : Incident × Bool :=
  let meets := ruleSet.triggerCount.all fun trigger => (trigger : Nat) ≤ count
  if (created && meets) || (previous = .pending && incident.status = .new) then
    (if ruleSet.retriggerEvery.isSome then incident.noteTrigger total else incident, true)
  else
    match ruleSet.retriggerEvery with
    | some every =>
      if incident.status ∈ [.new, .opened, .investigating] &&
          lastTriggerCount ruleSet.triggerCount incident.metadata + (every : Nat) ≤ total then
        (incident.noteTrigger total, true)
      else (incident, false)
    | none => (incident, false)

end Incident

namespace Database

variable (db : Database)

/-- The first incident of the bundle, which the lookup locks. -/
def findBundle (ruleSet : Option RuleSet) (event : Event) (now : Time) : Option (Nat × Incident) :=
  match ruleSet with
  | some ruleSet =>
    if ruleSet.bundleBy = .none then none
    else
      let criteria := event.bundleCriteria ruleSet now
      (db.incidents.rows.filter fun entry => criteria.selects entry.2).argmin Prod.fst
  | none => none

def linked (id : Nat) : List (Nat × Event) :=
  db.events.rows.filter fun entry => entry.2.incident = some id

/-- The events that count towards the threshold, within the window when there is one. -/
def countEvents (ruleSet : RuleSet) (id : Nat) (now : Time) : Nat :=
  let window := match ruleSet.triggerWindow with
    | some minutes => some ((minutes : Nat) : Int)
    | none => ruleSet.bundleMinutes.filter (0 < ·)
  match window with
  | some minutes =>
    ((db.linked id).filter fun entry => now - minutes * minute ≤ entry.2.created).length
  | none => (db.linked id).length

/-- Link an event to an incident, and run the handlers of the rule set when it triggers. -/
def handle (settings : Settings) (options : PublishOptions) (ruleSet : Option RuleSet)
    (id : Nat) (event : Event) (incidentId : Nat) (incident : Incident) (created : Bool)
    (now : Time) : Database × Bool :=
  let events := db.events.put id { event with incident := some incidentId }
  match ruleSet with
  | none =>
    ({ db with
      incidents := db.incidents.put incidentId (incident.link settings event.group)
      events }, false)
  | some ruleSet =>
    let count := db.countEvents ruleSet incidentId now + 1
    let held := (incident.hold ruleSet.triggerCount count).link settings event.group
    let total := (({ db with events } : Database).linked incidentId).length
    let (triggered, dispatches) := held.trigger ruleSet created incident.status count total
    ({ db with incidents := db.incidents.put incidentId triggered, events },
      dispatches && options.dispatchHandlers)

/-- The transaction of a publication after its lookup; `fresh` is the key of a new
incident. The flag tells whether the handlers ran. -/
def attach (settings : Settings) (options : PublishOptions) (ruleSet : Option RuleSet)
    (id : Nat) (event : Event) (found : Option (Nat × Incident)) (fresh : Nat) (now : Time) :
    Option (Database × Bool) :=
  match found with
  | some (incidentId, incident) =>
    some (db.handle settings options ruleSet id event incidentId
      (incident.escalate event.level) false now)
  | none =>
    if (db.incidents.get fresh).isSome then none
    else
      let event := event.syncMetadata
      some (db.handle settings options ruleSet id event fresh (newIncident ruleSet event now)
        true now)

end Database

/-! ### Facts about single steps -/

namespace Incident

variable {settings : Settings} (incident : Incident)

/-- What a publication changes beside the metadata, the group, the status and the priority. -/
structure SameBundle (incident other : Incident) : Prop where
  created : other.created = incident.created
  category : other.category = incident.category
  ruleSet : other.ruleSet = incident.ruleSet
  hostname : other.hostname = incident.hostname
  modelName : other.modelName = incident.modelName
  modelId : other.modelId = incident.modelId
  sourceIp : other.sourceIp = incident.sourceIp

theorem escalate_cases (level : Int) :
    ∃ priority, incident.escalate level = { incident with priority } := by
  unfold escalate
  split
  · exact ⟨level, rfl⟩
  · exact ⟨incident.priority, rfl⟩

theorem hold_cases (trigger : Option ℕ+) (count : Nat) :
    ∃ status, incident.hold trigger count = { incident with status } := by
  unfold hold
  split
  · exact ⟨incident.status, rfl⟩
  split
  · exact ⟨.pending, rfl⟩
  split
  · exact ⟨.new, rfl⟩
  · exact ⟨incident.status, rfl⟩

theorem link_cases (settings : Settings) (group : Option Nat) :
    ∃ metadata known, incident.link settings group = { incident with metadata, group := known } := by
  unfold link
  split
  · exact ⟨incident.metadata, incident.group, rfl⟩
  dsimp only
  split
  next hknown =>
    split
    · exact ⟨_, incident.group, rfl⟩
    · exact ⟨_, _, rfl⟩
  next =>
    split
    · exact ⟨_, _, rfl⟩
    · exact ⟨_, incident.group, rfl⟩
  · exact ⟨_, incident.group, rfl⟩

theorem trigger_cases (ruleSet : RuleSet) (created : Bool) (previous : Status)
    (count total : Nat) : (incident.trigger ruleSet created previous count total).1 = incident ∨
      (incident.trigger ruleSet created previous count total).1 = incident.noteTrigger total := by
  unfold trigger
  dsimp only
  split
  · split
    · exact .inr rfl
    · exact .inl rfl
  split
  · split
    · exact .inr rfl
    · exact .inl rfl
  · exact .inl rfl

end Incident

end DjangoMojo.Incidents
