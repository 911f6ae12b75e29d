import Mathlib.Data.PNat.Defs
import Mathlib.Data.List.MinMax
import DjangoMojo.Foundation.PythonDict
import DjangoMojo.Foundation.Table

/-! # Events, rule sets and incidents

A rule set says which events belong together and when its handlers run. An incident collects
the events of one bundle, and keeps its books in a JSON column that the metadata of its first
event seeds.
-/

namespace DjangoMojo.Incidents

open Foundation

abbrev Time := Int

def minute : Time := 60000000

/-- `BundleBy`. -/
inductive BundleBy where
  | none | hostname | modelName | modelNameAndId | sourceIp | hostnameAndModelName
  | hostnameAndModelNameAndId | sourceIpAndModelName | sourceIpAndModelNameAndId
  | sourceIpAndHostname | groupId | groupAndModelName | groupAndModelNameAndId
  | groupAndSourceIp
  deriving DecidableEq, Repr

namespace BundleBy

def byHostname (bundleBy : BundleBy) : Bool :=
  bundleBy ∈ [hostname, hostnameAndModelName, hostnameAndModelNameAndId, sourceIpAndHostname]

def byGroup (bundleBy : BundleBy) : Bool :=
  bundleBy ∈ [groupId, groupAndModelName, groupAndModelNameAndId, groupAndSourceIp]

def byModelName (bundleBy : BundleBy) : Bool :=
  bundleBy ∈ [modelName, modelNameAndId, hostnameAndModelName, hostnameAndModelNameAndId,
    sourceIpAndModelName, sourceIpAndModelNameAndId, groupAndModelName, groupAndModelNameAndId]

def byModelId (bundleBy : BundleBy) : Bool :=
  bundleBy ∈ [modelNameAndId, hostnameAndModelNameAndId, sourceIpAndModelNameAndId,
    groupAndModelNameAndId]

def bySourceIp (bundleBy : BundleBy) : Bool :=
  bundleBy ∈ [sourceIp, sourceIpAndModelName, sourceIpAndModelNameAndId, sourceIpAndHostname,
    groupAndSourceIp]

end BundleBy

/-- A rule set, with the counts of its triggers as their validators admit them. -/
structure RuleSet where
  id : Nat
  category : String
  priority : Int := 0
  isActive : Bool := true
  handler : Option String := none
  bundleBy : BundleBy := .modelNameAndId
  bundleMinutes : Option Int := some 0
  bundleByRuleSet : Bool := true
  triggerCount : Option ℕ+ := none
  triggerWindow : Option ℕ+ := none
  retriggerEvery : Option ℕ+ := none

structure GeoIp where
  countryCode : String
  countryName : String
  city : String
  region : String
  latitude : Json
  longitude : Json
  timezone : String

structure Event where
  created : Time
  level : Int := 0
  scope : String := "global"
  category : String
  sourceIp : Option String := none
  hostname : Option String := none
  countryCode : Option String := none
  title : Option String := none
  details : Option String := none
  modelName : Option String := none
  modelId : Option Int := none
  group : Option Nat := none
  groupName : String := ""
  incident : Option Nat := none
  metadata : JsonFields := []
  geoIp : Option GeoIp := none

inductive Status where
  | pending | new | opened | investigating
  | other (text : String)
  deriving DecidableEq, Repr

structure Incident where
  created : Time
  priority : Int
  status : Status := .new
  scope : String
  category : String
  countryCode : Option String
  title : Option String
  details : Option String
  modelName : Option String
  modelId : Option Int
  group : Option Nat
  sourceIp : Option String
  hostname : Option String
  ruleSet : Option Nat
  metadata : JsonFields := []

structure Database where
  incidents : Table Nat Incident
  events : Table Nat Event
  links : List Nat := []

/-- What the process of a publication reads beside its event. -/
structure Settings where
  incidentLevelThreshold : Int := 7
  ruleSets : List RuleSet
  /-- `rule_set.check_rules(event)`. -/
  checkRules : RuleSet → Event → Bool
  /-- `int(value)`, which raises where there is none. -/
  readInt : Json → Option Int
  readInt_int : ∀ value, readInt (.int value) = some value

/-! ### Rule sets of an event -/

structure PublishOptions where
  useCatchall : Bool := true
  dispatchHandlers : Bool := true
  exactCategory : Bool := false

namespace Settings

variable (settings : Settings)

def checkByCategory (category : String) (event : Event) : Option RuleSet :=
  ((settings.ruleSets.filter fun ruleSet => ruleSet.category = category && ruleSet.isActive)
    |>.insertionSort fun first second => first.priority ≤ second.priority).find?
      fun ruleSet => settings.checkRules ruleSet event

def findRuleSet (options : PublishOptions) (event : Event) : Option RuleSet :=
  if options.exactCategory then settings.checkByCategory event.category event
  else
    match settings.checkByCategory event.scope event with
    | some ruleSet => some ruleSet
    | none =>
      match settings.checkByCategory event.category event with
      | some ruleSet => some ruleSet
      | none => if options.useCatchall then settings.checkByCategory "*" event else none

/-- `int(meta.get("event_count") or 0)`. -/
def eventCount (metadata : JsonFields) : Option Int :=
  match metadata.field "event_count" with
  | some value => if value.truthy then settings.readInt value else some 0
  | none => some 0

end Settings

/-- `handler.strip().rstrip(":/") == "ignore"`. -/
def RuleSet.ignores (ruleSet : RuleSet) : Bool :=
  ruleSet.handler.any fun handler =>
    (((handler.toList.dropWhile Char.isWhitespace).reverse.dropWhile Char.isWhitespace).dropWhile
      fun char => char = ':' || char = '/').reverse = "ignore".toList

/-! ### Bundles -/

/-- The filters of a bundle; a filter that is not there is `none`. -/
structure BundleCriteria where
  category : String
  ruleSet : Option Nat
  createdSince : Option Time
  createdExact : Option Time
  hostname : Option (Option String)
  modelName : Option (Option String)
  modelId : Option (Option Int)
  sourceIp : Option (Option String)
  group : Option (Option Nat)
  deriving DecidableEq

namespace Event

/-- `determine_bundle_criteria`. -/
def bundleCriteria (event : Event) (ruleSet : RuleSet) (now : Time) : BundleCriteria where
  category := event.category
  ruleSet := if ruleSet.bundleByRuleSet then some ruleSet.id else none
  createdSince := (ruleSet.bundleMinutes.filter (0 < ·)).map fun minutes => now - minutes * minute
  createdExact := if ruleSet.bundleMinutes = some 0 then some now else none
  hostname := if ruleSet.bundleBy.byHostname then some event.hostname else none
  modelName := if ruleSet.bundleBy.byModelName then some event.modelName else none
  modelId := if ruleSet.bundleBy.byModelId then some event.modelId else none
  sourceIp := if ruleSet.bundleBy.bySourceIp then some event.sourceIp else none
  group := if ruleSet.bundleBy.byGroup then some event.group else none

def countryOf (event : Event) : Option GeoIp :=
  if event.countryCode.any (· ≠ "") then none else event.geoIp

def jsonText (text : Option String) : Json := text.elim .null .str

def fieldValues (event : Event) : JsonFields :=
  [("level", .int event.level), ("scope", .str event.scope), ("category", .str event.category),
    ("source_ip", jsonText event.sourceIp), ("title", jsonText event.title),
    ("details", jsonText event.details), ("model_name", jsonText event.modelName),
    ("model_id", event.modelId.elim .null .int)] ++
  (match event.group with
    | some group => [("group_id", .int group), ("group_name", .str event.groupName)]
    | none => []) ++
  match event.countryOf with
  | some geo => [("country_code", .str geo.countryCode), ("country_name", .str geo.countryName),
      ("city", .str geo.city), ("region", .str geo.region), ("latitude", geo.latitude),
      ("longitude", geo.longitude), ("timezone", .str geo.timezone)]
  | none => []

/-- `dict.update`. -/
def update (fields : JsonFields) (others : JsonFields) : JsonFields :=
  others.foldl (fun kept entry => kept.set entry.1 entry.2) fields

/-- `sync_metadata`. -/
def syncMetadata (event : Event) : Event :=
  { event with
    countryCode := match event.countryOf with
      | some geo => some geo.countryCode
      | none => event.countryCode
    metadata := update event.metadata event.fieldValues }

end Event

namespace BundleCriteria

def selects (criteria : BundleCriteria) (incident : Incident) : Bool :=
  incident.category = criteria.category &&
  criteria.ruleSet.all (fun ruleSet => incident.ruleSet = some ruleSet) &&
  criteria.createdSince.all (fun since => since ≤ incident.created) &&
  criteria.createdExact.all (fun created => incident.created = created) &&
  criteria.hostname.all (fun hostname => incident.hostname = hostname) &&
  criteria.modelName.all (fun modelName => incident.modelName = modelName) &&
  criteria.modelId.all (fun modelId => incident.modelId = modelId) &&
  criteria.sourceIp.all (fun sourceIp => incident.sourceIp = sourceIp) &&
  criteria.group.all (fun group => incident.group = group)

end BundleCriteria

/-- The incident that an event opens, before the event is linked to it. -/
def newIncident (ruleSet : Option RuleSet) (event : Event) (now : Time) : Incident where
  created := now
  priority := event.level
  scope := event.scope
  category := event.category
  countryCode := event.countryCode
  title := event.title
  details := event.details
  modelName := event.modelName
  modelId := event.modelId
  group := event.group
  sourceIp := event.sourceIp
  hostname := event.hostname
  ruleSet := ruleSet.map RuleSet.id
  metadata := Event.update [] event.metadata

end DjangoMojo.Incidents
