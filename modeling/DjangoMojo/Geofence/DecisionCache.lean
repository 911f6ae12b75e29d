import Mathlib.Logic.Function.Basic
import DjangoMojo.Foundation.Table
import DjangoMojo.Geofence.Engine

/-! # The cache of decisions

Checks resolve the settings, read the cache, decide and write the cache in separate steps. Edits
change the configuration and remove cached decisions, in an order of their own: settings are
invalidated after a save and before a deletion, groups only when they are saved through REST.
-/

namespace DjangoMojo.Geofence

open Foundation

/-- `geofence:dec:{ip}:{group_id}`. -/
structure Key where
  ip : String
  group : Option Nat
deriving DecidableEq

structure Entry where
  decision : Decision
  expires : Time

/-! ### Edits -/

inductive SettingValue
  | enabled (value : Bool)
  | systemRules (value : Json)
  | allowlist (value : List AllowlistEntry)
  | strictPosture (value : Bool)
  | failClosed (value : Bool)
  | failClosedScopes (value : List String)
  | allowPrivateIps (value : Bool)
  | cacheTtl (value : Int)

def Settings.write (settings : Settings) : SettingValue → Settings
  | .enabled value => { settings with enabled := value }
  | .systemRules value => { settings with systemRules := value }
  | .allowlist value => { settings with allowlist := value }
  | .strictPosture value => { settings with strictPosture := value }
  | .failClosed value => { settings with failClosed := value }
  | .failClosedScopes value => { settings with failClosedScopes := value }
  | .allowPrivateIps value => { settings with allowPrivateIps := value }
  | .cacheTtl value => { settings with cacheTtl := value }

inductive Change
  | setting (value : SettingValue)
  | group (id : Nat) (fence : GroupFence)
  | whitelist (ip : String) (row : Option WhitelistRow)

def Change.apply (config : Config) : Change → Config
  | .setting value => { config with settings := config.settings.write value }
  | .group id fence => { config with groups := Function.update config.groups id fence }
  | .whitelist ip row => { config with whitelist := Function.update config.whitelist ip row }

inductive Scope
  | all
  | group (id : Nat)
  | ip (address : String)

def Scope.covers : Scope → Key → Bool
  | .all, _ => true
  | .group id, key => key.group = some id
  | .ip address, key => key.ip = address

def Change.scope : Change → Scope
  | .setting _ => .all
  | .group id _ => .group id
  | .whitelist ip _ => .ip ip

inductive Edit
  | apply (change : Change) (announces : Bool)
  | invalidate (scope : Scope) (before : Option Change)

inductive Operation
  | saveSetting (value : SettingValue)
  /-- A row is deleted, and the value of the settings files is left. -/
  | deleteSetting (fallback : SettingValue)
  | restSaveGroup (id : Nat) (fence : GroupFence)
  | saveGroup (id : Nat) (fence : GroupFence)
  | whitelist (ip : String) (ends : Option Time)
  | unwhitelist (ip : String)

def Operation.edit : Operation → Edit
  | .saveSetting value => .apply (.setting value) true
  | .deleteSetting fallback => .invalidate .all (some (.setting fallback))
  | .restSaveGroup id fence => .apply (.group id fence) true
  | .saveGroup id fence => .apply (.group id fence) false
  | .whitelist ip ends => .apply (.whitelist ip (some ⟨ends⟩)) true
  | .unwhitelist ip => .apply (.whitelist ip none) true

/-! ### Checks -/

/-- What a check has resolved of the settings and of its group. -/
structure Resolved where
  system : Json
  groupRules : Json
  strict : Bool
  ttl : Int

inductive Phase
  | resolving
  | reading (resolved : Resolved)
  | deciding (resolved : Resolved)
  | writing (inputs : Inputs) (fails : Bool) (ttl : Int)
  | finished (decision : Decision)

structure Check where
  request : Request
  phase : Phase

/-! ### Steps -/

structure World where
  config : Config
  clock : Time
  cache : Key → Option Entry
  checks : Table Nat Check
  edits : Table Nat Edit

inductive Label
  | begin (id : Nat) (request : Request)
  | check (id : Nat)
  | beginEdit (id : Nat) (operation : Operation)
  | edit (id : Nat)
  | tick (elapsed : Nat)

namespace World

def start (config : Config) (clock : Time) : World :=
  ⟨config, clock, fun _ => none, .empty, .empty⟩

/-- `GET` of a key that expires. -/
def cached (world : World) (key : Key) : Option Decision :=
  (world.cache key).bind fun entry =>
    if world.clock < entry.expires then some entry.decision else none

def setCheck (world : World) (id : Nat) (check : Check) : World :=
  { world with checks := world.checks.put id check }

def inputs (world : World) (key : Key) : Inputs :=
  world.config.inputs world.clock key.ip key.group

def resolved (world : World) (request : Request) : Resolved where
  system := world.config.settings.systemRules
  groupRules := world.config.groupRules request.group
  strict := world.config.strict request.group
  ttl := world.config.settings.cacheTtl

/-- A decision is cached unless the lookup failed or caching is off. -/
def store (world : World) (key : Key) (decision : Decision) (ttl : Int) : World :=
  if decision.reason ≠ .lookupFailed ∧ 0 < ttl then
    { world with cache :=
        Function.update world.cache key (some ⟨decision, world.clock + ttl⟩) }
  else world

def proceed (fixed : Surroundings) (world : World) (id : Nat) (check : Check) : Option World :=
  let request := check.request
  match check.phase with
  | .resolving =>
    match world.config.early request with
    | some decision => some (world.setCheck id { check with phase := .finished decision })
    | none =>
      let resolved := world.resolved request
      some (world.setCheck id { check with
        phase := if 0 < resolved.ttl then .reading resolved else .deciding resolved })
  | .reading resolved =>
    match world.cached ⟨request.ip, request.group⟩ with
    | some decision => some (world.setCheck id { check with phase := .finished decision })
    | none => some (world.setCheck id { check with phase := .deciding resolved })
  | .deciding resolved =>
    let inputs : Inputs :=
      { system := resolved.system
        groupRules := resolved.groupRules
        strict := resolved.strict
        exempt := world.config.ipAllowlisted world.clock request.ip
        allowPrivate := world.config.settings.allowPrivateIps }
    some (world.setCheck id { check with
      phase := .writing inputs (world.config.fails request.scope) resolved.ttl })
  | .writing inputs fails ttl =>
    let decision := inputs.decide fixed request.ip fails
    some ((world.store ⟨request.ip, request.group⟩ decision ttl).setCheck id { check with
      phase := .finished decision })
  | .finished _ => none

def invalidate (world : World) (scope : Scope) : World :=
  { world with cache := fun key => if scope.covers key then none else world.cache key }

def carryOut (world : World) (id : Nat) : Edit → World
  | .apply change announces =>
    { world with
      config := change.apply world.config
      edits := if announces then world.edits.put id (.invalidate change.scope none)
        else world.edits.delete id }
  | .invalidate scope before =>
    { world.invalidate scope with
      edits := match before with
        | some change => world.edits.put id (.apply change false)
        | none => world.edits.delete id }

def step (fixed : Surroundings) (world : World) : Label → Option World
  | .begin id request =>
    if (world.checks.get id).isSome then none
    else some (world.setCheck id ⟨request, .resolving⟩)
  | .check id => (world.checks.get id).bind fun check => world.proceed fixed id check
  | .beginEdit id operation =>
    if (world.edits.get id).isSome then none
    else some { world with edits := world.edits.put id operation.edit }
  | .edit id => (world.edits.get id).map fun edit => world.carryOut id edit
  | .tick elapsed => some { world with clock := world.clock + elapsed }

def check (fixed : Surroundings) (world : World) (request : Request) : Decision :=
  match world.config.early request with
  | some decision => decision
  | none =>
    let cached := if 0 < world.config.settings.cacheTtl
      then world.cached ⟨request.ip, request.group⟩ else none
    cached.getD ((world.inputs ⟨request.ip, request.group⟩).decide fixed request.ip
      (world.config.fails request.scope))

end World

end DjangoMojo.Geofence
