import DjangoMojo.Foundation.IpNetworks
import DjangoMojo.Foundation.Json

/-! # Geofence decisions

Rules of the system and of a group, the exemptions of addresses and the postures, and the
decision that is made of them. A test request's headers are not read.
-/

namespace DjangoMojo.Geofence

open Foundation

abbrev Time := Int

structure Geo where
  countryCode : Option String
  regionCode : Option String
  isTor : Bool
  isVpn : Bool
  isProxy : Bool
  isDatacenter : Bool

inductive Reason
  | disabled | bypass | noRules | ipAllowlisted | noRulesStrict | lookupFailed | privateIp
  | ruleInvalid | countryNotAllowed | regionNotAllowed
  | detected (flag : String)
  | passed
deriving DecidableEq

inductive RuleLevel
  | system | group
deriving DecidableEq

structure Decision where
  allowed : Bool
  reason : Reason
  ruleLevel : Option RuleLevel
deriving DecidableEq

/-- What stays as it is: the geo data, and `str.upper`. -/
structure Surroundings where
  geo : String → Option Geo
  upper : String → String

/-! ### The rules -/

namespace Rule

def isTexts : Json → Bool
  | .arr items => items.all fun item => match item with
      | .str _ => true
      | _ => false
  | _ => false

def isText : Json → Bool
  | .str _ => true
  | _ => false

def validMatcher (body : JsonFields) : Bool :=
  body.all fun (op, operand) =>
    if op = "in" || op = "not_in" then isTexts operand else op = "eq" && isText operand

def validAbuse (body : JsonFields) : Bool :=
  body.all fun (flag, expected) =>
    (flag = "tor" || flag = "vpn" || flag = "datacenter" || flag = "proxy") &&
      match expected with
      | .null | .bool _ => true
      | _ => false

/-- `validate_rule` raises nothing. -/
def validateRule : Json → Bool
  | .obj fields => fields.all fun (key, body) =>
    match body with
    | .obj body =>
      if key = "country" || key = "region" then validMatcher body
      else key = "abuse" && validAbuse body
    | _ => false
  | _ => false

def texts : Json → List String
  | .arr items => items.filterMap fun item => match item with
      | .str text => some text
      | _ => none
  | _ => []

def matcherPasses (upper : String → String) (body : JsonFields) (value : String) : Bool :=
  body.all fun (op, operand) =>
    if op = "in" then value ∈ (texts operand).map upper
    else if op = "not_in" then value ∉ (texts operand).map upper
    else if op = "eq" then
      match operand with
      | .str text => value = upper text
      | _ => true
    else true

def body (rule : JsonFields) (key : String) : JsonFields :=
  match rule.lookup key with
  | some (.obj fields) => fields
  | _ => []

def flag (geo : Geo) (name : String) : Bool :=
  if name = "tor" then geo.isTor
  else if name = "vpn" then geo.isVpn
  else if name = "proxy" then geo.isProxy
  else if name = "datacenter" then geo.isDatacenter
  else false

def tripped (geo : Geo) (abuse : JsonFields) : Option String :=
  (abuse.find? fun (name, expected) =>
    match expected with
    | .bool wanted => flag geo name != wanted
    | _ => false).map Prod.fst

def evaluateRule (upper : String → String) (rule : JsonFields) (geo : Geo) : Option Reason :=
  if !(body rule "country").isEmpty &&
      !matcherPasses upper (body rule "country") (upper (geo.countryCode.getD "")) then
    some .countryNotAllowed
  else if !(body rule "region").isEmpty &&
      !matcherPasses upper (body rule "region") (upper (geo.regionCode.getD "")) then
    some .regionNotAllowed
  else (tripped geo (body rule "abuse")).map .detected

end Rule

def Surroundings.blocks (fixed : Surroundings) (level : RuleLevel) (rule : Json) (geo : Geo) :
    Option Decision :=
  if !rule.truthy then none
  else if !Rule.validateRule rule then some ⟨false, .ruleInvalid, some level⟩
  else
    match rule with
    | .obj fields => (Rule.evaluateRule fixed.upper fields geo).map fun reason =>
      ⟨false, reason, some level⟩
    | _ => none

/-! ### The configuration -/

/-- `until` of an entry, as `parse_datetime` reads it. -/
inductive Expiry
  | never
  | unparsable
  | ends (time : Time)

structure AllowlistEntry where
  cidr : String
  expiry : Expiry

/-- The settings that the engine consumes, as `settings.get` returns them. -/
structure Settings where
  enabled : Bool
  systemRules : Json
  allowlist : List AllowlistEntry
  strictPosture : Bool
  failClosed : Bool
  failClosedScopes : List String
  allowPrivateIps : Bool
  cacheTtl : Int

/-- `metadata.geofence` and `metadata.geofence_strict` of a group. -/
structure GroupFence where
  rules : Json
  strict : Option Bool

structure WhitelistRow where
  ends : Option Time

structure Config where
  settings : Settings
  groups : Nat → GroupFence
  whitelist : String → Option WhitelistRow

namespace Config

def groupRules (config : Config) (group : Option Nat) : Json :=
  match group with
  | none => .obj []
  | some group => (config.groups group).rules

def strict (config : Config) (group : Option Nat) : Bool :=
  match group with
  | none => config.settings.strictPosture
  | some group => (config.groups group).strict.getD config.settings.strictPosture

end Config

def AllowlistEntry.active (entry : AllowlistEntry) (now : Time) : Bool :=
  match entry.expiry with
  | .never => true
  | .unparsable => false
  | .ends time => now ≤ time

/-- `ip_address(ip) in ip_network(cidr, strict=False)`, false where either raises. -/
def inNetwork (ip cidr : String) : Bool :=
  if ip.toList.contains '/' then false
  else
    match IpNetwork.parse ip, IpNetwork.parse cidr with
    | some address, some network => address.isV6 = network.isV6 &&
        IpNetwork.masked (if network.isV6 then 128 else 32) network.length address.address =
          network.address
    | _, _ => false

def WhitelistRow.active (row : WhitelistRow) (now : Time) : Bool :=
  !(row.ends.any fun ends => ends < now)

/-- `_ip_allowlisted` finds an exemption. -/
def Config.ipAllowlisted (config : Config) (now : Time) (ip : String) : Bool :=
  ip ≠ "" &&
    (config.settings.allowlist.any (fun entry =>
        entry.cidr ≠ "" && entry.active now && inNetwork ip entry.cidr) ||
      (config.whitelist ip).any fun row => row.active now)

/-! ### Decisions -/

/-- What a decision about an address and a group is made of, besides the geo data. -/
structure Inputs where
  system : Json
  groupRules : Json
  strict : Bool
  exempt : Bool
  allowPrivate : Bool

namespace Inputs

def bothEmpty (system groupRules : Json) : Bool := !system.truthy && !groupRules.truthy

/-- `_evaluate`; `fails` says whether the settings want a failed lookup to deny. -/
def evaluate (fixed : Surroundings) (inputs : Inputs) (ip : String) (fails : Bool) : Decision :=
  if inputs.strict && bothEmpty inputs.system inputs.groupRules then
    ⟨false, .noRulesStrict, none⟩
  else
    match fixed.geo ip with
    | none => ⟨!(fails || inputs.strict), .lookupFailed, none⟩
    | some geo =>
      if geo.countryCode.getD "" = "" then
        ⟨inputs.allowPrivate && !inputs.strict, .privateIp, none⟩
      else
        ((fixed.blocks .system inputs.system geo).or
          (fixed.blocks .group inputs.groupRules geo)).getD ⟨true, .passed, none⟩

def decide (fixed : Surroundings) (inputs : Inputs) (ip : String) (fails : Bool) : Decision :=
  if inputs.exempt then ⟨true, .ipAllowlisted, none⟩ else inputs.evaluate fixed ip fails

theorem decide_congr {fixed : Surroundings} {inputs : Inputs} {ip : String} {fails : Bool}
    (hlookup : (inputs.decide fixed ip fails).reason ≠ .lookupFailed) (other : Bool) :
    inputs.decide fixed ip other = inputs.decide fixed ip fails := by
  unfold decide evaluate at hlookup ⊢
  split at hlookup
  next hexempt => rw [if_pos hexempt, if_pos hexempt]
  next hexempt =>
    rw [if_neg hexempt, if_neg hexempt]
    split at hlookup
    next hstrict => rw [if_pos hstrict, if_pos hstrict]
    next hstrict =>
      rw [if_neg hstrict, if_neg hstrict]
      split at hlookup
      next hgeo => exact absurd rfl hlookup
      next geo hgeo => rfl

end Inputs

/-- A call of `check`: the user may have the permission to bypass. -/
structure Request where
  ip : String
  group : Option Nat
  bypass : Bool
  scope : Option String

namespace Config

def inputs (config : Config) (now : Time) (ip : String) (group : Option Nat) : Inputs where
  system := config.settings.systemRules
  groupRules := config.groupRules group
  strict := config.strict group
  exempt := config.ipAllowlisted now ip
  allowPrivate := config.settings.allowPrivateIps

def fails (config : Config) (scope : Option String) : Bool :=
  config.settings.failClosed ||
    scope.any fun scope => scope ≠ "" && scope ∈ config.settings.failClosedScopes

/-- What `check` decides before it looks at the cache. -/
def early (config : Config) (request : Request) : Option Decision :=
  if !config.settings.enabled then some ⟨true, .disabled, none⟩
  else if request.bypass then some ⟨true, .bypass, none⟩
  else if Inputs.bothEmpty config.settings.systemRules (config.groupRules request.group) &&
      !config.strict request.group then
    some ⟨true, .noRules, none⟩
  else none

/-- `check` without a cache. -/
def decide (fixed : Surroundings) (config : Config) (now : Time) (request : Request) : Decision :=
  (config.early request).getD
    ((config.inputs now request.ip request.group).decide fixed request.ip
      (config.fails request.scope))

end Config

end DjangoMojo.Geofence
