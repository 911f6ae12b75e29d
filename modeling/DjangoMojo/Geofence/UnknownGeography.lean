import Mathlib.Data.List.Infix
import DjangoMojo.Geofence.DecisionCache

/-! # Addresses of unknown geography

Where the geo data of a check come from: the stored row of the address, made and refreshed as the
lookup goes. The override in the settings files is not read.
-/

namespace DjangoMojo.Geofence

structure GeoLocatedIP where
  ipAddress : String
  subnet : String
  geo : Geo
  provider : Option String
  expiresAt : Option Time

/-- The keys that `geolocate_ip` can set. -/
structure GeoData where
  provider : Option String
  countryCode : Option (Option String)
  regionCode : Option (Option String)
  isTor : Option Bool
  isVpn : Option Bool
  isProxy : Option Bool
  isDatacenter : Option Bool
deriving DecidableEq

inductive Answer
  | raises
  | nothing
  | record (data : GeoData)
deriving DecidableEq

namespace GeoLocatedIP

def isExpired (row : GeoLocatedIP) (now : Time) : Bool :=
  if row.provider = some "internal" then false
  else
    match row.expiresAt with
    | some ends => ends < now
    | none => true

def setData (row : GeoLocatedIP) (data : GeoData) : GeoLocatedIP :=
  { row with
    geo :=
      { countryCode := data.countryCode.getD row.geo.countryCode
        regionCode := data.regionCode.getD row.geo.regionCode
        isTor := data.isTor.getD row.geo.isTor
        isVpn := data.isVpn.getD row.geo.isVpn
        isProxy := data.isProxy.getD row.geo.isProxy
        isDatacenter := data.isDatacenter.getD row.geo.isDatacenter }
    provider := data.provider }

def refresh (row : GeoLocatedIP) (now cacheDuration : Time) : Answer → Option GeoLocatedIP
  | .raises => none
  | .nothing => some row
  | .record data =>
    if data.provider.getD "" = "" then some row
    else
      let updated := row.setData data
      some { updated with
        expiresAt :=
          if updated.provider = some "internal" then none else some (now + cacheDuration) }

end GeoLocatedIP

/-- The stored rows, in the order of their keys, and what the provider answers. -/
structure Lookup where
  rows : List GeoLocatedIP
  subnetOnly : Bool
  subnet : String → String
  cacheDuration : Time
  answer : String → Answer

namespace Lookup

def subnetMatch (lookup : Lookup) (ip : String) : Option GeoLocatedIP :=
  if lookup.subnetOnly then
    (lookup.rows.filter fun row => row.subnet = lookup.subnet ip).getLast?
  else none

/-- The row of an address, which is created where there is none. -/
def row (lookup : Lookup) (ip : String) : GeoLocatedIP :=
  match lookup.rows.find? fun row => row.ipAddress = ip with
  | some row => row
  | none =>
    let found := lookup.subnetMatch ip
    { ipAddress := ip
      subnet := lookup.subnet ip
      geo := ⟨found.bind (·.geo.countryCode), none, false, false, false, false⟩
      provider := found.bind fun row => row.provider.map fun provider =>
        if provider ≠ "" ∧ ¬ "subnet".toList <:+: provider.toList then "subnet:" ++ provider
        else provider
      expiresAt := none }

/-- `geolocate`, which passes on what the provider raises. -/
def geolocate (lookup : Lookup) (now : Time) (ip : String) : Option GeoLocatedIP :=
  if (lookup.row ip).isExpired now then
    (lookup.row ip).refresh now lookup.cacheDuration (lookup.answer ip)
  else some (lookup.row ip)

def resulting (lookup : Lookup) (now : Time) (ip : String) : GeoLocatedIP :=
  (lookup.geolocate now ip).getD (lookup.row ip)

/-- `_resolve_geo` -/
def resolveGeo (lookup : Lookup) (now : Time) (ip : String) : Option Geo :=
  (lookup.geolocate now ip).map (·.geo)

def surroundings (lookup : Lookup) (now : Time) (upper : String → String) : Surroundings where
  geo := lookup.resolveGeo now
  upper := upper

/-- A check that comes to the rules, in a scope that fails closed, of an address whose row has
no country in the end. -/
structure Unknown (lookup : Lookup) (world : World) (request : Request) : Prop where
  enabled : world.config.settings.enabled = true
  bypass : request.bypass = false
  rules : Inputs.bothEmpty world.config.settings.systemRules
    (world.config.groupRules request.group) = false
  exempt : world.config.ipAllowlisted world.clock request.ip = false
  closed : world.config.fails request.scope = true ∨ world.config.strict request.group = true
  uncached : 0 < world.config.settings.cacheTtl →
    world.cached ⟨request.ip, request.group⟩ = none
  country : (lookup.resulting world.clock request.ip).geo.countryCode.getD "" = ""

/-- The check denies, takes the address for no private one and leaves no decision behind. -/
def FailsClosed (lookup : Lookup) (upper : String → String) (world : World)
    (request : Request) : Prop :=
  let decision := world.check (lookup.surroundings world.clock upper) request
  decision.allowed = false ∧ decision.reason ≠ .privateIp ∧
    world.store ⟨request.ip, request.group⟩ decision world.config.settings.cacheTtl = world

variable {lookup : Lookup} {world : World} {request : Request} {upper : String → String}

theorem Unknown.check (hunknown : lookup.Unknown world request) (fixed : Surroundings) :
    world.check fixed request =
      match fixed.geo request.ip with
      | none => ⟨false, .lookupFailed, none⟩
      | some geo =>
        if geo.countryCode.getD "" = "" then
          ⟨world.config.settings.allowPrivateIps && !world.config.strict request.group,
            .privateIp, none⟩
        else
          ((fixed.blocks .system world.config.settings.systemRules geo).or
            (fixed.blocks .group (world.config.groupRules request.group) geo)).getD
              ⟨true, .passed, none⟩ := by
  have hclosed : (world.config.fails request.scope || world.config.strict request.group) = true :=
    Bool.or_eq_true_iff.mpr hunknown.closed
  have huncached : (if 0 < world.config.settings.cacheTtl
      then world.cached ⟨request.ip, request.group⟩ else none) = none := by
    split
    next hcaching => exact hunknown.uncached hcaching
    next => rfl
  cases hgeo : fixed.geo request.ip <;>
    simp only [World.check, Config.early, hunknown.enabled, hunknown.bypass, hunknown.rules,
      huncached, World.inputs, Inputs.decide, Config.inputs, hunknown.exempt, hgeo,
      Inputs.evaluate, Bool.not_true, Bool.false_and, Bool.and_false,
      Bool.false_eq_true, if_false, Option.getD_none, hclosed]

theorem geolocate_eq_none_iff (now : Time) (ip : String) :
    lookup.geolocate now ip = none ↔
      (lookup.row ip).isExpired now = true ∧ lookup.answer ip = .raises := by
  unfold geolocate
  cases (lookup.row ip).isExpired now with
  | false => simp
  | true =>
    cases lookup.answer ip with
    | raises => simp [GeoLocatedIP.refresh]
    | nothing => simp [GeoLocatedIP.refresh]
    | record data =>
      simp only [GeoLocatedIP.refresh, if_true]
      split <;> simp

/-- An unknown country is kept out as such exactly where a refresh is due and the provider
raises. -/
theorem failsClosed_iff (hunknown : lookup.Unknown world request) :
    lookup.FailsClosed upper world request ↔
      (lookup.row request.ip).isExpired world.clock = true ∧
        lookup.answer request.ip = .raises := by
  rw [← geolocate_eq_none_iff]
  unfold FailsClosed
  rw [hunknown.check]
  have hcountry := hunknown.country
  unfold resulting at hcountry
  simp only [surroundings, resolveGeo]
  cases hresult : lookup.geolocate world.clock request.ip with
  | none => simp [World.store]
  | some row =>
    rw [hresult, Option.getD_some] at hcountry
    simp [hcountry]

/-! ### A provider without an answer -/

section Sample

/-- Only the United States are let in, and a failed lookup denies. -/
def closed : World :=
  World.start
    { settings :=
        { enabled := true
          systemRules := .obj [("country", .obj [("in", .arr [.str "US"])])]
          allowlist := []
          strictPosture := false
          failClosed := true
          failClosedScopes := []
          allowPrivateIps := true
          cacheTtl := 300 }
      groups := fun _ => ⟨.obj [], none⟩
      whitelist := fun _ => none } 0

def visitor : Request := ⟨"8.8.8.8", none, false, none⟩

def answering (answer : Answer) : Lookup where
  rows := []
  subnetOnly := false
  subnet := fun _ => "8.8.8"
  cacheDuration := 7776000
  answer := fun _ => answer

theorem closed_unknown (answer : Answer) (hanswer : answer = .raises ∨ answer = .nothing) :
    (answering answer).Unknown closed visitor := by
  refine ⟨rfl, rfl, rfl, ?_, .inl rfl, fun _ => rfl, ?_⟩
  · decide
  · rcases hanswer with rfl | rfl <;> decide

theorem answering_nothing_not_failsClosed :
    (answering .nothing).Unknown closed visitor ∧
      ¬ (answering .nothing).FailsClosed String.toUpper closed visitor :=
  ⟨closed_unknown _ (.inr rfl), fun hcloses => absurd hcloses.2.1 (by decide)⟩

theorem answering_raises_failsClosed :
    (answering .raises).FailsClosed String.toUpper closed visitor :=
  (failsClosed_iff (closed_unknown _ (.inl rfl))).mpr (by decide)

end Sample

end Lookup

end DjangoMojo.Geofence
