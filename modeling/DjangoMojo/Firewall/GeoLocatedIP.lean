import DjangoMojo.Foundation.Table

/-! # Rows of addresses and the workers that write them

Every worker has an instance of the row that it loaded at some time. A call decides by the
instance, and then runs its statements one at a time; other workers run theirs in between.
-/

namespace DjangoMojo.Firewall

open Foundation

abbrev Time := Int

inductive ThreatLevel where
  | low | medium | high | critical
  | other (text : String)
  deriving DecidableEq

/-- `THREAT_LEVEL_ORDER.index(level) if level in THREAT_LEVEL_ORDER else 0`. -/
def rank : Option ThreatLevel → Nat
  | none | some (.other _) => 0
  | some .low => 1
  | some .medium => 2
  | some .high => 3
  | some .critical => 4

/-- The columns that levels, blocks and whitelists are kept in. -/
structure GeoLocatedIP where
  threatLevel : Option ThreatLevel
  isBlocked : Bool
  blockedUntil : Option Time
  isWhitelisted : Bool
  whitelistedUntil : Option Time
  deriving DecidableEq

namespace GeoLocatedIP

def whitelistActive (geo : GeoLocatedIP) (now : Time) : Bool :=
  geo.isWhitelisted && !(geo.whitelistedUntil.any fun ends => ends < now)

def blockActive (geo : GeoLocatedIP) (now : Time) : Bool :=
  geo.isBlocked && !geo.whitelistActive now && !(geo.blockedUntil.any fun ends => ends < now)

end GeoLocatedIP

/-- The level that `update_threat_from_incident` maps a priority to. -/
def incidentLevel (priority : Int) : Option ThreatLevel :=
  if 13 ≤ priority then some .critical
  else if 10 ≤ priority then some .high
  else if 7 ≤ priority then some .medium
  else none

/-- The level that `block` writes: at least high. -/
def blockLevel (level : Option ThreatLevel) : Option ThreatLevel :=
  if rank (some .high) ≤ rank level then level else some .high

/-! ### Statements -/

/-- The conditional update of `block`, with the values that were computed before it. -/
structure BlockUpdate where
  now : Time
  blockedUntil : Option Time
  threatLevel : Option ThreatLevel

namespace BlockUpdate

def Matches (update : BlockUpdate) (row : GeoLocatedIP) : Bool :=
  !row.isBlocked || row.blockedUntil.any fun ends => ends ≤ update.now

def apply (update : BlockUpdate) (row : GeoLocatedIP) : GeoLocatedIP :=
  { row with
    isBlocked := true
    blockedUntil := update.blockedUntil
    threatLevel := update.threatLevel }

end BlockUpdate

/-- What the caller of `block` does after it: nothing, or the save of an escalation to a level. -/
abbrev Caller := Option ThreatLevel

inductive Phase where
  | idle
  | blocking (update : BlockUpdate) (caller : Caller)
  /-- `refresh_from_db` after the update, which matched the row or did not. -/
  | reloading (updated : Bool) (caller : Caller)
  /-- `save(update_fields=['threat_level'])` of an escalation. -/
  | savingLevel (target : ThreatLevel)
  | unblocking
  | whitelisting
  /-- A full `save()`. -/
  | savingAll
  | sweeping (listed : Bool)

structure Worker where
  geo : GeoLocatedIP
  phase : Phase

namespace Worker

/-- Back in the caller of `block`. -/
def resume (geo : GeoLocatedIP) : Caller → Worker
  | none => ⟨geo, .idle⟩
  | some target => ⟨geo, .savingLevel target⟩

/-- `block` up to its update; a `ttl` of zero is none. -/
def block (geo : GeoLocatedIP) (now : Time) (ttl : Int) (caller : Caller) : Worker :=
  if geo.whitelistActive now then resume geo caller
  else if geo.isBlocked && geo.blockActive now then resume geo caller
  else
    let blockedUntil := if ttl = 0 then none else some (now + ttl)
    ⟨geo, .blocking ⟨now, blockedUntil, blockLevel geo.threatLevel⟩ caller⟩

def escalationTtl : Int := 900

def updateThreatFromIncident (geo : GeoLocatedIP) (now : Time) (priority : Int) (block : Bool) :
    Worker :=
  match incidentLevel priority with
  | none => ⟨geo, .idle⟩
  | some level =>
    if rank (some level) ≤ rank geo.threatLevel then ⟨geo, .idle⟩
    else
      let geo := { geo with threatLevel := some level }
      if geo.whitelistActive now || !block then ⟨geo, .savingLevel level⟩
      else if !geo.isBlocked && (level = .high || level = .critical) then
        Worker.block geo now escalationTtl (some level)
      else ⟨geo, .savingLevel level⟩

/-- `unblock` up to its save. What it reads before decides about the broadcast only. -/
def unblock (geo : GeoLocatedIP) : Worker :=
  ⟨{ geo with isBlocked := false, blockedUntil := none }, .unblocking⟩

def whitelist (geo : GeoLocatedIP) (ends : Option Time) : Worker :=
  let geo := { geo with isWhitelisted := true, whitelistedUntil := ends }
  ⟨if geo.isBlocked then { geo with isBlocked := false, blockedUntil := none } else geo,
    .whitelisting⟩

/-- `check_threats`, which never lowers the level of an address that `mojo` provides. -/
def checkThreats (geo : GeoLocatedIP) (recalculated : ThreatLevel) (mojo : Bool) : Worker :=
  let level :=
    if mojo && rank (some recalculated) ≤ rank geo.threatLevel then geo.threatLevel
    else some recalculated
  ⟨{ geo with threatLevel := level }, .savingAll⟩

/-- `refresh`; the data of the lookup may name a level, and names no block. -/
def refresh (geo : GeoLocatedIP) (found : Option (Option ThreatLevel)) : Worker :=
  ⟨{ geo with threatLevel := found.getD geo.threatLevel }, .savingAll⟩

end Worker

/-! ### The system -/

/-- One row, the workers, and the ends of the blocks that were written and that no `unblock` or
`whitelist` has written away since. -/
structure System where
  row : GeoLocatedIP
  clock : Time
  workers : Table Nat Worker
  written : List (Option Time)

inductive Label where
  | tick (time : Nat)
  /-- A worker loads the row, as `recheck_active_threats` does long before it checks. -/
  | load (id : Nat)
  | updateThreatFromIncident (id : Nat) (priority : Int) (block : Bool)
  | block (id : Nat) (ttl : Int)
  | unblock (id : Nat)
  | whitelist (id : Nat) (ends : Option Time)
  | checkThreats (id : Nat) (recalculated : ThreatLevel) (mojo : Bool)
  | refresh (id : Nat) (found : Option (Option ThreatLevel))
  /-- `sweep_expired_blocks` up to its update. -/
  | sweepExpiredBlocks (id : Nat)
  | proceed (id : Nat)

namespace System

def start (row : GeoLocatedIP) (clock : Time) : System := ⟨row, clock, .empty, []⟩

def begin (system : System) (id : Nat) (call : GeoLocatedIP → Worker) : Option System :=
  match system.workers.get id with
  | some ⟨geo, .idle⟩ => some { system with workers := system.workers.put id (call geo) }
  | _ => none

def expired (row : GeoLocatedIP) (now : Time) : Bool :=
  row.isBlocked && row.blockedUntil.any fun ends => ends ≤ now

def put (system : System) (id : Nat) (worker : Worker) : System :=
  { system with workers := system.workers.put id worker }

def proceed (system : System) (id : Nat) (worker : Worker) : Option System :=
  let geo := worker.geo
  match worker.phase with
  | .idle => none
  | .blocking update caller =>
    if update.Matches system.row then
      some { (system.put id ⟨geo, .reloading true caller⟩) with
        row := update.apply system.row
        written := update.blockedUntil :: system.written }
    else some (system.put id ⟨geo, .reloading false caller⟩)
  | .reloading _ caller => some (system.put id (.resume system.row caller))
  | .savingLevel _ =>
    some { (system.put id ⟨geo, .idle⟩) with
      row := { system.row with threatLevel := geo.threatLevel } }
  | .unblocking =>
    some { (system.put id ⟨geo, .idle⟩) with
      row := { system.row with isBlocked := geo.isBlocked, blockedUntil := geo.blockedUntil }
      written := [] }
  | .whitelisting =>
    some { (system.put id ⟨geo, .idle⟩) with
      row := { system.row with
        isWhitelisted := geo.isWhitelisted
        whitelistedUntil := geo.whitelistedUntil
        isBlocked := geo.isBlocked
        blockedUntil := geo.blockedUntil }
      written := [] }
  | .savingAll => some { (system.put id ⟨geo, .idle⟩) with row := geo }
  | .sweeping listed =>
    some { (system.put id ⟨geo, .idle⟩) with
      row :=
        if listed then { system.row with isBlocked := false, blockedUntil := none }
        else system.row }

def step (system : System) : Label → Option System
  | .tick time => some { system with clock := system.clock + time }
  | .load id =>
    match system.workers.get id with
    | none | some ⟨_, .idle⟩ => some (system.put id ⟨system.row, .idle⟩)
    | some _ => none
  | .updateThreatFromIncident id priority block =>
    system.begin id fun geo => .updateThreatFromIncident geo system.clock priority block
  | .block id ttl => system.begin id fun geo => .block geo system.clock ttl none
  | .unblock id => system.begin id .unblock
  | .whitelist id ends => system.begin id fun geo => .whitelist geo ends
  | .checkThreats id recalculated mojo =>
    system.begin id fun geo => .checkThreats geo recalculated mojo
  | .refresh id found => system.begin id fun geo => .refresh geo found
  | .sweepExpiredBlocks id =>
    system.begin id fun geo => ⟨geo, .sweeping (expired system.row system.clock)⟩
  | .proceed id => (system.workers.get id).bind fun worker => system.proceed id worker

end System

end DjangoMojo.Firewall
