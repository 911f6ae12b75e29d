import Mathlib.Data.Finset.Basic
import DjangoMojo.Firewall.GeoLocatedIP

/-! # Firewalls of a fleet

Rows of addresses are the truth; every host has a set of permanently blocked addresses and a rule
for each address that is blocked for a time. Calls change a row and then publish what the hosts are
to do; a host executes what it receives in the order of publication, and `sync_firewall` loads the
set from the rows.
-/

namespace DjangoMojo.Firewall

open Foundation

namespace GeoLocatedIP

def permanent (geo : GeoLocatedIP) : Bool := geo.isBlocked && geo.blockedUntil.isNone

def timed (geo : GeoLocatedIP) : Bool := geo.isBlocked && geo.blockedUntil.isSome

def unblocked (geo : GeoLocatedIP) : GeoLocatedIP :=
  { geo with isBlocked := false, blockedUntil := none }

end GeoLocatedIP

/-! ### Broadcasts -/

inductive Broadcast
  | blockIp (ips : List String)
  | unblockIp (ips : List String)
  | ipsetAddBlocked (ip : String)
  | ipsetDelBlocked (ip : String)
deriving DecidableEq

def Broadcast.ips : Broadcast → List String
  | .blockIp ips | .unblockIp ips => ips
  | .ipsetAddBlocked ip | .ipsetDelBlocked ip => [ip]

/-! ### Hosts -/

inductive SyncPhase
  | reading
  | querying (lastSync : Option Time) (now : Time)
  | listing (now : Time)
  | loading (permanentIps : List String) (now : Time)
  | marking (now : Time)
deriving DecidableEq

/-- A run of `sync_firewall`, fresh while no row has changed since it began. -/
structure Sync where
  phase : SyncPhase
  fresh : Bool
deriving DecidableEq

structure Host where
  pending : List Broadcast
  blocked : Finset String
  rules : Finset String
  syncs : Table Nat Sync
  faithful : Bool
  /-- It has missed nothing and was not restarted since it last loaded what the rows said. -/
  intact : Bool
  /-- It has run `sync_firewall` since the last change of a row and since its restart. -/
  synced : Bool

namespace Host

def start : Host := ⟨[], ∅, ∅, .empty, true, true, false⟩

/-- The handlers of the broadcasts, where every call of the broker succeeds. -/
def execute (host : Host) : Broadcast → Host
  | .blockIp ips => { host with rules := host.rules ∪ ips.toFinset }
  | .unblockIp ips => { host with rules := host.rules \ ips.toFinset }
  | .ipsetAddBlocked ip => { host with blocked := insert ip host.blocked }
  | .ipsetDelBlocked ip => { host with blocked := host.blocked.erase ip }

def restart (host : Host) : Host :=
  { host with
    blocked := ∅
    rules := ∅
    syncs := .empty
    faithful := false
    intact := false
    synced := false }

def rowsChanged (host : Host) : Host :=
  { host with
    syncs := host.syncs.mapRows fun sync => { sync with fresh := false }
    synced := false }

end Host

/-! ### Calls -/

structure Instance where
  ip : String
  geo : GeoLocatedIP

inductive Task
  | idle (self : Instance)
  | blocking (self : Instance) (update : BlockUpdate)
  | unblocking (self : Instance) (wasPermanent : Bool)
  | whitelisting (self : Instance) (wasBlocked wasPermanent : Bool)
  | sweeping (expired : List String)
  /-- What is left of a call: `refresh_from_db`, where it has one, and its broadcast. -/
  | ending (self : Option Instance) (reload : Bool) (broadcast : Option Broadcast)

structure Row where
  geo : GeoLocatedIP
  modified : Time

structure Fleet where
  rows : Table String Row
  clock : Time
  tasks : Table Nat Task
  hosts : Nat → Host
  lastSync : Option (Time × Time)

inductive FleetLabel
  | tick (elapsed : Nat)
  | appear (ip : String) (level : Option ThreatLevel)
  | load (id : Nat) (ip : String)
  | block (id : Nat) (ttl : Int)
  | unblock (id : Nat)
  | whitelist (id : Nat) (ends : Option Time)
  | sweepExpiredBlocks (id : Nat)
  | proceed (id : Nat)
  | execute (host : Nat)
  | miss (host : Nat)
  | restart (host : Nat)
  | syncFirewall (host job : Nat)
  | syncNext (host job : Nat)

namespace Fleet

def start (clock : Time) : Fleet := ⟨.empty, clock, .empty, fun _ => .start, none⟩

def geo? (fleet : Fleet) (ip : String) : Option GeoLocatedIP :=
  (fleet.rows.get ip).map Row.geo

def permanentIps (fleet : Fleet) : List String :=
  fleet.rows.select fun _ row => row.geo.permanent

def setTask (fleet : Fleet) (id : Nat) (task : Task) : Fleet :=
  { fleet with tasks := fleet.tasks.put id task }

def setHost (fleet : Fleet) (host : Nat) (state : Host) : Fleet :=
  { fleet with hosts := Function.update fleet.hosts host state }

def changeRows (fleet : Fleet) (rows : Table String Row) : Fleet :=
  { fleet with rows := rows, hosts := fun host => (fleet.hosts host).rowsChanged }

def changeRow (fleet : Fleet) (ip : String) (change : GeoLocatedIP → GeoLocatedIP) : Fleet :=
  fleet.changeRows (fleet.rows.modify ip fun row => { row with geo := change row.geo })

def publish (fleet : Fleet) (broadcast : Broadcast) : Fleet :=
  { fleet with hosts := fun host =>
      { fleet.hosts host with pending := (fleet.hosts host).pending ++ [broadcast] } }

/-- The update of the sweep, which does not look at the blocks again. -/
def sweep (rows : Table String Row) (ips : List String) : Table String Row :=
  ips.foldl (fun rows ip => rows.modify ip fun row => { row with geo := row.geo.unblocked }) rows

def expiredIps (fleet : Fleet) : List String :=
  fleet.rows.select fun _ row => System.expired row.geo fleet.clock

/-- The broadcast that takes a block away, by what was read of the row. -/
def unblockBroadcast (ip : String) (wasPermanent : Bool) : Broadcast :=
  if wasPermanent then .ipsetDelBlocked ip else .unblockIp [ip]

def blockBroadcast (ip : String) (update : BlockUpdate) : Broadcast :=
  if update.blockedUntil.isNone then .ipsetAddBlocked ip else .blockIp [ip]

def proceed (fleet : Fleet) (id : Nat) : Task → Option Fleet
  | .idle _ => none
  | .blocking self update =>
    if (fleet.geo? self.ip).any update.Matches then
      some ((fleet.changeRow self.ip update.apply).setTask id
        (.ending (some self) true (some (blockBroadcast self.ip update))))
    else some (fleet.setTask id (.ending (some self) true none))
  | .unblocking self wasPermanent =>
    some ((fleet.changeRow self.ip fun row =>
      { row with isBlocked := self.geo.isBlocked, blockedUntil := self.geo.blockedUntil }).setTask
        id (.ending (some self) false (some (unblockBroadcast self.ip wasPermanent))))
  | .whitelisting self wasBlocked wasPermanent =>
    some ((fleet.changeRow self.ip fun row =>
      { row with
        isWhitelisted := self.geo.isWhitelisted
        whitelistedUntil := self.geo.whitelistedUntil
        isBlocked := self.geo.isBlocked
        blockedUntil := self.geo.blockedUntil }).setTask id
          (.ending (some self) false
            (if wasBlocked then some (unblockBroadcast self.ip wasPermanent) else none)))
  | .sweeping expired =>
    some ((fleet.changeRows (sweep fleet.rows expired)).setTask id
      (.ending none false (some (.unblockIp expired))))
  | .ending (some self) true broadcast =>
    some (fleet.setTask id (.ending (some ⟨self.ip, (fleet.geo? self.ip).getD self.geo⟩) false
      broadcast))
  | .ending self _ broadcast =>
    let fleet := match broadcast with
      | some broadcast => fleet.publish broadcast
      | none => fleet
    some { fleet with tasks := match self with
      | some self => fleet.tasks.put id (.idle self)
      | none => fleet.tasks.delete id }

def begin (fleet : Fleet) (id : Nat) (call : Instance → Task) : Option Fleet :=
  match fleet.tasks.get id with
  | some (.idle self) => some (fleet.setTask id (call self))
  | _ => none

/-- `block` up to its update. -/
def block (fleet : Fleet) (ttl : Int) (self : Instance) : Task :=
  match (Worker.block self.geo fleet.clock ttl none).phase with
  | .blocking update _ => .blocking self update
  | _ => .idle self

/-- `unblock` reads the row before its save. -/
def unblock (fleet : Fleet) (self : Instance) : Task :=
  .unblocking ⟨self.ip, (Worker.unblock self.geo).geo⟩
    ((fleet.geo? self.ip).any GeoLocatedIP.permanent)

def whitelist (fleet : Fleet) (ends : Option Time) (self : Instance) : Task :=
  .whitelisting ⟨self.ip, (Worker.whitelist self.geo ends).geo⟩
    ((fleet.geo? self.ip).any GeoLocatedIP.isBlocked)
    ((fleet.geo? self.ip).any GeoLocatedIP.permanent)

/-! ### Reconciliation -/

def lastSync? (fleet : Fleet) : Option Time :=
  fleet.lastSync.bind fun (time, expires) => if fleet.clock < expires then some time else none

/-- A permanent block whose row was modified after the time. -/
def changedSince (fleet : Fleet) (time : Time) : Bool :=
  !(fleet.rows.select fun _ row => row.geo.permanent && time < row.modified).isEmpty

def skips (fleet : Fleet) (lastSync : Option Time) : Bool :=
  lastSync.any fun time => !fleet.changedSince time

/-- `ipset_load`, which refuses an empty list, on a host that syncs. -/
def loadSet (fleet : Fleet) (state : Host) (sync : Sync) (ips : List String) : Host :=
  if ips.isEmpty then { state with synced := state.synced || sync.fresh }
  else
    { state with
      blocked := ips.toFinset
      intact := decide (ips.toFinset = fleet.permanentIps.toFinset)
      synced := state.synced || sync.fresh }

def setSync (state : Host) (job : Nat) (sync : Sync) (phase : SyncPhase) : Host :=
  { state with syncs := state.syncs.put job { sync with phase } }

/-- The next step of `sync_firewall`. -/
def syncNext (fleet : Fleet) (host job : Nat) (sync : Sync) : Fleet :=
  let state := fleet.hosts host
  match sync.phase with
  | .reading =>
    fleet.setHost host (setSync state job sync (.querying fleet.lastSync? fleet.clock))
  | .querying lastSync now =>
    if fleet.skips lastSync then
      fleet.setHost host
        (setSync { state with synced := state.synced || sync.fresh } job sync (.marking now))
    else fleet.setHost host (setSync state job sync (.listing now))
  | .listing now =>
    fleet.setHost host (setSync state job sync (.loading fleet.permanentIps now))
  | .loading ips now =>
    fleet.setHost host (setSync (fleet.loadSet state sync ips) job sync (.marking now))
  | .marking now =>
    { fleet.setHost host { state with syncs := state.syncs.delete job } with
      lastSync := some (now, fleet.clock + 7200) }

/-! ### Steps -/

def step (fleet : Fleet) : FleetLabel → Option Fleet
  | .tick elapsed => some { fleet with clock := fleet.clock + elapsed }
  | .appear ip level =>
    if (fleet.rows.get ip).isSome then none
    else some { fleet with
      rows := fleet.rows.put ip ⟨⟨level, false, none, false, none⟩, fleet.clock⟩ }
  | .load id ip =>
    match fleet.tasks.get id, fleet.geo? ip with
    | none, some geo | some (.idle _), some geo => some (fleet.setTask id (.idle ⟨ip, geo⟩))
    | _, _ => none
  | .block id ttl => fleet.begin id (fleet.block ttl)
  | .unblock id => fleet.begin id fleet.unblock
  | .whitelist id ends => fleet.begin id (fleet.whitelist ends)
  | .sweepExpiredBlocks id =>
    if (fleet.tasks.get id).isSome then none
    else if fleet.expiredIps.isEmpty then some fleet
    else some (fleet.setTask id (.sweeping fleet.expiredIps))
  | .proceed id => (fleet.tasks.get id).bind fun task => fleet.proceed id task
  | .execute host =>
    match (fleet.hosts host).pending with
    | [] => none
    | broadcast :: rest => some (fleet.setHost host
        (Host.execute { fleet.hosts host with pending := rest } broadcast))
  | .miss host =>
    match (fleet.hosts host).pending with
    | [] => none
    | _ :: rest => some (fleet.setHost host
        { fleet.hosts host with pending := rest, faithful := false, intact := false })
  | .restart host => some (fleet.setHost host (fleet.hosts host).restart)
  | .syncFirewall host job =>
    if ((fleet.hosts host).syncs.get job).isSome then none
    else some (fleet.setHost host { fleet.hosts host with
      syncs := (fleet.hosts host).syncs.put job ⟨.reading, true⟩ })
  | .syncNext host job =>
    ((fleet.hosts host).syncs.get job).map fun sync => fleet.syncNext host job sync

end Fleet

end DjangoMojo.Firewall
