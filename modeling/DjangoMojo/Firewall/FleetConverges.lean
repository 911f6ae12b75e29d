import DjangoMojo.Foundation.Trace
import DjangoMojo.Firewall.Fleet

/-! # When hosts converge to the rows

What a host holds for an address is decided by the last broadcast about it that is still to come,
or, where there is none, by what it holds now. Along undisturbed steps that is what the row
says, for every host that has missed nothing or that has loaded the rows since.
-/

namespace DjangoMojo.Firewall

open Foundation

/-- One of the two places that an address can be in on a host. -/
inductive Cell
  | ipset (ip : String)
  | rule (ip : String)
deriving DecidableEq

def Cell.ip : Cell → String
  | .ipset ip | .rule ip => ip

def Broadcast.effect (cell : Cell) : Broadcast → Option Bool
  | .blockIp ips =>
    match cell with
    | .rule ip => if ip ∈ ips then some true else none
    | .ipset _ => none
  | .unblockIp ips =>
    match cell with
    | .rule ip => if ip ∈ ips then some false else none
    | .ipset _ => none
  | .ipsetAddBlocked other =>
    match cell with
    | .ipset ip => if ip = other then some true else none
    | .rule _ => none
  | .ipsetDelBlocked other =>
    match cell with
    | .ipset ip => if ip = other then some false else none
    | .rule _ => none

namespace Host

def holds (host : Host) : Cell → Bool
  | .ipset ip => decide (ip ∈ host.blocked)
  | .rule ip => decide (ip ∈ host.rules)

def upToDate (host : Host) : Bool := host.intact || host.synced

def relies (host : Host) : Cell → Bool
  | .ipset _ => host.upToDate
  | .rule _ => host.faithful

end Host

def Task.isIdle : Task → Bool
  | .idle _ => true
  | _ => false

/-- A call that takes a block away saves an instance without one. -/
def Task.Released : Task → Prop
  | .unblocking self _ | .whitelisting self _ _ => self.geo.isBlocked = false
  | _ => True

/-- The broadcast that a call is going to publish, now that it has changed its row. -/
def Task.announced : Task → Option Broadcast
  | .ending _ _ broadcast => broadcast
  | _ => none

namespace Fleet

def target (fleet : Fleet) : Cell → Bool
  | .ipset ip => (fleet.geo? ip).any GeoLocatedIP.permanent
  | .rule ip => (fleet.geo? ip).any GeoLocatedIP.timed

/-! ### Statements -/

def Resting (fleet : Fleet) : Prop :=
  ∀ id task, fleet.tasks.get id = some task → ∃ self, task = .idle self

/-- Once no call is under way and a host has no broadcasts before it, its set holds exactly the
permanent blocks if it has synced since the last change, or has missed nothing; and in the latter
case it has a rule exactly for the timed blocks. -/
def Converged (fleet : Fleet) : Prop :=
  fleet.Resting → ∀ host, (fleet.hosts host).pending = [] →
    ((fleet.hosts host).synced ∨ (fleet.hosts host).faithful →
      ∀ ip, (fleet.hosts host).holds (.ipset ip) = fleet.target (.ipset ip)) ∧
    ((fleet.hosts host).faithful →
      ∀ ip, (fleet.hosts host).holds (.rule ip) = fleet.target (.rule ip))

def Announces (fleet : Fleet) (id : Nat) (broadcast : Broadcast) : Prop :=
  ∃ task, fleet.tasks.get id = some task ∧ task.announced = some broadcast

def Announced (fleet : Fleet) (ip : String) : Prop :=
  ∃ id broadcast, fleet.Announces id broadcast ∧ ip ∈ broadcast.ips

/-- The statement that changes rows finds no broadcast about them outstanding, and the rows as
its call has read them: a permanent block replaces no timed one, what is taken away is what was
there when the call looked, and the sweep takes away no permanent block. -/
def TaskUndisturbed (fleet : Fleet) : Task → Prop
  | .blocking self update => (fleet.geo? self.ip).any update.Matches = true →
      ¬ fleet.Announced self.ip ∧
        (update.blockedUntil = none → fleet.target (.rule self.ip) = false)
  | .unblocking self wasPermanent =>
    ¬ fleet.Announced self.ip ∧ wasPermanent = fleet.target (.ipset self.ip)
  | .whitelisting self wasBlocked wasPermanent =>
    ¬ fleet.Announced self.ip ∧ wasPermanent = fleet.target (.ipset self.ip) ∧
      wasBlocked = (fleet.target (.ipset self.ip) || fleet.target (.rule self.ip))
  | .sweeping expired =>
    ∀ ip ∈ expired, ¬ fleet.Announced ip ∧ fleet.target (.ipset ip) = false
  | _ => True

/-- On a host that has synced since the last change, a broadcast that is missed would have left
the set as it is, or another one about the address is still to come. -/
def MissUndisturbed (state : Host) : Prop :=
  state.synced = true → ∀ broadcast rest, state.pending = broadcast :: rest → ∀ ip value,
    broadcast.effect (.ipset ip) = some value →
      state.holds (.ipset ip) = value ∨ ∃ later ∈ rest, (later.effect (.ipset ip)).isSome

/-- A run that is fresh on a host that has missed something is not skipped and has something to
load, unless another run has loaded it already; and a run that loads what it listed before a row
was changed does not do so on a host that is up to date. -/
def SyncUndisturbed (fleet : Fleet) (state : Host) (sync : Sync) : Prop :=
  match sync.phase with
  | .querying lastSync _ => fleet.skips lastSync = true → sync.fresh = true →
      state.upToDate = true
  | .loading ips _ =>
    (ips = [] → sync.fresh = true → state.upToDate = true) ∧
      (ips ≠ [] → state.upToDate = true → ips.toFinset = fleet.permanentIps.toFinset)
  | _ => True

def Undisturbed (fleet : Fleet) (label : FleetLabel) (_ : Fleet) : Prop :=
  match label with
  | .proceed id => ∀ task, fleet.tasks.get id = some task → fleet.TaskUndisturbed task
  | .miss host => MissUndisturbed (fleet.hosts host)
  | .syncNext host job => ∀ sync, (fleet.hosts host).syncs.get job = some sync →
      fleet.SyncUndisturbed (fleet.hosts host) sync
  | _ => True

end Fleet

/-! ### Queues of broadcasts -/

def lastEffect (cell : Cell) : List Broadcast → Option Bool
  | [] => none
  | broadcast :: rest => (lastEffect cell rest).or (broadcast.effect cell)

theorem lastEffect_append (cell : Cell) (first second : List Broadcast) :
    lastEffect cell (first ++ second) = (lastEffect cell second).or (lastEffect cell first) := by
  induction first with
  | nil => rw [List.nil_append, lastEffect, Option.or_none]
  | cons broadcast rest ih => rw [List.cons_append, lastEffect, ih, lastEffect, Option.or_assoc]

theorem lastEffect_singleton (cell : Cell) (broadcast : Broadcast) :
    lastEffect cell [broadcast] = broadcast.effect cell := Option.none_or

theorem lastEffect_isSome {cell : Cell} {queue : List Broadcast} {later : Broadcast}
    (hlater : later ∈ queue) (heffect : (later.effect cell).isSome) :
    (lastEffect cell queue).isSome := by
  induction queue with
  | nil => cases hlater
  | cons broadcast rest ih =>
    rw [lastEffect, Option.isSome_or, Bool.or_eq_true]
    rcases List.mem_cons.mp hlater with rfl | hrest
    · exact .inr heffect
    · exact .inl (ih hrest)

/-- A broadcast says nothing of the addresses that it does not name. -/
theorem effect_eq_none {cell : Cell} {broadcast : Broadcast} (hip : cell.ip ∉ broadcast.ips) :
    broadcast.effect cell = none := by
  cases broadcast <;> cases cell
  all_goals simp_all [Broadcast.effect, Broadcast.ips, Cell.ip]

theorem holds_execute (host : Host) (broadcast : Broadcast) (cell : Cell) :
    (host.execute broadcast).holds cell = (broadcast.effect cell).getD (host.holds cell) := by
  cases broadcast with
  | blockIp ips | unblockIp ips =>
    cases cell with
    | ipset ip => rfl
    | rule ip =>
      by_cases hip : ip ∈ ips <;> simp [Host.execute, Host.holds, Broadcast.effect, hip]
  | ipsetAddBlocked other | ipsetDelBlocked other =>
    cases cell with
    | rule ip => rfl
    | ipset ip =>
      by_cases hip : ip = other <;> simp [Host.execute, Host.holds, Broadcast.effect, hip]

theorem relies_execute (host : Host) (broadcast : Broadcast) (cell : Cell) :
    (host.execute broadcast).relies cell = host.relies cell := by
  cases broadcast <;> cases cell <;> rfl

/-! ### The invariant -/

/-- A place comes to what the row says: by the last broadcast about it in the queue, or as it is. -/
def Host.Agrees (host : Host) (cell : Cell) (queue : List Broadcast) (target : Bool) : Prop :=
  (∀ value, lastEffect cell queue = some value → value = target) ∧
    (lastEffect cell queue = none → host.relies cell = true → host.holds cell = target)

/-- One more broadcast, after which the row says what it makes of the place. -/
theorem Host.Agrees.append {host after : Host} {cell : Cell} {queue : List Broadcast}
    {before target : Bool} (hagrees : host.Agrees cell queue before) {broadcast : Broadcast}
    (htarget : (broadcast.effect cell).getD before = target)
    (hrelies : after.relies cell = true → host.relies cell = true)
    (hholds : after.holds cell = host.holds cell) :
    after.Agrees cell (queue ++ [broadcast]) target := by
  have hlast : lastEffect cell (queue ++ [broadcast]) =
      (broadcast.effect cell).or (lastEffect cell queue) := by
    rw [lastEffect_append, lastEffect_singleton]
  rw [Host.Agrees, hlast]
  cases heffect : broadcast.effect cell with
  | some value =>
    rw [heffect, Option.getD_some] at htarget
    refine ⟨fun found hfound => ?_, fun hnone => by cases hnone⟩
    rw [Option.some_or] at hfound
    cases hfound
    exact htarget
  | none =>
    rw [heffect, Option.getD_none] at htarget
    subst htarget
    rw [Option.none_or]
    exact ⟨hagrees.1, fun hnone hafter => hholds.trans (hagrees.2 hnone (hrelies hafter))⟩

theorem Host.Agrees.weaken {host after : Host} {cell : Cell} {queue : List Broadcast}
    {target : Bool} (hagrees : host.Agrees cell queue target)
    (hrelies : after.relies cell = true → host.relies cell = true)
    (hholds : after.holds cell = host.holds cell) : after.Agrees cell queue target :=
  ⟨hagrees.1, fun hnone hafter => hholds.trans (hagrees.2 hnone (hrelies hafter))⟩

namespace Fleet

/-- The broadcast about the address that is outstanding, where there is one. -/
def Outstanding (fleet : Fleet) (ip : String) : Option Broadcast → Prop
  | none => ¬ fleet.Announced ip
  | some broadcast => ∃ id, fleet.Announces id broadcast ∧ ip ∈ broadcast.ips

structure Sound (fleet : Fleet) : Prop where
  intact : ∀ host, (fleet.hosts host).faithful = true → (fleet.hosts host).intact = true
  alone : ∀ ip first second one other, fleet.Announces first one → fleet.Announces second other →
    ip ∈ one.ips → ip ∈ other.ips → first = second
  agrees : ∀ host cell outstanding, fleet.Outstanding cell.ip outstanding →
    (fleet.hosts host).Agrees cell ((fleet.hosts host).pending ++ outstanding.toList)
      (fleet.target cell)

theorem target_start (clock : Time) (cell : Cell) : (start clock).target cell = false := by
  cases cell <;> rfl

theorem sound_start (clock : Time) : (start clock).Sound where
  intact _ _ := rfl
  alone ip first second one other hone := by
    obtain ⟨_, hone, _⟩ := hone
    cases hone
  agrees host cell outstanding houtstanding := by
    cases outstanding with
    | none =>
      rw [target_start]
      refine ⟨fun value hvalue => (by cases hvalue), fun _ _ => ?_⟩
      cases cell <;> rfl
    | some broadcast =>
      obtain ⟨_, ⟨_, hannounces, _⟩, _⟩ := houtstanding
      cases hannounces

/-! ### Rows -/

variable {fleet next : Fleet}

theorem geo?_put (fleet : Fleet) (ip : String) (row : Row) (other : String) :
    geo? { fleet with rows := fleet.rows.put ip row } other =
      if other = ip then some row.geo else fleet.geo? other := by
  rw [geo?, Table.get_put]
  split <;> rfl

theorem geo?_changeRow (fleet : Fleet) (ip : String) (change : GeoLocatedIP → GeoLocatedIP)
    (other : String) : (fleet.changeRow ip change).geo? other =
      if other = ip then (fleet.geo? other).map change else fleet.geo? other := by
  change ((fleet.rows.modify ip _).get other).map Row.geo = _
  rw [Table.get_modify]
  split
  · rw [Option.map_map, geo?, Option.map_map]
    rfl
  · rfl

theorem get_sweep (rows : Table String Row) (ips : List String) (ip : String) :
    (sweep rows ips).get ip = if ip ∈ ips then
      (rows.get ip).map fun row => { row with geo := row.geo.unblocked } else rows.get ip := by
  induction ips generalizing rows with
  | nil => rfl
  | cons first rest ih =>
    change (sweep (rows.modify first _) rest).get ip = _
    rw [ih, Table.get_modify]
    by_cases hfirst : ip = first
    · rw [if_pos hfirst, if_pos (List.mem_cons.mpr (.inl hfirst)), Option.map_map]
      split <;> rfl
    · have hiff : ip ∈ first :: rest ↔ ip ∈ rest := by
        rw [List.mem_cons, or_iff_right hfirst]
      rw [if_neg hfirst]
      simp only [hiff]

theorem geo?_sweep (fleet : Fleet) (ips : List String) (ip : String) :
    (fleet.changeRows (sweep fleet.rows ips)).geo? ip =
      if ip ∈ ips then (fleet.geo? ip).map GeoLocatedIP.unblocked else fleet.geo? ip := by
  change ((sweep fleet.rows ips).get ip).map Row.geo = _
  rw [get_sweep]
  split
  · rw [Option.map_map, geo?, Option.map_map]
    rfl
  · rfl

theorem target_congr {cell : Cell} (hgeo : next.geo? cell.ip = fleet.geo? cell.ip) :
    next.target cell = fleet.target cell := by
  cases cell with
  | ipset ip =>
    change (next.geo? ip).any _ = (fleet.geo? ip).any _
    rw [show next.geo? ip = fleet.geo? ip from hgeo]
  | rule ip =>
    change (next.geo? ip).any _ = (fleet.geo? ip).any _
    rw [show next.geo? ip = fleet.geo? ip from hgeo]

/-! ### Calls -/

theorem target_setTask (fleet : Fleet) (id : Nat) (task : Task) (cell : Cell) :
    (fleet.setTask id task).target cell = fleet.target cell := target_congr rfl

/-- Tasks are replaced, and what is announced stays announced; the rows say what they said. -/
theorem Sound.retask (hsound : fleet.Sound) (htarget : ∀ cell, next.target cell = fleet.target cell)
    (hhosts : next.hosts = fleet.hosts)
    (hannounces : ∀ id broadcast, next.Announces id broadcast ↔ fleet.Announces id broadcast) :
    next.Sound where
  intact := by
    rw [hhosts]
    exact hsound.intact
  alone ip first second one other hone hother :=
    hsound.alone ip first second one other ((hannounces _ _).mp hone) ((hannounces _ _).mp hother)
  agrees host cell outstanding houtstanding := by
    rw [hhosts, htarget]
    refine hsound.agrees host cell outstanding ?_
    cases outstanding with
    | none =>
      rintro ⟨id, broadcast, hbroadcast, hip⟩
      exact houtstanding ⟨id, broadcast, (hannounces _ _).mpr hbroadcast, hip⟩
    | some broadcast =>
      obtain ⟨id, hbroadcast, hip⟩ := houtstanding
      exact ⟨id, (hannounces _ _).mp hbroadcast, hip⟩

theorem get_setTask (fleet : Fleet) (id : Nat) (task : Task) (other : Nat) :
    (fleet.setTask id task).tasks.get other =
      if other = id then some task else fleet.tasks.get other :=
  Table.get_put fleet.tasks id task other

theorem announces_setTask {id : Nat} {task : Task} {other : Nat} {broadcast : Broadcast} :
    (fleet.setTask id task).Announces other broadcast ↔
      if other = id then task.announced = some broadcast else fleet.Announces other broadcast := by
  rw [Announces, get_setTask]
  split
  next heq =>
    constructor
    · rintro ⟨_, ⟨⟩, hannounced⟩
      exact hannounced
    · exact fun hannounced => ⟨task, rfl, hannounced⟩
  next hne => rfl

theorem Sound.setTask (hsound : fleet.Sound) {id : Nat} {task : Task}
    (hsame : (fleet.tasks.get id).bind Task.announced = task.announced) :
    (fleet.setTask id task).Sound := by
  refine hsound.retask (target_setTask fleet id task) rfl fun other broadcast => ?_
  rw [announces_setTask]
  split
  next heq =>
    subst heq
    rw [← hsame, Option.bind_eq_some_iff]
    rfl
  next => exact Iff.rfl

/-- Rows are changed by a call that has announced nothing yet, and the broadcast that it announces
makes of every place what the rows say then. -/
theorem Sound.changeRows (hsound : fleet.Sound) {rows : Table String Row} {id : Nat} {task : Task}
    (hnone : (fleet.tasks.get id).bind Task.announced = none)
    (hcells : ∀ cell, (∃ broadcast, task.announced = some broadcast ∧ cell.ip ∈ broadcast.ips ∧
        ¬ fleet.Announced cell.ip ∧ (broadcast.effect cell).getD (fleet.target cell) =
          ((fleet.changeRows rows).setTask id task).target cell) ∨
      (∀ broadcast, task.announced = some broadcast → cell.ip ∉ broadcast.ips) ∧
        ((fleet.changeRows rows).setTask id task).target cell = fleet.target cell) :
    ((fleet.changeRows rows).setTask id task).Sound := by
  have hannounces : ∀ other broadcast,
      ((fleet.changeRows rows).setTask id task).Announces other broadcast ↔
        if other = id then task.announced = some broadcast
        else fleet.Announces other broadcast := fun _ _ => announces_setTask
  -- nobody else speaks of an address that the call announces
  have halone : ∀ ip other broadcast one, task.announced = some one → ip ∈ one.ips →
      other ≠ id → fleet.Announces other broadcast → ip ∉ broadcast.ips := by
    intro ip other broadcast one hone hip hne hother hmem
    rcases hcells (.ipset ip) with ⟨_, _, _, hfree, _⟩ | ⟨hnot, _⟩
    · exact hfree ⟨other, broadcast, hother, hmem⟩
    · exact hnot one hone hip
  refine ⟨hsound.intact, ?_, ?_⟩
  · intro ip first second one other hone hother hip hsame
    rw [hannounces] at hone hother
    by_cases hfirst : first = id
    · by_cases hsecond : second = id
      · rw [hfirst, hsecond]
      · rw [if_pos hfirst] at hone
        rw [if_neg hsecond] at hother
        exact absurd hsame (halone ip second other one hone hip hsecond hother)
    · rw [if_neg hfirst] at hone
      by_cases hsecond : second = id
      · rw [if_pos hsecond] at hother
        exact absurd hip (halone ip first one other hother hsame hfirst hone)
      · rw [if_neg hsecond] at hother
        exact hsound.alone ip first second one other hone hother hip hsame
  · intro host cell outstanding houtstanding
    have hrelies : ((fleet.hosts host).rowsChanged).relies cell = true →
        (fleet.hosts host).relies cell = true := by
      cases cell with
      | ipset ip =>
        intro hchanged
        change ((fleet.hosts host).intact || false) = true at hchanged
        rw [Bool.or_false] at hchanged
        change ((fleet.hosts host).intact || (fleet.hosts host).synced) = true
        rw [hchanged, Bool.true_or]
      | rule ip => exact fun hchanged => hchanged
    have hholds : ((fleet.hosts host).rowsChanged).holds cell = (fleet.hosts host).holds cell := by
      cases cell <;> rfl
    rcases hcells cell with ⟨broadcast, htask, hip, hfree, htarget⟩ | ⟨hnot, htarget⟩
    · -- the only broadcast outstanding is the one that is announced now
      have honly : outstanding = some broadcast := by
        cases outstanding with
        | none =>
          exact absurd ⟨id, broadcast, (hannounces _ _).mpr ((if_pos rfl).mpr htask), hip⟩
            houtstanding
        | some other =>
          obtain ⟨key, hother, hmem⟩ := houtstanding
          rw [hannounces] at hother
          split at hother
          · rw [← hother, htask]
          next hne => exact absurd hmem (halone cell.ip key other broadcast htask hip hne hother)
      subst honly
      have hbefore := hsound.agrees host cell none hfree
      rw [Option.toList_none, List.append_nil] at hbefore
      exact hbefore.append htarget hrelies hholds
    · rw [htarget]
      refine (hsound.agrees host cell outstanding ?_).weaken hrelies hholds
      cases outstanding with
      | none =>
        rintro ⟨key, broadcast, hother, hmem⟩
        refine houtstanding ⟨key, broadcast, (hannounces _ _).mpr ?_, hmem⟩
        rw [if_neg]
        · exact hother
        · rintro rfl
          obtain ⟨old, hold, hannounced⟩ := hother
          rw [hold, Option.bind_some, hannounced] at hnone
          cases hnone
      | some broadcast =>
        obtain ⟨key, hother, hmem⟩ := houtstanding
        rw [hannounces] at hother
        split at hother
        · exact absurd hmem (hnot broadcast hother)
        · exact ⟨key, hother, hmem⟩

/-! ### Statements of a call -/

theorem target_eq_false {cell : Cell}
    (hgeo : ∀ geo, fleet.geo? cell.ip = some geo → geo.isBlocked = false) :
    fleet.target cell = false := by
  cases hfound : fleet.geo? cell.ip with
  | none =>
    cases cell with
    | ipset ip | rule ip =>
      change (fleet.geo? ip).any _ = false
      rw [show fleet.geo? ip = none from hfound]
      rfl
  | some geo =>
    have hblocked := hgeo geo hfound
    cases cell with
    | ipset ip =>
      change (fleet.geo? ip).any _ = false
      rw [show fleet.geo? ip = some geo from hfound]
      simp [GeoLocatedIP.permanent, hblocked]
    | rule ip =>
      change (fleet.geo? ip).any _ = false
      rw [show fleet.geo? ip = some geo from hfound]
      simp [GeoLocatedIP.timed, hblocked]

theorem target_rule_of_ipset {ip : String} (hpermanent : fleet.target (.ipset ip) = true) :
    fleet.target (.rule ip) = false := by
  change (fleet.geo? ip).any _ = true at hpermanent
  change (fleet.geo? ip).any _ = false
  cases hgeo : fleet.geo? ip with
  | none => rfl
  | some geo =>
    rw [hgeo] at hpermanent
    simp only [Option.any_some, GeoLocatedIP.permanent, Bool.and_eq_true,
      Option.isNone_iff_eq_none] at hpermanent
    simp [GeoLocatedIP.timed, hpermanent.2]

theorem ips_unblockBroadcast (ip : String) (wasPermanent : Bool) :
    (unblockBroadcast ip wasPermanent).ips = [ip] := by
  cases wasPermanent <;> rfl

theorem ips_blockBroadcast (ip : String) (update : BlockUpdate) :
    (blockBroadcast ip update).ips = [ip] := by
  unfold blockBroadcast
  split <;> rfl

/-- What takes a block away, where the call has read which kind it was. -/
theorem effect_unblockBroadcast {cell : Cell} {wasPermanent : Bool}
    (hread : wasPermanent = fleet.target (.ipset cell.ip)) :
    ((unblockBroadcast cell.ip wasPermanent).effect cell).getD (fleet.target cell) = false := by
  cases hcase : wasPermanent with
  | true =>
    rw [hcase] at hread
    cases cell with
    | ipset ip => simp [unblockBroadcast, Broadcast.effect, Cell.ip]
    | rule ip => exact target_rule_of_ipset hread.symm
  | false =>
    rw [hcase] at hread
    cases cell with
    | ipset ip => exact hread.symm
    | rule ip => simp [unblockBroadcast, Broadcast.effect, Cell.ip]

/-- A row that is changed leaves the places of other addresses alone. -/
theorem target_changeRow_of_ne {ip : String} {change : GeoLocatedIP → GeoLocatedIP} {cell : Cell}
    (hne : cell.ip ≠ ip) : (fleet.changeRow ip change).target cell = fleet.target cell := by
  refine target_congr ?_
  rw [geo?_changeRow, if_neg hne]

theorem Sound.changeRow (hsound : fleet.Sound) {ip : String} {change : GeoLocatedIP → GeoLocatedIP}
    {id : Nat} {task : Task} {broadcast : Broadcast}
    (hnone : (fleet.tasks.get id).bind Task.announced = none)
    (htask : task.announced = some broadcast) (hips : broadcast.ips = [ip])
    (hfree : ¬ fleet.Announced ip)
    (htarget : ∀ cell : Cell, cell.ip = ip → (broadcast.effect cell).getD (fleet.target cell) =
      (fleet.changeRow ip change).target cell) :
    ((fleet.changeRow ip change).setTask id task).Sound := by
  refine hsound.changeRows hnone fun cell => ?_
  by_cases heq : cell.ip = ip
  · refine .inl ⟨broadcast, htask, ?_, ?_, ?_⟩
    · rw [hips, heq]
      exact List.mem_singleton_self ip
    · rw [heq]
      exact hfree
    · exact (htarget cell heq).trans (target_setTask _ id task cell).symm
  · refine .inr ⟨fun other hother => ?_, ?_⟩
    · rw [htask] at hother
      cases hother
      rw [hips, List.mem_singleton]
      exact heq
    · exact (target_setTask _ id task cell).trans (target_changeRow_of_ne heq)

theorem Sound.blocking (hsound : fleet.Sound) {id : Nat} {self : Instance} {update : BlockUpdate}
    (hget : fleet.tasks.get id = some (.blocking self update))
    (hmatches : (fleet.geo? self.ip).any update.Matches = true)
    (hfree : ¬ fleet.Announced self.ip)
    (htimed : update.blockedUntil = none → fleet.target (.rule self.ip) = false) :
    ((fleet.changeRow self.ip update.apply).setTask id
      (.ending (some self) true (some (blockBroadcast self.ip update)))).Sound := by
  refine hsound.changeRow (by rw [hget]; rfl) rfl (ips_blockBroadcast _ _) hfree ?_
  intro cell heq
  rw [Option.any_eq_true] at hmatches
  obtain ⟨geo, hgeo, hmatch⟩ := hmatches
  have hafter : (fleet.changeRow self.ip update.apply).geo? self.ip = some (update.apply geo) := by
    rw [geo?_changeRow, if_pos rfl, hgeo]
    rfl
  cases cell with
  | ipset ip =>
    cases (heq : ip = self.ip)
    change _ = ((fleet.changeRow self.ip update.apply).geo? self.ip).any _
    rw [hafter]
    cases hends : update.blockedUntil with
    | none =>
      simp [blockBroadcast, hends, Broadcast.effect, GeoLocatedIP.permanent, BlockUpdate.apply]
    | some ends =>
      -- a row that the update matches holds no permanent block
      have hbefore : fleet.target (.ipset self.ip) = false := by
        change (fleet.geo? self.ip).any _ = false
        rw [hgeo]
        simp only [BlockUpdate.Matches, Bool.or_eq_true, Bool.not_eq_true'] at hmatch
        rcases hmatch with hfalse | hexpired
        · simp [GeoLocatedIP.permanent, hfalse]
        · cases huntil : geo.blockedUntil with
          | none =>
            rw [huntil] at hexpired
            cases hexpired
          | some past => simp [GeoLocatedIP.permanent, huntil]
      simp [blockBroadcast, hends, Broadcast.effect, GeoLocatedIP.permanent, BlockUpdate.apply,
        hbefore]
  | rule ip =>
    cases (heq : ip = self.ip)
    change _ = ((fleet.changeRow self.ip update.apply).geo? self.ip).any _
    rw [hafter]
    cases hends : update.blockedUntil with
    | none =>
      simp [blockBroadcast, hends, Broadcast.effect, GeoLocatedIP.timed, BlockUpdate.apply,
        htimed hends]
    | some ends =>
      simp [blockBroadcast, hends, Broadcast.effect, GeoLocatedIP.timed, BlockUpdate.apply]

/-- A block is taken away, and the broadcast says of which kind it was. -/
theorem Sound.release (hsound : fleet.Sound) {id : Nat} {task : Task} {ip : String}
    {wasPermanent : Bool} {change : GeoLocatedIP → GeoLocatedIP}
    (hnone : (fleet.tasks.get id).bind Task.announced = none)
    (htask : task.announced = some (unblockBroadcast ip wasPermanent))
    (hfree : ¬ fleet.Announced ip) (hread : wasPermanent = fleet.target (.ipset ip))
    (hchange : ∀ geo, (change geo).isBlocked = false) :
    ((fleet.changeRow ip change).setTask id task).Sound := by
  refine hsound.changeRow hnone htask (ips_unblockBroadcast _ _) hfree ?_
  intro cell heq
  subst heq
  rw [effect_unblockBroadcast hread]
  refine (target_eq_false fun geo hgeo => ?_).symm
  rw [geo?_changeRow, if_pos rfl] at hgeo
  obtain ⟨before, _, rfl⟩ := Option.map_eq_some_iff.mp hgeo
  exact hchange before

/-- A whitelist of an address that is nowhere changes nothing for the hosts. -/
theorem Sound.whitelistOnly (hsound : fleet.Sound) {id : Nat} {task : Task} {ip : String}
    {change : GeoLocatedIP → GeoLocatedIP}
    (hnone : (fleet.tasks.get id).bind Task.announced = none) (htask : task.announced = none)
    (hset : fleet.target (.ipset ip) = false) (hrule : fleet.target (.rule ip) = false)
    (hchange : ∀ geo, (change geo).isBlocked = false) :
    ((fleet.changeRow ip change).setTask id task).Sound := by
  refine hsound.changeRows hnone fun cell => .inr ⟨fun broadcast hother => ?_, ?_⟩
  · rw [htask] at hother
    cases hother
  · refine (target_setTask _ id task cell).trans ?_
    by_cases heq : cell.ip = ip
    · have hafter : (fleet.changeRow ip change).target cell = false := by
        refine target_eq_false fun geo hgeo => ?_
        rw [geo?_changeRow, if_pos heq] at hgeo
        obtain ⟨before, _, rfl⟩ := Option.map_eq_some_iff.mp hgeo
        exact hchange before
      refine hafter.trans ?_
      cases cell with
      | ipset other =>
        cases (heq : other = ip)
        exact hset.symm
      | rule other =>
        cases (heq : other = ip)
        exact hrule.symm
    · exact target_changeRow_of_ne heq

theorem Sound.sweeping (hsound : fleet.Sound) {id : Nat} {expired : List String}
    (hget : fleet.tasks.get id = some (.sweeping expired))
    (hclean : ∀ ip ∈ expired, ¬ fleet.Announced ip ∧ fleet.target (.ipset ip) = false) :
    ((fleet.changeRows (sweep fleet.rows expired)).setTask id
      (.ending none false (some (.unblockIp expired)))).Sound := by
  refine hsound.changeRows (by rw [hget]; rfl) fun cell => ?_
  by_cases hmem : cell.ip ∈ expired
  · obtain ⟨hfree, hset⟩ := hclean cell.ip hmem
    refine .inl ⟨_, rfl, hmem, hfree, ?_⟩
    have hafter : (fleet.changeRows (sweep fleet.rows expired)).target cell = false := by
      refine target_eq_false fun geo hgeo => ?_
      rw [geo?_sweep, if_pos hmem] at hgeo
      obtain ⟨before, _, rfl⟩ := Option.map_eq_some_iff.mp hgeo
      rfl
    refine Eq.trans ?_ (hafter.symm.trans (target_setTask _ id _ cell).symm)
    cases cell with
    | ipset ip => exact hset
    | rule ip => simp [Broadcast.effect, show ip ∈ expired from hmem]
  · refine .inr ⟨fun broadcast hother => ?_, ?_⟩
    · cases hother
      exact hmem
    · refine (target_setTask _ id _ cell).trans (target_congr ?_)
      rw [geo?_sweep, if_neg hmem]

theorem Sound.publish (hsound : fleet.Sound) {id : Nat} {task : Task} {broadcast : Broadcast}
    (hget : fleet.tasks.get id = some task) (hannounced : task.announced = some broadcast)
    {tasks : Table Nat Task}
    (hothers : ∀ other, other ≠ id → tasks.get other = fleet.tasks.get other)
    (hdone : (tasks.get id).bind Task.announced = none) :
    ({ fleet.publish broadcast with tasks := tasks } : Fleet).Sound := by
  have hannounces : ∀ other one,
      ({ fleet.publish broadcast with tasks := tasks } : Fleet).Announces other one →
        other ≠ id ∧ fleet.Announces other one := by
    rintro other one ⟨found, hfound, hone⟩
    change tasks.get other = some found at hfound
    have hne : other ≠ id := by
      rintro rfl
      rw [hfound, Option.bind_some, hone] at hdone
      cases hdone
    exact ⟨hne, found, (hothers other hne).symm.trans hfound, hone⟩
  refine ⟨hsound.intact, ?_, ?_⟩
  · intro ip first second one other hone hother
    exact hsound.alone ip first second one other (hannounces _ _ hone).2 (hannounces _ _ hother).2
  · intro host cell outstanding houtstanding
    change Host.Agrees { fleet.hosts host with pending := _ } cell
      (((fleet.hosts host).pending ++ [broadcast]) ++ outstanding.toList) (fleet.target cell)
    have hweaken : ∀ queue, (fleet.hosts host).Agrees cell queue (fleet.target cell) →
        Host.Agrees
          { fleet.hosts host with pending := (fleet.hosts host).pending ++ [broadcast] } cell queue
          (fleet.target cell) := by
      intro queue hagrees
      refine hagrees.weaken ?_ ?_
      · cases cell <;> exact fun hrelies => hrelies
      · cases cell <;> rfl
    refine hweaken _ ?_
    by_cases hip : cell.ip ∈ broadcast.ips
    · -- nothing else is outstanding for the address
      have hnone : outstanding = none := by
        cases outstanding with
        | none => rfl
        | some other =>
          obtain ⟨key, hother, hmem⟩ := houtstanding
          obtain ⟨hne, hbefore⟩ := hannounces key other hother
          exact absurd (hsound.alone cell.ip key id other broadcast hbefore
            ⟨task, hget, hannounced⟩ hmem hip) hne
      subst hnone
      rw [Option.toList_none, List.append_nil]
      exact hsound.agrees host cell (some broadcast) ⟨id, ⟨task, hget, hannounced⟩, hip⟩
    · have hbefore : fleet.Outstanding cell.ip outstanding := by
        cases outstanding with
        | none =>
          rintro ⟨key, other, ⟨found, hfound, hother⟩, hmem⟩
          by_cases heq : key = id
          · subst heq
            rw [hget] at hfound
            cases hfound
            rw [hannounced] at hother
            cases hother
            exact hip hmem
          · exact houtstanding ⟨key, other, ⟨found, (hothers key heq).trans hfound, hother⟩, hmem⟩
        | some other =>
          obtain ⟨key, hother, hmem⟩ := houtstanding
          exact ⟨key, (hannounces key other hother).2, hmem⟩
      have hagrees := hsound.agrees host cell outstanding hbefore
      have hlast : lastEffect cell (((fleet.hosts host).pending ++ [broadcast]) ++
          outstanding.toList) = lastEffect cell ((fleet.hosts host).pending ++
            outstanding.toList) := by
        rw [lastEffect_append, lastEffect_append, lastEffect_append, lastEffect_singleton,
          effect_eq_none hip, Option.none_or]
      rw [Host.Agrees, hlast]
      exact hagrees

/-- The instances that calls save where they take a block away hold none. -/
def Releases (fleet : Fleet) : Prop := fleet.tasks.All Task.Released

theorem Sound.proceed (hsound : fleet.Sound) (hreleases : fleet.Releases) {id : Nat} {task : Task}
    (hget : fleet.tasks.get id = some task) (hclean : fleet.TaskUndisturbed task)
    (hnext : fleet.proceed id task = some next) : next.Sound := by
  have hreleased := hreleases id task hget
  cases task with
  | idle self => cases hnext
  | blocking self update =>
    simp only [Fleet.proceed] at hnext
    split at hnext
    next hmatches =>
      cases hnext
      obtain ⟨hfree, htimed⟩ := hclean hmatches
      exact hsound.blocking hget hmatches hfree htimed
    next =>
      cases hnext
      exact hsound.setTask (by rw [hget]; rfl)
  | unblocking self wasPermanent =>
    cases hnext
    exact hsound.release (by rw [hget]; rfl) rfl hclean.1 hclean.2 fun _ => hreleased
  | whitelisting self wasBlocked wasPermanent =>
    obtain ⟨hfree, hpermanent, hblocked⟩ := hclean
    cases hnext
    cases hcase : wasBlocked with
    | true =>
      exact hsound.release (by rw [hget]; rfl) rfl hfree hpermanent fun _ => hreleased
    | false =>
      rw [hcase] at hblocked
      obtain ⟨hset, hrule⟩ := Bool.or_eq_false_iff.mp hblocked.symm
      exact hsound.whitelistOnly (by rw [hget]; rfl) rfl hset hrule fun _ => hreleased
  | sweeping expired =>
    cases hnext
    exact hsound.sweeping hget hclean
  | ending self reload broadcast =>
    -- the end of a call, where no reload is left
    have hends : ∀ tasks : Table Nat Task,
        (∀ other, other ≠ id → tasks.get other = fleet.tasks.get other) →
        (tasks.get id).bind Task.announced = none →
        Sound { broadcast.elim fleet fleet.publish with tasks := tasks } := by
      intro tasks hothers hdone
      cases broadcast with
      | some broadcast => exact hsound.publish hget rfl hothers hdone
      | none =>
        refine hsound.retask (fun _ => target_congr rfl) rfl fun other one => ?_
        by_cases heq : other = id
        · subst heq
          constructor
          · rintro ⟨found, hfound, hone⟩
            change tasks.get other = some found at hfound
            rw [hfound, Option.bind_some, hone] at hdone
            cases hdone
          · rintro ⟨found, hfound, hone⟩
            rw [hget] at hfound
            cases hfound
            cases hone
        · change (∃ task, tasks.get other = some task ∧ _) ↔ _
          rw [hothers other heq]
          rfl
    cases self with
    | none =>
      cases hnext
      cases broadcast <;>
        exact hends _ (fun _ hne => (Table.get_delete _ _ _).trans (if_neg hne))
          (by rw [Table.get_delete, if_pos rfl]; rfl)
    | some self =>
      cases reload with
      | true =>
        cases hnext
        exact hsound.setTask (by rw [hget]; rfl)
      | false =>
        cases hnext
        cases broadcast <;>
          exact hends _ (fun _ hne => (Table.get_put _ _ _ _).trans (if_neg hne))
            (by rw [Table.get_put, if_pos rfl]; rfl)

/-! ### Hosts -/

/-- One host changes, and its places still come to what the rows say. -/
theorem Sound.setHost (hsound : fleet.Sound) {host : Nat} {state : Host}
    (hintact : state.faithful = true → state.intact = true)
    (hagrees : ∀ cell (outstanding : Option Broadcast) target,
      (fleet.hosts host).Agrees cell ((fleet.hosts host).pending ++ outstanding.toList) target →
      target = fleet.target cell →
        state.Agrees cell (state.pending ++ outstanding.toList) target) :
    (fleet.setHost host state).Sound where
  intact other hfaithful := by
    by_cases heq : other = host
    · subst heq
      change (Function.update fleet.hosts other state other).faithful = true at hfaithful
      change (Function.update fleet.hosts other state other).intact = true
      rw [Function.update_self] at hfaithful ⊢
      exact hintact hfaithful
    · change (Function.update fleet.hosts host state other).faithful = true at hfaithful
      change (Function.update fleet.hosts host state other).intact = true
      rw [Function.update_of_ne heq] at hfaithful ⊢
      exact hsound.intact other hfaithful
  alone := hsound.alone
  agrees other cell outstanding houtstanding := by
    have hbefore := hsound.agrees other cell outstanding houtstanding
    change Host.Agrees (Function.update fleet.hosts host state other) cell
      ((Function.update fleet.hosts host state other).pending ++ _) (fleet.target cell)
    by_cases heq : other = host
    · subst heq
      rw [Function.update_self]
      exact hagrees cell outstanding _ hbefore rfl
    · rw [Function.update_of_ne heq]
      exact hbefore

/-- The host keeps its queue, holds the same and relies on no more. -/
theorem Sound.setHost_of_same (hsound : fleet.Sound) {host : Nat} {state : Host}
    (hpending : state.pending = (fleet.hosts host).pending)
    (hintact : state.faithful = true → state.intact = true)
    (hholds : ∀ cell, state.holds cell = (fleet.hosts host).holds cell)
    (hrelies : ∀ cell, state.relies cell = true → (fleet.hosts host).relies cell = true) :
    (fleet.setHost host state).Sound := by
  refine hsound.setHost hintact fun cell outstanding target hagrees _ => ?_
  rw [hpending]
  exact hagrees.weaken (hrelies cell) (hholds cell)

theorem Sound.execute (hsound : fleet.Sound) {host : Nat} {broadcast : Broadcast}
    {rest : List Broadcast} (hpending : (fleet.hosts host).pending = broadcast :: rest) :
    (fleet.setHost host
      (Host.execute { fleet.hosts host with pending := rest } broadcast)).Sound := by
  have hrest : ∀ state : Host, (state.execute broadcast).pending = state.pending ∧
      (state.execute broadcast).faithful = state.faithful ∧
      (state.execute broadcast).intact = state.intact := by
    intro state
    cases broadcast <;> exact ⟨rfl, rfl, rfl⟩
  refine hsound.setHost (fun hfaithful => ?_) fun cell outstanding target hagrees _ => ?_
  · rw [(hrest _).2.1] at hfaithful
    rw [(hrest _).2.2]
    exact hsound.intact host hfaithful
  · rw [(hrest _).1]
    rw [hpending, Host.Agrees, List.cons_append, lastEffect] at hagrees
    obtain ⟨hlast, hnone⟩ := hagrees
    refine ⟨fun value hvalue => hlast value ?_, fun hqueue hrelies => ?_⟩
    · change lastEffect cell (rest ++ _) = some value at hvalue
      rw [hvalue, Option.some_or]
    · change lastEffect cell (rest ++ _) = none at hqueue
      rw [hqueue, Option.none_or] at hlast hnone
      rw [holds_execute]
      cases heffect : broadcast.effect cell with
      | some value => exact hlast value heffect
      | none =>
        rw [relies_execute] at hrelies
        have hkept := hnone heffect
        cases cell <;> exact hkept hrelies

theorem Sound.miss (hsound : fleet.Sound) {host : Nat} {broadcast : Broadcast}
    {rest : List Broadcast} (hpending : (fleet.hosts host).pending = broadcast :: rest)
    (hclean : MissUndisturbed (fleet.hosts host)) :
    (fleet.setHost host
      { fleet.hosts host with pending := rest, faithful := false, intact := false }).Sound := by
  refine hsound.setHost (fun hfaithful => (by cases hfaithful)) ?_
  intro cell outstanding target hagrees _
  rw [hpending, Host.Agrees, List.cons_append, lastEffect] at hagrees
  obtain ⟨hlast, hnone⟩ := hagrees
  refine ⟨fun value hvalue => hlast value ?_, fun hqueue hrelies => ?_⟩
  · change lastEffect cell (rest ++ _) = some value at hvalue
    rw [hvalue, Option.some_or]
  · change lastEffect cell (rest ++ _) = none at hqueue
    rw [hqueue, Option.none_or] at hlast hnone
    cases cell with
    | rule ip => cases hrelies
    | ipset ip =>
      have hsynced : (fleet.hosts host).synced = true := by
        change (false || (fleet.hosts host).synced) = true at hrelies
        rwa [Bool.false_or] at hrelies
      cases heffect : broadcast.effect (.ipset ip) with
      | none =>
        refine hnone heffect ?_
        change ((fleet.hosts host).intact || (fleet.hosts host).synced) = true
        rw [hsynced, Bool.or_true]
      | some value =>
        rcases hclean hsynced broadcast rest hpending ip value heffect with
          hsame | ⟨later, hlater, heffects⟩
        · exact hsame.trans (hlast value heffect)
        · -- a later broadcast would have decided the place
          have hsome := lastEffect_isSome (List.mem_append_left outstanding.toList hlater)
            heffects
          rw [hqueue] at hsome
          cases hsome

theorem Sound.restart (hsound : fleet.Sound) (host : Nat) :
    (fleet.setHost host (fleet.hosts host).restart).Sound := by
  refine hsound.setHost (fun hfaithful => (by cases hfaithful)) ?_
  intro cell outstanding target hagrees _
  refine ⟨hagrees.1, fun _ hrelies => ?_⟩
  cases cell <;> cases hrelies

/-! ### Reconciliation -/

theorem mem_permanentIps {ip : String} :
    ip ∈ fleet.permanentIps ↔ fleet.target (.ipset ip) = true := by
  change ip ∈ fleet.rows.select _ ↔ ((fleet.rows.get ip).map Row.geo).any _ = true
  rw [Table.mem_select, Option.any_eq_true]
  constructor
  · rintro ⟨row, hrow, hpermanent⟩
    exact ⟨row.geo, by rw [hrow]; rfl, hpermanent⟩
  · rintro ⟨geo, hgeo, hpermanent⟩
    obtain ⟨row, hrow, rfl⟩ := Option.map_eq_some_iff.mp hgeo
    exact ⟨row, hrow, hpermanent⟩

theorem Sound.markSynced (hsound : fleet.Sound) {host : Nat} {sync : Sync} {state : Host}
    (hpending : state.pending = (fleet.hosts host).pending)
    (hfaithful : state.faithful = (fleet.hosts host).faithful)
    (hintact : state.intact = (fleet.hosts host).intact)
    (hsynced : state.synced = ((fleet.hosts host).synced || sync.fresh))
    (hholds : ∀ cell, state.holds cell = (fleet.hosts host).holds cell)
    (hfresh : sync.fresh = true → (fleet.hosts host).upToDate = true) :
    (fleet.setHost host state).Sound := by
  refine hsound.setHost_of_same hpending (fun hstate => ?_) hholds fun cell hrelies => ?_
  · rw [hintact]
    exact hsound.intact host (hfaithful ▸ hstate)
  · cases cell with
    | rule ip =>
      change state.faithful = true at hrelies
      rwa [hfaithful] at hrelies
    | ipset ip =>
      change (state.intact || state.synced) = true at hrelies
      rw [hintact, hsynced, ← Bool.or_assoc, Bool.or_eq_true] at hrelies
      exact hrelies.elim (fun hbefore => hbefore) hfresh

theorem Sound.loadRows (hsound : fleet.Sound) {host : Nat} {sync : Sync} {ips : List String}
    {state : Host} (hpending : state.pending = (fleet.hosts host).pending)
    (hfaithful : state.faithful = (fleet.hosts host).faithful)
    (hrules : state.rules = (fleet.hosts host).rules) (hblocked : state.blocked = ips.toFinset)
    (hintact : state.intact = decide (ips.toFinset = fleet.permanentIps.toFinset))
    (hsynced : state.synced = ((fleet.hosts host).synced || sync.fresh))
    (hfresh : sync.fresh = true → ips.toFinset = fleet.permanentIps.toFinset)
    (hupToDate : (fleet.hosts host).upToDate = true →
      ips.toFinset = fleet.permanentIps.toFinset) : (fleet.setHost host state).Sound := by
  have hloaded : state.upToDate = true → ips.toFinset = fleet.permanentIps.toFinset := by
    intro hafter
    rw [Host.upToDate, hintact, hsynced, Bool.or_eq_true, Bool.or_eq_true] at hafter
    rcases hafter with hsame | hbefore | hrun
    · exact of_decide_eq_true hsame
    · refine hupToDate ?_
      rw [Host.upToDate, hbefore, Bool.or_true]
    · exact hfresh hrun
  refine hsound.setHost (fun hstate => ?_) fun cell outstanding target hagrees htarget => ?_
  · rw [hintact]
    refine decide_eq_true (hupToDate ?_)
    rw [Host.upToDate, hsound.intact host (hfaithful ▸ hstate), Bool.true_or]
  · rw [hpending]
    refine ⟨hagrees.1, fun hnone hrelies => ?_⟩
    cases cell with
    | rule ip =>
      change state.faithful = true at hrelies
      rw [hfaithful] at hrelies
      refine Eq.trans ?_ (hagrees.2 hnone hrelies)
      change decide (ip ∈ state.rules) = decide (ip ∈ (fleet.hosts host).rules)
      rw [hrules]
    | ipset ip =>
      rw [htarget]
      change decide (ip ∈ state.blocked) = _
      rw [hblocked, hloaded hrelies]
      refine Bool.eq_iff_iff.mpr ?_
      rw [decide_eq_true_iff, List.mem_toFinset, mem_permanentIps]

/-- What a fresh run has listed and not loaded is what the rows say. -/
def FreshLoads (fleet : Fleet) : Prop :=
  ∀ host job sync, (fleet.hosts host).syncs.get job = some sync → sync.fresh = true →
    ∀ ips now, sync.phase = .loading ips now → ips.toFinset = fleet.permanentIps.toFinset

theorem Sound.syncNext (hsound : fleet.Sound) (hloads : fleet.FreshLoads) {host job : Nat}
    {sync : Sync} (hget : (fleet.hosts host).syncs.get job = some sync)
    (hclean : fleet.SyncUndisturbed (fleet.hosts host) sync) :
    (fleet.syncNext host job sync).Sound := by
  have hsame : ∀ phase, (fleet.setHost host
      (setSync (fleet.hosts host) job sync phase)).Sound := fun phase =>
    hsound.setHost_of_same rfl (hsound.intact host) (fun cell => by cases cell <;> rfl)
      fun cell => by cases cell <;> exact fun hrelies => hrelies
  unfold SyncUndisturbed at hclean
  unfold Fleet.syncNext
  cases hphase : sync.phase with
  | reading => exact hsame _
  | querying lastSync now =>
    simp only [hphase] at hclean ⊢
    split
    next hskips =>
      exact hsound.markSynced rfl rfl rfl rfl (fun cell => by cases cell <;> rfl)
        (hclean hskips)
    next => exact hsame _
  | listing now => exact hsame _
  | loading ips now =>
    simp only [hphase] at hclean ⊢
    cases ips with
    | nil =>
      exact hsound.markSynced rfl rfl rfl rfl (fun cell => by cases cell <;> rfl)
        (hclean.1 rfl)
    | cons ip rest =>
      exact hsound.loadRows rfl rfl rfl rfl rfl rfl
        (fun hfresh => hloads host job sync hget hfresh _ now hphase)
        (hclean.2 (List.cons_ne_nil ip rest))
  | marking now =>
    have hdone : (fleet.setHost host { fleet.hosts host with
        syncs := (fleet.hosts host).syncs.delete job }).Sound :=
      hsound.setHost_of_same rfl (hsound.intact host) (fun cell => by cases cell <;> rfl)
        fun cell => by cases cell <;> exact fun hrelies => hrelies
    exact hdone.retask (fun _ => target_congr rfl) rfl fun _ _ => Iff.rfl

/-! ### What runs of reconciliation have listed -/

theorem FreshLoads.of_same (hloads : fleet.FreshLoads)
    (hsyncs : ∀ host, (next.hosts host).syncs = (fleet.hosts host).syncs)
    (htarget : ∀ cell, next.target cell = fleet.target cell) : next.FreshLoads := by
  intro host job sync hget hfresh ips now hphase
  rw [hsyncs] at hget
  rw [hloads host job sync hget hfresh ips now hphase]
  ext ip
  rw [List.mem_toFinset, List.mem_toFinset, mem_permanentIps, mem_permanentIps, htarget]

theorem freshLoads_changeRows (fleet : Fleet) (rows : Table String Row) :
    (fleet.changeRows rows).FreshLoads := by
  intro host job sync hget hfresh
  change ((fleet.hosts host).syncs.mapRows _).get job = some sync at hget
  rw [Table.get_mapRows] at hget
  obtain ⟨before, _, rfl⟩ := Option.map_eq_some_iff.mp hget
  cases hfresh

theorem FreshLoads.setHost (hloads : fleet.FreshLoads) {host : Nat} {state : Host}
    (hstate : ∀ job sync, state.syncs.get job = some sync →
      (fleet.hosts host).syncs.get job = some sync ∨
        ∀ ips now, sync.phase = .loading ips now → ips = fleet.permanentIps) :
    (fleet.setHost host state).FreshLoads := by
  intro other job sync hget hfresh ips now hphase
  change (Function.update fleet.hosts host state other).syncs.get job = some sync at hget
  by_cases heq : other = host
  · subst heq
    rw [Function.update_self] at hget
    rcases hstate job sync hget with hbefore | hlisted
    · exact hloads other job sync hbefore hfresh ips now hphase
    · rw [hlisted ips now hphase]
      rfl
  · rw [Function.update_of_ne heq] at hget
    exact hloads other job sync hget hfresh ips now hphase

theorem FreshLoads.setSync (hloads : fleet.FreshLoads) {host job : Nat} {state : Host} {sync : Sync}
    {phase : SyncPhase} (hsyncs : state.syncs = (fleet.hosts host).syncs)
    (hlisted : ∀ ips now, phase = .loading ips now → ips = fleet.permanentIps) :
    (fleet.setHost host (setSync state job sync phase)).FreshLoads := by
  refine hloads.setHost fun other found hget => ?_
  change (state.syncs.put job _).get other = some found at hget
  rw [Table.get_put] at hget
  split at hget
  · cases hget
    exact .inr hlisted
  · exact .inl (hsyncs ▸ hget)

theorem FreshLoads.syncNext (hloads : fleet.FreshLoads) (host job : Nat) (sync : Sync) :
    (fleet.syncNext host job sync).FreshLoads := by
  unfold Fleet.syncNext
  cases hphase : sync.phase with
  | reading => exact hloads.setSync rfl fun _ _ hphase => by cases hphase
  | querying lastSync now =>
    simp only
    split
    · exact hloads.setSync rfl fun _ _ hphase => by cases hphase
    · exact hloads.setSync rfl fun _ _ hphase => by cases hphase
  | listing now =>
    refine hloads.setSync rfl fun ips _ hphase => ?_
    cases hphase
    rfl
  | loading ips now =>
    refine hloads.setSync ?_ fun _ _ hphase => by cases hphase
    unfold loadSet
    split <;> rfl
  | marking now =>
    have hdone : (fleet.setHost host { fleet.hosts host with
        syncs := (fleet.hosts host).syncs.delete job }).FreshLoads := by
      refine hloads.setHost fun other found hget => .inl ?_
      change ((fleet.hosts host).syncs.delete job).get other = some found at hget
      rw [Table.get_delete] at hget
      split at hget
      · cases hget
      · exact hget
    exact hdone

/-! ### Calls that begin -/

theorem begin_cases {id : Nat} {call : Instance → Task} (hnext : fleet.begin id call = some next) :
    ∃ self, fleet.tasks.get id = some (.idle self) ∧ next = fleet.setTask id (call self) := by
  unfold begin at hnext
  split at hnext
  next self hget =>
    cases hnext
    exact ⟨self, hget, rfl⟩
  next => cases hnext

/-- A call that begins announces nothing, and releases a block where it is to take one away. -/
theorem block_spec (fleet : Fleet) (ttl : Int) (self : Instance) :
    (fleet.block ttl self).announced = none ∧ (fleet.block ttl self).Released := by
  unfold block
  split <;> exact ⟨rfl, trivial⟩

theorem whitelist_spec (fleet : Fleet) (ends : Option Time) (self : Instance) :
    (fleet.whitelist ends self).announced = none ∧ (fleet.whitelist ends self).Released := by
  refine ⟨rfl, ?_⟩
  change (if self.geo.isBlocked then _ else _ : GeoLocatedIP).isBlocked = false
  split
  next => rfl
  next hfalse => exact Bool.not_eq_true _ ▸ hfalse

theorem Releases.setTask (hreleases : fleet.Releases) (id : Nat) {task : Task}
    (htask : task.Released) : (fleet.setTask id task).Releases :=
  Table.All.put hreleases id htask

theorem Releases.proceed (hreleases : fleet.Releases) {id : Nat} {task : Task}
    (hnext : fleet.proceed id task = some next) : next.Releases := by
  cases task with
  | idle self => cases hnext
  | blocking self update =>
    simp only [Fleet.proceed] at hnext
    split at hnext
    · cases hnext
      exact Table.All.put hreleases id trivial
    · cases hnext
      exact Table.All.put hreleases id trivial
  | unblocking self wasPermanent | whitelisting self wasBlocked wasPermanent | sweeping expired =>
    cases hnext
    exact Table.All.put hreleases id trivial
  | ending self reload broadcast =>
    cases self with
    | none =>
      cases hnext
      cases broadcast <;> exact Table.All.delete hreleases id
    | some self =>
      cases reload with
      | true =>
        cases hnext
        exact Table.All.put hreleases id trivial
      | false =>
        cases hnext
        cases broadcast <;> exact Table.All.put hreleases id trivial

theorem target_appear {ip : String} (habsent : (fleet.rows.get ip).isSome = false)
    (row : Row) (hrow : row.geo.isBlocked = false) (cell : Cell) :
    Fleet.target { fleet with rows := fleet.rows.put ip row } cell = fleet.target cell := by
  by_cases heq : cell.ip = ip
  · have hbefore : fleet.target cell = false := by
      refine target_eq_false fun geo hgeo => ?_
      rw [heq, geo?, Option.isSome_eq_false_iff.mp habsent |> Option.isNone_iff_eq_none.mp] at hgeo
      cases hgeo
    rw [hbefore]
    refine target_eq_false fun geo hgeo => ?_
    rw [geo?_put, if_pos heq] at hgeo
    cases hgeo
    exact hrow
  · refine target_congr ?_
    rw [geo?_put, if_neg heq]

/-! ### Steps -/

structure Invariant (fleet : Fleet) : Prop where
  sound : fleet.Sound
  releases : fleet.Releases
  freshLoads : fleet.FreshLoads

theorem invariant_start (clock : Time) : (start clock).Invariant where
  sound := sound_start clock
  releases := Table.All.empty
  freshLoads _ _ _ hget := by cases hget

theorem Invariant.begin (hfleet : fleet.Invariant) {id : Nat} {call : Instance → Task}
    (hcall : ∀ self, (call self).announced = none ∧ (call self).Released)
    (hnext : fleet.begin id call = some next) : next.Invariant := by
  obtain ⟨self, hget, rfl⟩ := begin_cases hnext
  obtain ⟨hannounced, hreleased⟩ := hcall self
  refine ⟨hfleet.sound.setTask ?_, hfleet.releases.setTask id hreleased,
    hfleet.freshLoads.of_same (fun _ => rfl) (target_setTask fleet id _)⟩
  rw [hget, hannounced]
  rfl

theorem Invariant.setHost (hfleet : fleet.Invariant) {host : Nat} {state : Host}
    (hsound : (fleet.setHost host state).Sound)
    (hsyncs : state.syncs = (fleet.hosts host).syncs) : (fleet.setHost host state).Invariant :=
  ⟨hsound, hfleet.releases, hfleet.freshLoads.setHost fun _ _ hget => .inl (hsyncs ▸ hget)⟩

theorem FreshLoads.proceed (hloads : fleet.FreshLoads) {id : Nat} {task : Task}
    (hnext : fleet.proceed id task = some next) : next.FreshLoads := by
  have hsame : ∀ tasks : Table Nat Task, FreshLoads { fleet with tasks := tasks } := fun tasks =>
    hloads.of_same (fun _ => rfl) fun _ => target_congr rfl
  cases task with
  | idle self => cases hnext
  | blocking self update =>
    simp only [Fleet.proceed] at hnext
    split at hnext
    · cases hnext
      exact freshLoads_changeRows fleet _
    · cases hnext
      exact hsame _
  | unblocking self wasPermanent | whitelisting self wasBlocked wasPermanent | sweeping expired =>
    cases hnext
    exact freshLoads_changeRows fleet _
  | ending self reload broadcast =>
    have hpublish : ∀ (tasks : Table Nat Task) (broadcast : Broadcast),
        FreshLoads { fleet.publish broadcast with tasks := tasks } := fun tasks broadcast =>
      hloads.of_same (fun _ => rfl) fun _ => target_congr rfl
    cases self with
    | none =>
      cases hnext
      cases broadcast with
      | none => exact hsame _
      | some broadcast => exact hpublish _ broadcast
    | some self =>
      cases reload with
      | true =>
        cases hnext
        exact hsame _
      | false =>
        cases hnext
        cases broadcast with
        | none => exact hsame _
        | some broadcast => exact hpublish _ broadcast

theorem Invariant.step (hfleet : fleet.Invariant) {label : FleetLabel}
    (hclean : fleet.Undisturbed label next) (hnext : fleet.step label = some next) :
    next.Invariant := by
  obtain ⟨hsound, hreleases, hloads⟩ := hfleet
  cases label with
  | tick elapsed =>
    cases hnext
    exact ⟨hsound.retask (fun _ => target_congr rfl) rfl fun _ _ => Iff.rfl, hreleases,
      hloads.of_same (fun _ => rfl) fun _ => target_congr rfl⟩
  | appear ip level =>
    simp only [Fleet.step] at hnext
    split at hnext
    next => cases hnext
    next habsent =>
      cases hnext
      have htarget := target_appear (Bool.not_eq_true _ ▸ habsent)
        ⟨⟨level, false, none, false, none⟩, fleet.clock⟩ rfl
      exact ⟨hsound.retask htarget rfl fun _ _ => Iff.rfl, hreleases,
        hloads.of_same (fun _ => rfl) htarget⟩
  | load id ip =>
    have hload : ∀ geo, (fleet.tasks.get id).bind Task.announced = none →
        (fleet.setTask id (.idle ⟨ip, geo⟩)).Invariant := fun geo hnone =>
      ⟨hsound.setTask hnone, hreleases.setTask id trivial,
        hloads.of_same (fun _ => rfl) (target_setTask fleet id _)⟩
    simp only [Fleet.step] at hnext
    split at hnext
    next geo hget _ =>
      cases hnext
      exact hload geo (by rw [hget]; rfl)
    next self geo hget _ =>
      cases hnext
      exact hload geo (by rw [hget]; rfl)
    next => cases hnext
  | block id ttl => exact Invariant.begin ⟨hsound, hreleases, hloads⟩ (block_spec fleet ttl) hnext
  | unblock id =>
    have hcall : ∀ self, (fleet.unblock self).announced = none ∧ (fleet.unblock self).Released :=
      fun _ => ⟨rfl, rfl⟩
    exact Invariant.begin ⟨hsound, hreleases, hloads⟩ hcall hnext
  | whitelist id ends =>
    exact Invariant.begin ⟨hsound, hreleases, hloads⟩ (whitelist_spec fleet ends) hnext
  | sweepExpiredBlocks id =>
    simp only [Fleet.step] at hnext
    split at hnext
    next => cases hnext
    next hfree =>
      split at hnext
      · cases hnext
        exact ⟨hsound, hreleases, hloads⟩
      · cases hnext
        refine ⟨hsound.setTask ?_, hreleases.setTask id trivial,
          hloads.of_same (fun _ => rfl) (target_setTask fleet id _)⟩
        rw [Option.not_isSome_iff_eq_none.mp hfree]
        rfl
  | proceed id =>
    obtain ⟨task, hget, hnext⟩ := Option.bind_eq_some_iff.mp hnext
    exact ⟨hsound.proceed hreleases hget (hclean task hget) hnext, hreleases.proceed hnext,
      hloads.proceed hnext⟩
  | execute host =>
    simp only [Fleet.step] at hnext
    split at hnext
    next => cases hnext
    next broadcast rest hpending =>
      cases hnext
      refine Invariant.setHost ⟨hsound, hreleases, hloads⟩ (hsound.execute hpending) ?_
      cases broadcast <;> rfl
  | miss host =>
    simp only [Fleet.step] at hnext
    split at hnext
    next => cases hnext
    next broadcast rest hpending =>
      cases hnext
      exact Invariant.setHost ⟨hsound, hreleases, hloads⟩ (hsound.miss hpending hclean) rfl
  | restart host =>
    cases hnext
    exact ⟨hsound.restart host, hreleases, hloads.setHost fun _ _ hget => by cases hget⟩
  | syncFirewall host job =>
    simp only [Fleet.step] at hnext
    split at hnext
    next => cases hnext
    next =>
      cases hnext
      refine ⟨hsound.setHost_of_same rfl (hsound.intact host) (fun cell => by cases cell <;> rfl)
        (fun cell => by cases cell <;> exact fun hrelies => hrelies), hreleases, ?_⟩
      have hbegun : (fleet.setHost host (setSync (fleet.hosts host) job ⟨.reading, true⟩
          .reading)).FreshLoads := hloads.setSync rfl fun _ _ hphase => by cases hphase
      exact hbegun
  | syncNext host job =>
    obtain ⟨sync, hget, rfl⟩ := Option.map_eq_some_iff.mp hnext
    have htasks : (fleet.syncNext host job sync).tasks = fleet.tasks := by
      unfold Fleet.syncNext
      split
      case h_2 => simp only; split <;> rfl
      all_goals rfl
    refine ⟨hsound.syncNext hloads hget (hclean sync hget), ?_, hloads.syncNext host job sync⟩
    rw [Releases, htasks]
    exact hreleases

/-- With no call under way and an empty queue, every place is what its row says. -/
theorem Sound.converged (hsound : fleet.Sound) : fleet.Converged := by
  intro hresting host hpending
  have hfree : ∀ ip, ¬ fleet.Announced ip := by
    rintro ip ⟨id, broadcast, ⟨task, hget, hannounced⟩, _⟩
    obtain ⟨self, rfl⟩ := hresting id task hget
    cases hannounced
  have hholds : ∀ cell, (fleet.hosts host).relies cell = true →
      (fleet.hosts host).holds cell = fleet.target cell := by
    intro cell hrelies
    have hagrees := hsound.agrees host cell none (hfree cell.ip)
    rw [hpending] at hagrees
    exact hagrees.2 rfl hrelies
  refine ⟨fun hcase ip => hholds _ ?_, fun hfaithful ip => hholds _ hfaithful⟩
  change ((fleet.hosts host).intact || (fleet.hosts host).synced) = true
  rcases hcase with hsynced | hfaithful
  · rw [hsynced, Bool.or_true]
  · rw [hsound.intact host hfaithful, Bool.true_or]

section Sample

/-- The address is looked up and blocked for good, and every host is told. -/
def blockForGood : List FleetLabel :=
  [.appear "203.0.113.7" none, .load 0 "203.0.113.7", .block 0 0, .proceed 0, .proceed 0,
    .proceed 0]

/-- A run of `sync_firewall` from its first statement to its last, if it loads. -/
def syncOnce (host : Nat) : List FleetLabel :=
  [.syncFirewall host 0, .syncNext host 0, .syncNext host 0, .syncNext host 0, .syncNext host 0,
    .syncNext host 0]

theorem not_announced (hnone : fleet.tasks.keys.all fun id =>
    ((fleet.tasks.get id).bind Task.announced).isNone) (ip : String) : ¬ fleet.Announced ip := by
  rintro ⟨id, broadcast, ⟨task, hget, hannounced⟩, _⟩
  have hkey : id ∈ fleet.tasks.keys := by
    rw [fleet.tasks.mem_keys, hget]
    rfl
  have hnone := List.all_eq_true.mp hnone id hkey
  rw [hget, Option.bind_some, hannounced] at hnone
  cases hnone

theorem resting_of_all (hidle : (fleet.tasks.keys.all fun id =>
    (fleet.tasks.get id).any Task.isIdle) = true) : fleet.Resting := by
  intro id task hget
  have hkey : id ∈ fleet.tasks.keys := by
    rw [fleet.tasks.mem_keys, hget]
    rfl
  have hany := List.all_eq_true.mp hidle id hkey
  rw [hget, Option.any_some] at hany
  cases task with
  | idle self => exact ⟨self, rfl⟩
  | _ => cases hany

end Sample

end Fleet

end DjangoMojo.Firewall
