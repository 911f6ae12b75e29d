import DjangoMojo.Foundation.Trace
import DjangoMojo.Jobs.Store

/-! # The scheduler lock

Any number of scheduler instances compete for one key with an expiry. Each
instance runs its main loop one Redis command at a time; a signal interrupts it
anywhere and releases the lock from there.
-/

namespace DjangoMojo.Jobs.SchedulerLock

/-- `uuid4().hex`, drawn once by every instance. -/
abbrev LockValue := Nat

inductive Pc where
  | loop
  /-- SET NX PX of `_acquire_lock`. -/
  | acquire
  | check
  /-- GET of `_renew_lock`. -/
  | renew
  | extend
  /-- GET of `_release_lock`. -/
  | release
  | delete
  | exited
  deriving DecidableEq, Repr

def Pc.writes : Pc → Bool
  | .extend | .delete => true
  | _ => false

structure Instance where
  lockValue : LockValue
  running : Bool := true
  hasLock : Bool := false
  pc : Pc := .loop

inductive Command where
  | none
  | get
  | setNx
  | pexpire
  | delete
  deriving DecidableEq

structure Cluster where
  now : Time
  /-- `JOBS_SCHEDULER_LOCK_TTL_MS`. -/
  lockTtl : Time
  key : Option (LockValue × Time)
  instances : List Instance

namespace Cluster

def empty (lockTtl : Time) : Cluster := ⟨0, lockTtl, none, []⟩

def stored (cluster : Cluster) : Option LockValue :=
  (cluster.key.filter fun entry => cluster.now < entry.2).map Prod.fst

/-- A Redis command of an instance with the given lock value. PEXPIRE has no
effect on a key that has expired. -/
def exec (cluster : Cluster) (value : LockValue) : Command → Cluster
  | .none | .get => cluster
  | .setNx =>
    if cluster.stored.isSome then cluster
    else { cluster with key := some (value, cluster.now + cluster.lockTtl) }
  | .pexpire =>
    { cluster with
      key := cluster.stored.map fun holder => (holder, cluster.now + cluster.lockTtl) }
  | .delete => { cluster with key := none }

/-- A command that raises may have been applied all the same. -/
def perform (cluster : Cluster) (fault : Fault) (value : LockValue) (command : Command) :
    Cluster :=
  if fault = .lost then cluster else cluster.exec value command

end Cluster

namespace Instance

/-- One step of the main loop or of a release. `renewDue` says whether half the
lease has passed since the last renewal. -/
def move (stored : Option LockValue) (fault : Fault) (renewDue : Bool) (scheduler : Instance) :
    Option (Instance × Command) :=
  match scheduler.pc with
  | .loop =>
    if !scheduler.running then some ({ scheduler with pc := .exited }, .none)
    else if scheduler.hasLock then some ({ scheduler with pc := .check }, .none)
    else some ({ scheduler with pc := .acquire }, .none)
  | .acquire =>
    if !fault.raised && stored.isNone then
      some ({ scheduler with hasLock := true, pc := .check }, .setNx)
    else some ({ scheduler with pc := .loop }, .setNx)
  | .check =>
    if renewDue then some ({ scheduler with pc := .renew }, .none)
    -- The due jobs are promoted and the loop sleeps.
    else some ({ scheduler with pc := .loop }, .none)
  | .renew =>
    if !fault.raised && stored = some scheduler.lockValue then
      some ({ scheduler with pc := .extend }, .get)
    else some ({ scheduler with hasLock := false, pc := .loop }, .get)
  | .extend =>
    if fault.raised then some ({ scheduler with hasLock := false, pc := .loop }, .pexpire)
    else some ({ scheduler with pc := .loop }, .pexpire)
  | .release =>
    if fault.raised then some ({ scheduler with pc := .exited }, .get)
    else if stored = some scheduler.lockValue then some ({ scheduler with pc := .delete }, .get)
    else some ({ scheduler with hasLock := false, pc := .exited }, .get)
  | .delete =>
    if fault.raised then some ({ scheduler with pc := .exited }, .delete)
    else some ({ scheduler with hasLock := false, pc := .exited }, .delete)
  | .exited => none

/-- `stop` in the signal handler, which then exits. A second signal only exits. -/
def stop (scheduler : Instance) : Instance :=
  if scheduler.running then
    { scheduler with running := false, pc := if scheduler.hasLock then .release else .exited }
  else { scheduler with pc := .exited }

def crash (scheduler : Instance) : Instance :=
  { scheduler with running := false, pc := .exited }

end Instance

inductive Action where
  | tick (elapsed : Nat)
  | start (value : LockValue)
  | advance (index : Nat) (fault : Fault) (renewDue : Bool)
  | stop (index : Nat)
  | crash (index : Nat)
  | forceRelease

namespace Cluster

def update (cluster : Cluster) (index : Nat) (scheduler : Instance) : Cluster :=
  { cluster with instances := cluster.instances.set index scheduler }

def step (cluster : Cluster) : Action → Option Cluster
  | .tick elapsed => some { cluster with now := cluster.now + elapsed }
  | .start value =>
    if cluster.instances.all fun scheduler => scheduler.lockValue ≠ value then
      some { cluster with instances := cluster.instances ++ [{ lockValue := value }] }
    else none
  | .advance index fault renewDue =>
    cluster.instances[index]?.bind fun scheduler =>
      (scheduler.move cluster.stored fault renewDue).map fun (next, command) =>
        (cluster.perform fault scheduler.lockValue command).update index next
  | .stop index =>
    cluster.instances[index]?.map fun scheduler => cluster.update index scheduler.stop
  | .crash index =>
    cluster.instances[index]?.map fun scheduler => cluster.update index scheduler.crash
  | .forceRelease => some { cluster with key := none }

end Cluster

end DjangoMojo.Jobs.SchedulerLock
