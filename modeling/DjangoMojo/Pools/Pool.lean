import Mathlib.Data.Finset.Card
import Mathlib.Data.List.Dedup
import Mathlib.Data.Rat.Init
import Mathlib.Order.Defs.LinearOrder
import DjangoMojo.Foundation.Table

/-! # A pool of items in Redis

Membership is a set and availability is a list. Every operation is a sequence of single Redis
commands; a phase of a worker says which command comes next, and which items it has in its
hands, off the list. Answers that do not come from Redis are chosen by the environment.
-/

namespace DjangoMojo.Pools

open Foundation

abbrev ItemId := String

structure Redis where
  allItemsSet : Finset ItemId
  availableList : List ItemId
  initLock : Bool
deriving DecidableEq

namespace Redis

def empty : Redis := ⟨∅, [], false⟩

def sadd (redis : Redis) (items : List ItemId) : Redis :=
  { redis with allItemsSet := redis.allItemsSet ∪ items.toFinset }

def srem (redis : Redis) (item : ItemId) : Redis :=
  { redis with allItemsSet := redis.allItemsSet.erase item }

/-- The last argument of `LPUSH` becomes the head. -/
def lpush (redis : Redis) (items : List ItemId) : Redis :=
  { redis with availableList := items.reverse ++ redis.availableList }

/-- `LREM` with the count 0. -/
def lremAll (redis : Redis) (item : ItemId) : Redis :=
  { redis with availableList := redis.availableList.filter (· ≠ item) }

/-- `LREM` with the count 1. -/
def lremOne (redis : Redis) (item : ItemId) : Redis :=
  { redis with availableList := redis.availableList.erase item }

def rpop (redis : Redis) : Redis :=
  { redis with availableList := redis.availableList.dropLast }

/-- Redis keeps no empty set, so the key exists while the pool has a member. -/
def isReady (redis : Redis) : Bool := decide (redis.allItemsSet ≠ ∅)

def poolSize (redis : Redis) : Nat := max redis.allItemsSet.card 1

end Redis

/-! ### Skip predicates -/

inductive PredicateResult
  | bool (value : Bool)
  | none
  | number (value : ℚ)
  | nonFinite
  | other
  | raised
deriving DecidableEq

inductive Verdict
  | eligible
  | skip
  | retryAfter (seconds : ℚ)
deriving DecidableEq

def classifyPredicateResult : PredicateResult → Verdict
  | .bool false => .eligible
  | .bool true | .none => .skip
  | .number value =>
    if value = 0 then .eligible else if 0 < value then .retryAfter value else .skip
  | .nonFinite | .other => .skip
  | .raised => .skip

/-! ### Workers -/

/-- The state of a loop with a skip predicate. An item is deferred until the environment says
that its time has come. -/
structure Scan where
  instances : Bool
  deferred : List ItemId
  examined : List ItemId
  poolSize : Nat
  staleRetries : Nat
deriving DecidableEq

/-- What the caller of `init_pool` goes on with. -/
inductive Then
  | finish
  | enlist (item : ItemId)
  | nextInstance (skips : Bool) (retries : Nat)
deriving DecidableEq

inductive Phase
  | idle
  | addCheck (item : ItemId)
  | addInsert (item : ItemId)
  | addPush (item : ItemId)
  | enlistInsert (item : ItemId)
  | removeCheck (item : ItemId) (force : Bool)
  | removeLook (item : ItemId)
  | removeLeave (item : ItemId)
  | removeDrop (item : ItemId)
  | removeFromPoolReady (item : ItemId) (force : Bool)
  | removeFromPoolCheck (item : ItemId) (force : Bool)
  | removeFromPoolLook (item : ItemId)
  | removeFromPoolDrop (item : ItemId)
  | removeFromPoolLeave (item : ItemId)
  | checkoutCheck (item : ItemId) (waits : Bool)
  | checkoutTake (item : ItemId) (waits : Bool)
  | checkinCheck (item : ItemId)
  | checkinLook (item : ItemId)
  | checkinPush (item : ItemId)
  | duplicatesRead
  | duplicatesClear (available : List ItemId)
  | duplicatesPush (pending : List ItemId)
  | initReady (after : Then)
  | initLock (force : Bool) (after : Then)
  | initWait (after : Then)
  | initDoubleCheck (after : Then)
  | initClearList (after : Then)
  | initClearSet (after : Then)
  | initQuery (after : Then)
  | initInsert (items : List ItemId) (after : Then)
  | initPush (items : List ItemId) (after : Then)
  | initUnlock (after : Then)
  | pop
  | popInstance (retries : Nat)
  | validate (item : ItemId) (retries : Nat)
  | scanSize (instances : Bool)
  | scan (scan : Scan)
  | putBack (scan : Scan) (item : ItemId)
  | judge (scan : Scan) (item : ItemId)
  | resize (scan : Scan)
  | republish (deferred : List ItemId) (found : Option ItemId)
deriving DecidableEq

/-- The items that are off the list in the course of a call. -/
def Phase.hands : Phase → List ItemId
  | .addPush item | .checkinCheck item | .checkinLook item | .checkinPush item => [item]
  | .duplicatesPush pending => pending
  | .initPush items _ => items
  | .validate item _ => [item]
  | .scan loop | .resize loop => loop.deferred
  | .putBack loop item | .judge loop item => item :: loop.deferred
  | .republish deferred found => found.toList ++ deferred
  | _ => []

structure Worker where
  held : List ItemId
  phase : Phase
deriving DecidableEq

namespace Worker

def goes (worker : Worker) (phase : Phase) : Worker := { worker with phase := phase }

/-- Every item that is off the list on account of this worker. -/
def copies (worker : Worker) : List ItemId := worker.held ++ worker.phase.hands

/-- A loop ends: deferred items are republished before the item found is handed out. -/
def leave (worker : Worker) (deferred : List ItemId) (found : Option ItemId) : Worker :=
  match deferred with
  | [] => { held := found.toList ++ worker.held, phase := .idle }
  | _ :: _ => worker.goes (.republish deferred found)

end Worker

def maxRetries : Nat := 100

def Then.phase : Then → Phase
  | .finish => .idle
  | .enlist item => .enlistInsert item
  | .nextInstance false retries => if maxRetries ≤ retries then .idle else .popInstance retries
  | .nextInstance true _ => .scanSize true

/-! ### Commands -/

def Worker.next (redis : Redis) (worker : Worker) : Option (Redis × Worker) :=
  match worker.phase with
  | .addCheck item =>
    if item ∈ redis.allItemsSet then some (redis, worker.goes .idle)
    else some (redis, worker.goes (.addInsert item))
  | .addInsert item => some (redis.sadd [item], worker.goes (.addPush item))
  | .addPush item => some (redis.lpush [item], worker.goes .idle)
  -- `SADD` answers whether the item is new
  | .enlistInsert item =>
    if item ∈ redis.allItemsSet then some (redis, worker.goes .idle)
    else some (redis.sadd [item], worker.goes (.addPush item))
  | .removeCheck item force =>
    if item ∉ redis.allItemsSet then some (redis, worker.goes .idle)
    else some (redis, worker.goes (if force then .removeLeave item else .removeLook item))
  | .removeLook item =>
    if item ∈ redis.availableList then some (redis, worker.goes (.removeLeave item))
    else some (redis, worker.goes .idle)
  | .removeLeave item => some (redis.srem item, worker.goes (.removeDrop item))
  | .removeDrop item => some (redis.lremAll item, worker.goes .idle)
  | .removeFromPoolReady item force =>
    if redis.isReady then some (redis, worker.goes (.removeFromPoolCheck item force))
    else some (redis, worker.goes .idle)
  | .removeFromPoolCheck item force =>
    if item ∉ redis.allItemsSet then some (redis, worker.goes .idle)
    else some (redis, worker.goes
      (if force then .removeFromPoolDrop item else .removeFromPoolLook item))
  | .removeFromPoolLook item =>
    if item ∈ redis.availableList then some (redis, worker.goes (.removeFromPoolDrop item))
    else some (redis, worker.goes .idle)
  | .removeFromPoolDrop item => some (redis.lremAll item, worker.goes (.removeFromPoolLeave item))
  | .removeFromPoolLeave item => some (redis.srem item, worker.goes .idle)
  | .checkoutCheck item waits =>
    if item ∈ redis.allItemsSet then some (redis, worker.goes (.checkoutTake item waits))
    else some (redis, worker.goes .idle)
  | .checkoutTake item waits =>
    if item ∈ redis.availableList then
      some (redis.lremOne item, { held := item :: worker.held, phase := .idle })
    else some (redis, if waits then worker else worker.goes .idle)
  | .checkinCheck item =>
    if item ∈ redis.allItemsSet then some (redis, worker.goes (.checkinLook item))
    else some (redis, worker.goes .idle)
  | .checkinLook item =>
    if item ∈ redis.availableList then some (redis, worker.goes .idle)
    else some (redis, worker.goes (.checkinPush item))
  | .checkinPush item => some (redis.lpush [item], worker.goes .idle)
  | .duplicatesRead => some (redis, worker.goes (.duplicatesClear redis.availableList))
  -- reading backwards, the last of equal items is the one pushed
  | .duplicatesClear available =>
    some ({ redis with availableList := [] },
      worker.goes (.duplicatesPush available.dedup.reverse))
  | .duplicatesPush [] => some (redis, worker.goes .idle)
  | .duplicatesPush (item :: pending) =>
    some (redis.lpush [item], worker.goes (.duplicatesPush pending))
  | .initReady after =>
    if redis.isReady then some (redis, worker.goes after.phase)
    else some (redis, worker.goes (.initLock false after))
  | .initLock force after =>
    if redis.initLock then
      some (redis, if force then worker else worker.goes (.initWait after))
    else some ({ redis with initLock := true },
      worker.goes (if force then .initClearList after else .initDoubleCheck after))
  | .initWait after =>
    if redis.isReady then some (redis, worker.goes after.phase) else some (redis, worker)
  | .initDoubleCheck after =>
    if redis.isReady then some (redis, worker.goes (.initUnlock after))
    else some (redis, worker.goes (.initClearList after))
  | .initClearList after =>
    some ({ redis with availableList := [] }, worker.goes (.initClearSet after))
  | .initClearSet after =>
    some ({ redis with allItemsSet := ∅ }, worker.goes (.initQuery after))
  | .initInsert items after => some (redis.sadd items, worker.goes (.initPush items after))
  | .initPush items after => some (redis.lpush items, worker.goes (.initUnlock after))
  | .initUnlock after => some ({ redis with initLock := false }, worker.goes after.phase)
  | .pop =>
    match redis.availableList.getLast? with
    | none => some (redis, worker.goes .idle)
    | some item => some (redis.rpop, { held := item :: worker.held, phase := .idle })
  | .popInstance retries =>
    match redis.availableList.getLast? with
    | none => some (redis, worker.goes .idle)
    | some item => some (redis.rpop,
        worker.goes (if item = "" then .idle else .validate item retries))
  | .scanSize instances => some (redis, worker.goes (.scan ⟨instances, [], [], redis.poolSize, 0⟩))
  | .scan scan =>
    match redis.availableList.getLast? with
    | none => some (redis, if scan.deferred = [] then worker.goes .idle else worker)
    | some item => some (redis.rpop, worker.goes
        (if item ∈ scan.examined then .putBack scan item else .judge scan item))
  | .putBack scan item => some (redis.lpush [item], worker.goes
      (if scan.poolSize ≤ scan.examined.length ∧ scan.deferred = [] then .idle else .scan scan))
  | .resize scan => some (redis, worker.goes (.scan { scan with poolSize := redis.poolSize }))
  | .republish [] found => some (redis, worker.leave [] found)
  | .republish (item :: deferred) found =>
    some (redis.lpush [item], worker.leave deferred found)
  | .idle | .initQuery _ | .validate _ _ | .judge _ _ => none

/-! ### Operations -/

inductive Operation
  | add (item : ItemId)
  | addToPool (item : ItemId)
  | remove (item : ItemId) (force : Bool)
  | removeFromPool (item : ItemId) (force : Bool)
  | checkout (item : ItemId) (waits : Bool)
  | getSpecificInstance (item : ItemId)
  | checkin (item : ItemId)
  | returnInstance (item : ItemId)
  | removeDuplicates
  | initPool (force : Bool)
  | getNextAvailable (skips : Bool)
  | getNextInstance (skips : Bool)
deriving DecidableEq

/-- Only an item that the worker holds is checked in, and then it holds it no more. -/
def Worker.returning (worker : Worker) (item : ItemId) : Option Worker :=
  if item ∈ worker.held then
    some { held := worker.held.erase item, phase := .checkinCheck item }
  else none

def Worker.begin (worker : Worker) : Operation → Option Worker
  | .add item => some (worker.goes (.addCheck item))
  | .addToPool item => some (worker.goes (.initReady (.enlist item)))
  | .remove item force => some (worker.goes (.removeCheck item force))
  | .removeFromPool item force => some (worker.goes (.removeFromPoolReady item force))
  | .checkout item waits => some (worker.goes (.checkoutCheck item waits))
  | .getSpecificInstance item => some (worker.goes (.checkoutCheck item false))
  | .checkin item => worker.returning item
  | .returnInstance item => worker.returning item
  | .removeDuplicates => some (worker.goes .duplicatesRead)
  | .initPool force =>
    some (worker.goes (if force then .initLock true .finish else .initReady .finish))
  | .getNextAvailable skips => some (worker.goes (if skips then .scanSize false else .pop))
  | .getNextInstance skips => some (worker.goes (.initReady (.nextInstance skips 0)))

inductive Action
  | begin (operation : Operation)
  | next
  | giveUp
  | mature (item : ItemId)
  | decide (result : PredicateResult)
  | found
  | stale
  | query (items : List ItemId)
deriving DecidableEq

namespace Worker

def giveUp (worker : Worker) : Option Worker :=
  match worker.phase with
  | .checkoutTake _ true => some (worker.goes .idle)
  | .initLock true after | .initWait after => some (worker.goes after.phase)
  | .scan scan => some (worker.leave scan.deferred none)
  | _ => none

def decided (redis : Redis) (worker : Worker) (scan : Scan) (item : ItemId) :
    Verdict → Redis × Worker
  | .eligible => (redis, worker.leave scan.deferred (some item))
  | .retryAfter _ =>
    (redis, worker.goes (.scan { scan with deferred := item :: scan.deferred }))
  | .skip =>
    let examined := if item ∈ scan.examined then scan.examined else item :: scan.examined
    (redis.lpush [item], worker.goes
      (if scan.poolSize ≤ examined.length ∧ scan.deferred = [] then .idle
        else .scan { scan with examined := examined }))

/-- The row of the item is gone, or it does not match the query any more. -/
def outdated (redis : Redis) (worker : Worker) : Option (Redis × Worker) :=
  match worker.phase with
  | .validate item retries =>
    some (redis.srem item, worker.goes (.initReady (.nextInstance false (retries + 1))))
  | .judge scan item =>
    if scan.instances then
      let retried := { scan with staleRetries := scan.staleRetries + 1 }
      some (redis.srem item, if maxRetries ≤ retried.staleRetries
        then worker.leave scan.deferred none else worker.goes (.resize retried))
    else none
  | _ => none

def act (redis : Redis) (worker : Worker) : Action → Option (Redis × Worker)
  | .begin operation =>
    if worker.phase = .idle then (worker.begin operation).map fun next => (redis, next) else none
  | .next => worker.next redis
  | .giveUp => worker.giveUp.map fun next => (redis, next)
  | .mature item =>
    match worker.phase with
    | .scan scan =>
      if item ∈ scan.deferred then
        some (redis.lpush [item], worker.goes (.scan { scan with
          deferred := scan.deferred.erase item, examined := scan.examined.erase item }))
      else none
    | _ => none
  | .decide result =>
    match worker.phase with
    | .judge scan item => some (worker.decided redis scan item (classifyPredicateResult result))
    | _ => none
  | .found =>
    match worker.phase with
    | .validate item _ => some (redis, { held := item :: worker.held, phase := .idle })
    | _ => none
  | .stale => worker.outdated redis
  | .query items =>
    match worker.phase with
    | .initQuery after => some (redis, worker.goes
        (if items = [] then .initUnlock after else .initInsert items after))
    | _ => none

end Worker

/-! ### The pool and its workers -/

structure World where
  redis : Redis
  workers : Table Nat Worker

inductive Label
  | join (id : Nat)
  | act (id : Nat) (action : Action)
  | expireLock
deriving DecidableEq

namespace World

def start : World := ⟨.empty, .empty⟩

def step (world : World) : Label → Option World
  | .join id =>
    if (world.workers.get id).isSome then none
    else some { world with workers := world.workers.put id ⟨[], .idle⟩ }
  | .act id action =>
    (world.workers.get id).bind fun worker =>
      (worker.act world.redis action).map fun (redis, next) =>
        ⟨redis, world.workers.put id next⟩
  | .expireLock => some { world with redis := { world.redis with initLock := false } }

end World

end DjangoMojo.Pools
