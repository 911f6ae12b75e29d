import Mathlib.Data.Rat.Defs
import Mathlib.Data.Finset.Card
import Mathlib.Algebra.Order.Ring.Rat
import DjangoMojo.Foundation.Table

/-! # The sliding window of a group's API keys

The requests of all keys of a group are hits in one sorted set, named by their times. A check
prunes the set by the window of its own key, adds its hit and counts what is there; the store
runs one command at a time, and the commands of other checks come in between.
-/

namespace DjangoMojo.Limits

open Foundation

abbrev Time := ℚ

inductive JsonNumber where
  | int (value : Int)
  | float (value : ℚ)

namespace JsonNumber

def value : JsonNumber → ℚ
  | int value => value
  | float value => value

/-- `number * 60`. -/
def sixty : JsonNumber → JsonNumber
  | int value => .int (value * 60)
  | float value => .float (value * 60)

end JsonNumber

structure Override where
  limit : Option JsonNumber
  window : Option JsonNumber

/-- The decorator's defaults and the entries of the keys for its bucket. A request without a key
that counts against its organisation is one of a key without an entry. -/
structure Limiter where
  apikeyLimit : Int
  apikeyWindow : Int
  override : Nat → Option Override
  subtracts : Int → Bool
  /-- Whether `EXPIRE` takes a number of seconds. -/
  expires : Int → Bool

namespace Limiter

variable (limiter : Limiter)

def limit (key : Nat) : JsonNumber :=
  match limiter.override key with
  | some entry => entry.limit.getD (.int limiter.apikeyLimit)
  | none => .int limiter.apikeyLimit

def window (key : Nat) : JsonNumber :=
  match limiter.override key with
  | some entry => (entry.window.getD (.int (limiter.apikeyWindow / 60))).sixty
  | none => .int limiter.apikeyWindow

end Limiter

/-! ### Checks -/

inductive Verdict where
  | counted (allowed : Bool)
  | raised
  deriving DecidableEq

/-- The next command of `_check_sliding`. -/
inductive Phase where
  | pruning
  | adding
  | counting
  | expiring (count : Nat)
  | finished (verdict : Verdict)
  deriving DecidableEq

structure Check where
  key : Nat
  /-- What `time.time()` said. -/
  now : Time
  phase : Phase

namespace Check

def letThrough (check : Check) : Bool :=
  match check.phase with
  | .finished (.counted allowed) => allowed
  | .finished .raised => true
  | .pruning | .adding | .counting | .expiring _ => false

def added (check : Check) : Bool :=
  match check.phase with
  | .pruning | .adding | .finished .raised => false
  | .counting | .expiring _ | .finished (.counted _) => true

def pending (check : Check) : Bool :=
  match check.phase with
  | .pruning | .adding | .counting => true
  | .expiring _ | .finished _ => false

end Check

/-- The sorted set of the bucket, where the score of a member is its name, and all checks. -/
structure World where
  clock : Time
  members : Finset Time
  expires : Option Time
  checks : Table Nat Check

inductive Label where
  | tick (seconds : Time)
  | begin (id key : Nat)
  | advance (id : Nat)

namespace World

def start (clock : Time) : World := ⟨clock, ∅, none, .empty⟩

/-- A set without members is no key, and has no time to live. -/
def keep (world : World) (members : Finset Time) : World :=
  { world with members, expires := if members = ∅ then none else world.expires }

/-- `EXPIRE`, which deletes the key for a time that is not positive. -/
def expire (world : World) (seconds : Int) : World :=
  if seconds ≤ 0 then world.keep ∅
  else if world.members = ∅ then world
  else { world with expires := some (world.clock + seconds) }

def put (world : World) (id : Nat) (check : Check) : World :=
  { world with checks := world.checks.put id check }

def step (limiter : Limiter) (world : World) : Label → Option World
  | .tick seconds =>
    if 0 ≤ seconds then
      let world := { world with clock := world.clock + seconds }
      some (if world.expires.any fun ends => ends < world.clock then world.keep ∅ else world)
    else none
  | .begin id key =>
    match world.checks.get id with
    | some _ => none
    | none =>
      let phase :=
        match limiter.window key with
        | .int seconds => if limiter.subtracts seconds then .pruning else .finished .raised
        | .float _ => .pruning
      some (world.put id ⟨key, world.clock, phase⟩)
  | .advance id =>
    match world.checks.get id with
    | none => none
    | some check =>
      let window := limiter.window check.key
      match check.phase with
      | .pruning =>
        let cutoff := check.now - window.value
        some ((world.put id { check with phase := .adding }).keep
          (world.members.filter fun time => ¬ (0 ≤ time ∧ time ≤ cutoff)))
      | .adding =>
        some { (world.put id { check with phase := .counting }) with
          members := insert check.now world.members }
      | .counting => some (world.put id { check with phase := .expiring world.members.card })
      | .expiring count =>
        let allowed := decide ((count : ℚ) ≤ (limiter.limit check.key).value)
        match window with
        | .int seconds =>
          if limiter.expires (seconds * 2) then
            some ((world.put id { check with phase := .finished (.counted allowed) }).expire
              (seconds * 2))
          else some (world.put id { check with phase := .finished .raised })
        | .float _ => some (world.put id { check with phase := .finished .raised })
      | .finished _ => none

end World

end DjangoMojo.Limits
