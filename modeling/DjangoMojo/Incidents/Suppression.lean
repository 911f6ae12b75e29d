import DjangoMojo.Foundation.RedisData
import DjangoMojo.Foundation.JoinedKeys
import DjangoMojo.Foundation.Table
import DjangoMojo.Foundation.Trace
import Mathlib.Data.PNat.Defs

/-! # Suppressed reports

A report claims the notice of its category and key, and then a number under the budget of the
category, before it files an event. The workers share a Redis; any of its commands can fail,
before or after it takes effect.
-/

namespace DjangoMojo.Incidents.Suppression

open Foundation

structure Limits where
  window : ℕ+
  budget : Option Nat

namespace Limits

variable (limits : Limits)

def windowMs : Nat := limits.window * 1000

/-- `int(time.time()) // window * window`, with the clock in milliseconds. -/
def bucketAt (now : Nat) : Nat := now / 1000 / limits.window * limits.window

def bucketEnd (bucket : Nat) : Nat := (bucket + limits.window) * 1000

end Limits

def noticeKey (category key : String) : String := "incident:notice:" ++ category ++ ":" ++ key

def budgetKey (category : String) (bucket : Nat) : String :=
  "incident:budget:" ++ category ++ ":" ++ toString bucket

/-- The number that a report got under the budget of a bucket, and when. -/
structure Ticket where
  bucket : Nat
  number : Nat
  time : Nat
  deriving DecidableEq

inductive Outcome where
  | filed
  | suppressed
  | dropped
  | failed
  | raised
  deriving DecidableEq, Repr

inductive Phase where
  | claiming | reading
  | counting (bucket : Nat)
  | expiring (bucket number : Nat)
  | marking | filing
  | finished (outcome : Outcome)
  deriving DecidableEq

/-- A call of `report_event_suppressed`, with the instants of what it did. -/
structure Call where
  category : String
  key : String
  failOpen : Bool
  phase : Phase := .claiming
  asked : Option Nat := none
  noticed : Bool := false
  ticket : Option Ticket := none
  filed : Option Nat := none
  marked : Option Nat := none

structure System where
  now : Nat := 0
  store : ExpiringKeys String Nat := fun _ => none
  calls : Table Nat Call := .empty

inductive Fault where
  | none | before | after
  deriving DecidableEq

/-- The `try` blocks around a command. -/
inductive Block where
  | limiter | marker | filing

def Phase.block : Phase → Option Block
  | .claiming | .reading | .counting _ | .expiring .. => some .limiter
  | .marking => some .marker
  | .filing => some .filing
  | .finished _ => none

namespace Call

def raise (call : Call) : Call :=
  { call with
    phase := match call.phase.block with
      | some .limiter => if call.failOpen then .filing else .finished .failed
      | some .marker => .finished .dropped
      | some .filing => .finished .failed
      | none => .finished .raised }

/-- After the increment: the call files, tells that the budget is used up, or is dropped. -/
def judged (budget number : Nat) : Phase :=
  if budget < number then
    if number = budget + 1 then .marking else .finished .dropped
  else .filing

/-- What the next command of a call does; the phase is the one after its answer. -/
def command (limits : Limits) (store : ExpiringKeys String Nat) (now : Nat) (call : Call) :
    ExpiringKeys String Nat × Call :=
  match call.phase with
  | .claiming =>
    let (store, fresh) := store.setNew now (noticeKey call.category call.key) 1 limits.windowMs
    (store, { call with
      asked := some now
      noticed := fresh
      phase :=
        if !fresh then .finished .suppressed
        else if limits.budget.isNone then .filing
        else .reading })
  | .reading => (store, { call with phase := .counting (limits.bucketAt now) })
  | .counting bucket =>
    let (store, number) := store.increment now (budgetKey call.category bucket)
    (store, { call with
      ticket := some ⟨bucket, number, now⟩
      phase :=
        if number = 1 then .expiring bucket number
        else judged (limits.budget.getD 0) number })
  | .expiring bucket number =>
    (store.expire now (budgetKey call.category bucket) limits.windowMs,
      { call with phase := judged (limits.budget.getD 0) number })
  | .marking => (store, { call with marked := some now, phase := .finished .dropped })
  | .filing => (store, { call with filed := some now, phase := .finished .filed })
  | .finished _ => (store, call)

end Call

inductive Action where
  | begin (id : Nat) (category key : String) (failOpen : Bool)
  | advance (id : Nat) (fault : Fault)
  | tick (milliseconds : Nat)

def step (limits : String → Limits) (system : System) : Action → Option System
  | .begin id category key failOpen =>
    if (system.calls.get id).isSome then none
    else some { system with calls := system.calls.put id { category, key, failOpen } }
  | .advance id fault =>
    (system.calls.get id).bind fun call =>
      let (store, next) := call.command (limits call.category) system.store system.now
      if call.phase.block.isNone then none
      else
        match fault with
        | .none => some { system with store, calls := system.calls.put id next }
        | .before => some { system with calls := system.calls.put id call.raise }
        | .after =>
          some { system with
            store, calls := system.calls.put id { next with phase := call.phase }.raise }
  | .tick milliseconds => some { system with now := system.now + milliseconds }

def FailClosed (_ : System) (action : Action) (_ : System) : Prop :=
  match action with
  | .begin _ _ _ failOpen => failOpen = false
  | _ => True

/-! ### Keys -/

theorem toList_joined (head category rest : String) : (head ++ category ++ ":" ++ rest).toList =
    head.toList ++ (category.toList ++ ':' :: rest.toList) := by
  have hcolon : ":".toList = [':'] := by decide
  rw [String.toList_append, String.toList_append, String.toList_append, hcolon, List.append_assoc,
    List.append_assoc, List.singleton_append]

theorem noticeKey_toList (category key : String) : (noticeKey category key).toList =
    "incident:notice:".toList ++ (category.toList ++ ':' :: key.toList) :=
  toList_joined _ category key

theorem budgetKey_toList (category : String) (bucket : Nat) : (budgetKey category bucket).toList =
    "incident:budget:".toList ++ (category.toList ++ ':' :: (toString bucket).toList) :=
  toList_joined _ category (toString bucket)

theorem noticeKey_inj {category first second : String}
    (heq : noticeKey category first = noticeKey category second) : first = second := by
  have htext := congrArg String.toList heq
  rw [noticeKey_toList, noticeKey_toList, List.append_cancel_left_eq,
    List.append_cancel_left_eq] at htext
  exact String.toList_injective (List.cons.inj htext).2

theorem budgetKey_inj {category other : String} {bucket known : Nat}
    (heq : budgetKey category bucket = budgetKey other known) :
    category = other ∧ bucket = known := by
  have htext := congrArg String.toList heq
  rw [budgetKey_toList, budgetKey_toList, List.append_cancel_left_eq] at htext
  have hdigit : Char.isDigit ':' = false := by decide
  obtain ⟨hcategory, hbucket⟩ := JoinedKeys.last_inj (JoinedKeys.not_mem_number hdigit)
    (JoinedKeys.not_mem_number hdigit) htext
  exact ⟨String.toList_injective hcategory, JoinedKeys.number_inj hbucket⟩

theorem noticeKey_ne_budgetKey (category key other : String) (bucket : Nat) :
    noticeKey category key ≠ budgetKey other bucket := by
  intro heq
  have htext := congrArg String.toList heq
  rw [noticeKey_toList, budgetKey_toList] at htext
  have hlength : "incident:notice:".toList.length = "incident:budget:".toList.length := by decide
  have hne : "incident:notice:".toList ≠ "incident:budget:".toList := by decide
  exact hne (List.append_inj_left htext hlength)

end DjangoMojo.Incidents.Suppression
