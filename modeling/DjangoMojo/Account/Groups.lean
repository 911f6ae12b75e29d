import DjangoMojo.Foundation.Chains
import DjangoMojo.Foundation.Checks
import DjangoMojo.Foundation.Closure
import DjangoMojo.Foundation.Table

/-! # Groups and the keys of a group

A group may have a parent. The ancestors of a group are gone through one by one, and a
walk that does not end within its depth is an error. A key is allowed in its own group and
below it.
-/

namespace DjangoMojo.Account

open Foundation

structure GroupRow where
  parent : Option Nat := none
  isActive : Bool := true
  deriving DecidableEq

abbrev Groups := Table Nat GroupRow

/-- `MAX_ANCESTOR_DEPTH`. -/
def maxAncestorDepth : Nat := 32

/-- The loop of `ancestors`: the groups from `current` up, when `room` of them are left.
The first argument reads a row. -/
def climb (row : Nat → Option GroupRow) : Nat → List Nat → Option Nat → Except String (List Nat)
  | _, _, none => .ok []
  | 0, seen, some current =>
    if current ∈ seen then .error "Group hierarchy contains a cycle"
    else .error "Group hierarchy exceeds the supported depth"
  | room + 1, seen, some current =>
    if current ∈ seen then .error "Group hierarchy contains a cycle"
    else match row current with
      | none => .error "Group hierarchy contains a missing parent"
      | some group => do
          let chain ← climb row room (current :: seen) group.parent
          return current :: chain

/-- `ancestors` with `include_self`. -/
def ancestorsFrom (row : Nat → Option GroupRow) (maxDepth : Nat) (group : Nat) :
    Except String (List Nat) :=
  climb row maxDepth [] (some group)

/-- `ancestors` without `include_self`. -/
def ancestors (row : Nat → Option GroupRow) (maxDepth : Nat) (group : Nat) :
    Except String (List Nat) :=
  climb row maxDepth [] ((row group).bind GroupRow.parent)

def parentOf (row : Nat → Option GroupRow) (group : Nat) : Option Nat :=
  (row group).bind GroupRow.parent

def isActiveGroup (row : Nat → Option GroupRow) (group : Nat) : Bool :=
  (row group).any GroupRow.isActive

/-- `Group.is_effectively_active`, with its own depth. -/
def isEffectivelyActive (row : Nat → Option GroupRow) (group : Nat) : Bool :=
  match ancestorsFrom row (8 + 1) group with
  | .ok chain => chain.all (isActiveGroup row)
  | .error _ => false

/-- `Group.is_child_of`. -/
def isChildOf (row : Nat → Option GroupRow) (group parent : Nat) : Except String Bool := do
  let chain ← ancestors row maxAncestorDepth group
  return chain.any (· = parent)

/-- `ApiKey.is_group_allowed`, for a key of the group `own`. -/
def isGroupAllowed (row : Nat → Option GroupRow) (own group : Nat) : Except String Bool :=
  if !isEffectivelyActive row group then .ok false
  else if group = own then .ok true
  else isChildOf row group own

/-! ### The groups below a group -/

namespace Groups

variable (groups : Groups)

def children (group : Nat) : List Nat := groups.select fun _ row => row.parent = some group

/-- `Group._get_all_child_ids`. No more rows are collected than there are. -/
def allChildIds (group : Nat) : List Nat :=
  collect groups.children (groups.count + 1) [] group

/-- The rows of `all_ids` that are active, by their parent. -/
def childrenOf (allIds : List Nat) (parent : Nat) : List Nat :=
  groups.select fun id row => id ∈ allIds && row.isActive && row.parent = some parent

/-- `ApiKey.get_groups`, for a key of the group `own`. -/
def getGroups (own : Nat) : List Nat :=
  if !isEffectivelyActive groups.get own then []
  else
    let allIds := own :: groups.allChildIds own
    let kept := walk (groups.childrenOf allIds)
      (1 + edgesLeft (groups.childrenOf allIds) (own :: groups.keys) []) [own] []
    groups.select fun id _ => id ∈ kept

end Groups

/-! ### Climbing -/

variable {row : Nat → Option GroupRow}

theorem climb_ok_iff {room : Nat} {seen : List Nat} {current : Nat} {chain : List Nat} :
    climb row room seen (some current) = .ok chain ↔
      ChainOf (parentOf row) current chain ∧ chain.length ≤ room ∧
        (∀ group ∈ chain, group ∉ seen ∧ (row group).isSome) := by
  induction room generalizing seen current chain with
  | zero =>
    constructor
    · intro hok
      rw [climb] at hok
      split at hok <;> cases hok
    · rintro ⟨hchain, hlength, _⟩
      obtain ⟨rest, rfl⟩ := hchain.head
      exact absurd hlength (Nat.not_succ_le_zero _)
  | succ room ih =>
    rw [climb]
    by_cases hseen : current ∈ seen
    · rw [if_pos hseen]
      refine iff_of_false nofun ?_
      rintro ⟨hchain, _, hnew⟩
      exact (hnew current hchain.self_mem).1 hseen
    rw [if_neg hseen]
    cases hrow : row current with
    | none =>
      refine iff_of_false nofun ?_
      rintro ⟨hchain, _, hnew⟩
      have hsome := (hnew current hchain.self_mem).2
      rw [hrow] at hsome
      cases hsome
    | some group =>
      simp only [bind_ok, pure_ok]
      cases hparent : group.parent with
      | none =>
        have hroot : parentOf row current = none := by rw [parentOf, hrow]; exact hparent
        constructor
        · rintro ⟨above, habove, rfl⟩
          rw [climb] at habove
          cases habove
          refine ⟨.root hroot, by simp, fun other hother => ?_⟩
          rw [List.mem_singleton] at hother
          subst hother
          exact ⟨hseen, by rw [hrow]; rfl⟩
        · rintro ⟨hchain, _, _⟩
          refine ⟨[], by rw [climb], hchain.unique (.root hroot) ▸ rfl⟩
      | some above =>
        have hup : parentOf row current = some above := by rw [parentOf, hrow]; exact hparent
        constructor
        · rintro ⟨top, htop, rfl⟩
          obtain ⟨hchain, hlength, hnew⟩ := ih.mp htop
          refine ⟨.step hup hchain, Nat.succ_le_succ hlength, fun other hother => ?_⟩
          rcases List.mem_cons.mp hother with rfl | hother
          · exact ⟨hseen, by rw [hrow]; rfl⟩
          · obtain ⟨hnot, hsome⟩ := hnew other hother
            exact ⟨fun hmem => hnot (List.mem_cons_of_mem _ hmem), hsome⟩
        · rintro ⟨hchain, hlength, hnew⟩
          have hnodup := hchain.nodup
          cases hchain with
          | root hroot => rw [hroot] at hup; cases hup
          | @step _ _ top hagain habove =>
            rw [hup] at hagain
            cases hagain
            refine ⟨top, ih.mpr ⟨habove, Nat.le_of_succ_le_succ hlength, ?_⟩, rfl⟩
            intro other hother
            obtain ⟨hnot, hsome⟩ := hnew other (List.mem_cons_of_mem _ hother)
            refine ⟨?_, hsome⟩
            rw [List.mem_cons, not_or]
            exact ⟨fun heq => (List.nodup_cons.mp hnodup).1 (heq ▸ hother), hnot⟩

theorem ancestorsFrom_ok_iff {maxDepth group : Nat} {chain : List Nat} :
    ancestorsFrom row maxDepth group = .ok chain ↔
      ChainOf (parentOf row) group chain ∧ chain.length ≤ maxDepth ∧
        ∀ other ∈ chain, (row other).isSome := by
  rw [ancestorsFrom, climb_ok_iff]
  simp only [List.not_mem_nil, not_false_eq_true, true_and]

end DjangoMojo.Account
