import Mathlib.Data.List.Sort
import Mathlib.Data.Option.Basic
import Mathlib.Data.Prod.Lex
import Mathlib.Logic.Basic
import Mathlib.Order.Basic

/-! # Keys that expire

A store of values under keys, each with the instant at which it is gone. A command sees the
keys that are still there; one that writes a key leaves the others alone.
-/

namespace DjangoMojo.Foundation

universe uKey uValue

structure Expiring (Value : Type uValue) where
  value : Value
  /-- The instant at which the key is gone; a key without one stays. -/
  expires : Option Nat
  deriving DecidableEq

def Expiring.isLive {Value : Type uValue} (entry : Expiring Value) (now : Nat) : Bool :=
  entry.expires.all (now < ·)

abbrev ExpiringKeys (Key : Type uKey) (Value : Type uValue) := Key → Option (Expiring Value)

namespace ExpiringKeys

variable {Key : Type uKey} {Value : Type uValue} (store : ExpiringKeys Key Value) (now : Nat)

def live (key : Key) : Option (Expiring Value) := (store key).filter (·.isLive now)

theorem live_of_get {entry : Expiring Value} {key : Key} (hentry : store key = some entry)
    (hlive : entry.isLive now = true) : store.live now key = some entry := by
  rw [live, hentry, Option.filter_some, if_pos hlive]

theorem get_of_live {entry : Expiring Value} {key : Key}
    (hlive : store.live now key = some entry) :
    store key = some entry ∧ entry.isLive now = true := by
  rw [live, Option.filter_eq_some_iff] at hlive
  exact hlive

variable [DecidableEq Key]

def write (key : Key) (entry : Option (Expiring Value)) : ExpiringKeys Key Value :=
  fun other => if other = key then entry else store other

@[simp] theorem write_self (key : Key) (entry : Option (Expiring Value)) :
    store.write key entry key = entry := if_pos rfl

theorem write_of_ne {key other : Key} (hne : other ≠ key) (entry : Option (Expiring Value)) :
    store.write key entry other = store other := if_neg hne

/-- `SET key value NX EX ttl`: whether the key was free. -/
def setNew (key : Key) (value : Value) (ttl : Nat) : ExpiringKeys Key Value × Bool :=
  match store.live now key with
  | some _ => (store, false)
  | none => (store.write key (some ⟨value, some (now + ttl)⟩), true)

/-- `EXPIRE key ttl`. -/
def expire (key : Key) (ttl : Nat) : ExpiringKeys Key Value :=
  match store.live now key with
  | some entry => store.write key (some { entry with expires := some (now + ttl) })
  | none => store

theorem expire_of_ne {key other : Key} (hne : other ≠ key) (ttl : Nat) :
    store.expire now key ttl other = store other := by
  rw [expire]
  cases store.live now key with
  | none => rfl
  | some entry => exact store.write_of_ne hne _

end ExpiringKeys

namespace ExpiringKeys

variable {Key : Type uKey} [DecidableEq Key] (store : ExpiringKeys Key Nat) (now : Nat)

/-- `INCR key`, and the number that it answers. -/
def increment (key : Key) : ExpiringKeys Key Nat × Nat :=
  match store.live now key with
  | some entry => (store.write key (some { entry with value := entry.value + 1 }), entry.value + 1)
  | none => (store.write key (some ⟨1, none⟩), 1)

theorem increment_of_ne {key other : Key} (hne : other ≠ key) :
    (store.increment now key).1 other = store other := by
  rw [increment]
  cases store.live now key with
  | none => exact store.write_of_ne hne _
  | some entry => exact store.write_of_ne hne _

end ExpiringKeys

/-! ## Sorted sets

Members with an integer score, kept in order of score and, for equal scores,
of member. Every member occurs once. This is the ordered-set data type of an
in-memory store: insertion replaces a score, and the smallest entries are
popped first.
-/

universe uMember

namespace SortedSet

def Precedes {Member : Type uMember} [LinearOrder Member] (first second : Int × Member) : Prop :=
  toLex first ≤ toLex second

variable {Member : Type uMember} [LinearOrder Member]

instance : DecidableRel (Precedes : Int × Member → Int × Member → Prop) := fun first second =>
  inferInstanceAs (Decidable (toLex first ≤ toLex second))

instance : Std.Total (Precedes : Int × Member → Int × Member → Prop) :=
  ⟨fun first second => le_total (toLex first) (toLex second)⟩

instance : IsTrans (Int × Member) Precedes := ⟨fun _ _ _ => le_trans⟩

end SortedSet

structure SortedSet (Member : Type uMember) [LinearOrder Member] where
  entries : List (Int × Member)
  sorted : entries.Pairwise SortedSet.Precedes
  nodup : (entries.map Prod.snd).Nodup

namespace SortedSet

variable {Member : Type uMember} [LinearOrder Member]

def empty : SortedSet Member := ⟨[], .nil, .nil⟩

instance : Membership Member (SortedSet Member) :=
  ⟨fun set member => member ∈ set.entries.map Prod.snd⟩

instance (member : Member) (set : SortedSet Member) : Decidable (member ∈ set) :=
  inferInstanceAs (Decidable (member ∈ set.entries.map Prod.snd))

theorem mem_def {member : Member} {set : SortedSet Member} :
    member ∈ set ↔ member ∈ set.entries.map Prod.snd := Iff.rfl

@[simp] theorem not_mem_empty (member : Member) : member ∉ (empty : SortedSet Member) := by
  simp [mem_def, empty]

def remove (set : SortedSet Member) (member : Member) : SortedSet Member where
  entries := set.entries.filter fun entry => entry.2 ≠ member
  sorted := set.sorted.filter _
  nodup := set.nodup.sublist (List.filter_sublist.map _)

@[simp] theorem mem_remove {set : SortedSet Member} {member other : Member} :
    other ∈ set.remove member ↔ other ∈ set ∧ other ≠ member := by
  simp [mem_def, remove]

def add (set : SortedSet Member) (score : Int) (member : Member) : SortedSet Member where
  entries := (set.remove member).entries.orderedInsert Precedes (score, member)
  sorted := (set.remove member).sorted.orderedInsert _ _
  nodup := by
    have hperm := List.perm_orderedInsert Precedes (score, member) (set.remove member).entries
    rw [(hperm.map _).nodup_iff, List.map_cons, List.nodup_cons]
    have habsent : member ∉ set.remove member := by simp
    exact ⟨habsent, (set.remove member).nodup⟩

@[simp] theorem mem_add {set : SortedSet Member} {score : Int} {member other : Member} :
    other ∈ set.add score member ↔ other = member ∨ other ∈ set := by
  have hperm := List.perm_orderedInsert Precedes (score, member) (set.remove member).entries
  have hmem : other ∈ set.add score member ↔ other = member ∨ other ∈ set.remove member := by
    rw [mem_def, add, (hperm.map _).mem_iff, List.map_cons, List.mem_cons, mem_def]
  rw [hmem, mem_remove]
  by_cases heq : other = member <;> simp [heq]

theorem mem_entries_add {set : SortedSet Member} {score : Int} {member : Member}
    {entry : Int × Member} :
    entry ∈ (set.add score member).entries ↔
      entry = (score, member) ∨ entry ∈ set.entries ∧ entry.2 ≠ member := by
  rw [add, (List.perm_orderedInsert Precedes (score, member) _).mem_iff, List.mem_cons]
  simp [remove]

def addAll (set : SortedSet Member) : List (Int × Member) → SortedSet Member
  | [] => set
  | entry :: rest => (set.add entry.1 entry.2).addAll rest

@[simp] theorem mem_addAll {set : SortedSet Member} {entries : List (Int × Member)}
    {member : Member} :
    member ∈ set.addAll entries ↔ member ∈ set ∨ member ∈ entries.map Prod.snd := by
  induction entries generalizing set with
  | nil => simp [addAll]
  | cons entry rest ih =>
    simp only [addAll, ih, mem_add, List.map_cons, List.mem_cons]
    tauto

theorem mem_entries_addAll {set : SortedSet Member} {entries : List (Int × Member)}
    (hdistinct : (entries.map Prod.snd).Nodup)
    (hfresh : ∀ member ∈ entries.map Prod.snd, member ∉ set) {entry : Int × Member} :
    entry ∈ (set.addAll entries).entries ↔ entry ∈ set.entries ∨ entry ∈ entries := by
  induction entries generalizing set with
  | nil => simp [addAll]
  | cons first rest ih =>
    obtain ⟨hfirst, hrest⟩ := List.nodup_cons.mp hdistinct
    have habsent := hfresh first.2 (List.mem_cons_self ..)
    have hnew : ∀ member ∈ rest.map Prod.snd, member ∉ set.add first.1 first.2 := by
      intro member hmember hadded
      obtain heq | hold := mem_add.mp hadded
      · exact hfirst (heq ▸ hmember)
      · exact hfresh member (List.mem_cons_of_mem _ hmember) hold
    have hother (hmem : entry ∈ set.entries) : entry.2 ≠ first.2 := fun heq =>
      habsent (heq ▸ List.mem_map_of_mem hmem)
    rw [addAll, ih hrest hnew, mem_entries_add, List.mem_cons]
    constructor
    · rintro ((heq | ⟨hold, _⟩) | hlater)
      · exact .inr (.inl heq)
      · exact .inl hold
      · exact .inr (.inr hlater)
    · rintro (hold | heq | hlater)
      · exact .inl (.inr ⟨hold, hother hold⟩)
      · exact .inl (.inl heq)
      · exact .inr hlater

/-- The `count` smallest entries. -/
def lowest (set : SortedSet Member) (count : Nat) : List (Int × Member) :=
  set.entries.take count

/-- What remains once the `count` smallest entries are popped. -/
def dropLowest (set : SortedSet Member) (count : Nat) : SortedSet Member where
  entries := set.entries.drop count
  sorted := set.sorted.sublist (List.drop_sublist _ _)
  nodup := set.nodup.sublist ((List.drop_sublist _ _).map _)

theorem dropLowest_of_empty {set : SortedSet Member} (hempty : set.entries = []) (count : Nat) :
    set.dropLowest count = set := by
  obtain ⟨entries, _, _⟩ := set
  subst hempty
  simp [dropLowest]

theorem mem_iff_lowest_or_dropLowest {set : SortedSet Member} (count : Nat) {member : Member} :
    member ∈ set ↔ member ∈ (set.lowest count).map Prod.snd ∨ member ∈ set.dropLowest count := by
  rw [mem_def, mem_def, lowest, dropLowest, ← List.mem_append, ← List.map_append,
    List.take_append_drop]

/-- At most `limit` members with score at most `bound`, smallest first. -/
def upTo (set : SortedSet Member) (bound : Int) (limit : Nat) : List Member :=
  ((set.entries.filter fun entry => entry.1 ≤ bound).take limit).map Prod.snd

theorem mem_of_mem_upTo {set : SortedSet Member} {bound : Int} {limit : Nat}
    {member : Member} (hmem : member ∈ set.upTo bound limit) : member ∈ set := by
  obtain ⟨entry, hentry, rfl⟩ := List.mem_map.mp hmem
  exact List.mem_map_of_mem (List.mem_of_mem_filter (List.mem_of_mem_take hentry))

end SortedSet

end DjangoMojo.Foundation
