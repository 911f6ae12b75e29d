import Mathlib.Data.List.Perm.Basic
import Mathlib.Data.List.Sort

/-! # Functions that may raise

A check passes or raises with its message. A sequence of steps succeeds exactly
when each of them does.
-/

namespace DjangoMojo.Foundation

universe uError uFirst uSecond

variable {Error : Type uError} {First : Type uFirst} {Second : Type uFirst}

def check (condition : Bool) (message : Error) : Except Error Unit :=
  if condition then .ok () else .error message

@[simp] theorem check_ok {condition : Bool} {message : Error} {result : Unit} :
    check condition message = .ok result ↔ condition = true := by
  unfold check
  split
  · simp [*]
  · simp [*]

@[simp] theorem bind_ok {first : Except Error First} {next : First → Except Error Second}
    {result : Second} :
    (first >>= next) = .ok result ↔ ∃ value, first = .ok value ∧ next value = .ok result := by
  cases first with
  | error message => exact ⟨nofun, fun ⟨_, hvalue, _⟩ => nomatch hvalue⟩
  | ok value =>
    constructor
    · intro hnext
      exact ⟨value, rfl, hnext⟩
    · rintro ⟨found, hfound, hnext⟩
      cases hfound
      exact hnext

@[simp] theorem pure_ok {value result : First} :
    (pure value : Except Error First) = .ok result ↔ value = result := by
  constructor
  · intro heq
    cases heq
    rfl
  · rintro rfl
    rfl

theorem toOption_some {found : Except Error First} {value : First} :
    found.toOption = some value ↔ found = .ok value := by
  cases found with
  | error message => exact ⟨nofun, nofun⟩
  | ok other => exact ⟨fun heq => by cases heq; rfl, fun heq => by cases heq; rfl⟩

theorem exists_ok_of_isOk {Error Value : Type} {result : Except Error Value}
    (hok : result.isOk = true) : ∃ value, result = .ok value := by
  cases result with
  | ok value => exact ⟨value, rfl⟩
  | error _ => cases hok

theorem forM_check_ok {Error Item : Type} {items : List Item} {holds : Item → Bool}
    {error : Item → Error}
    (hok : (items.forM fun item => check (holds item) (error item)) = .ok ()) :
    ∀ item ∈ items, holds item = true := by
  induction items with
  | nil => exact fun _ hmem => nomatch hmem
  | cons first rest ih =>
    simp only [List.forM_eq_forM, List.forM_cons, bind_ok] at hok ih
    obtain ⟨_, hfirst, hrest⟩ := hok
    exact List.forall_mem_cons.mpr ⟨check_ok.mp hfirst, ih hrest⟩

end DjangoMojo.Foundation

/-! ## Lists in any order

A function that may raise gives the same results for a list in any order. Items that are
sorted by a key come in one order when their keys differ; two with one key come in the
order in which they were given.
-/

namespace DjangoMojo.Foundation

/-! ### Functions that may raise -/

section

variable {Error Item Value : Type} {read : Item → Except Error Value}

theorem mapM_ok_iff {items : List Item} {found : List Value} :
    items.mapM read = .ok found ↔
      List.Forall₂ (fun item value => read item = .ok value) items found := by
  induction items generalizing found with
  | nil =>
    rw [List.mapM_nil, pure_ok, List.forall₂_nil_left_iff, eq_comm]
  | cons item rest ih =>
    simp only [List.mapM_cons, bind_ok, pure_ok, List.forall₂_cons_left_iff, ih]
    constructor
    · intro ⟨value, hvalue, values, hvalues, heq⟩
      exact ⟨value, values, hvalue, hvalues, heq.symm⟩
    · intro ⟨value, values, hvalue, hvalues, heq⟩
      exact ⟨value, hvalue, values, hvalues, heq.symm⟩

theorem mapM_ok_mem {items : List Item} {found : List Value} (hok : items.mapM read = .ok found)
    {value : Value} (hvalue : value ∈ found) : ∃ item ∈ items, read item = .ok value := by
  rw [mapM_ok_iff] at hok
  induction hok with
  | nil => exact nomatch hvalue
  | @cons item first rest values hfirst _ ih =>
    rcases List.mem_cons.mp hvalue with rfl | hrest
    · exact ⟨item, List.mem_cons_self, hfirst⟩
    · obtain ⟨other, hother, hread⟩ := ih hrest
      exact ⟨other, List.mem_cons_of_mem _ hother, hread⟩

theorem mapM_ok_exists {items : List Item} {found : List Value} (hok : items.mapM read = .ok found)
    {item : Item} (hitem : item ∈ items) : ∃ value ∈ found, read item = .ok value := by
  rw [mapM_ok_iff] at hok
  induction hok with
  | nil => exact nomatch hitem
  | @cons first value rest values hfirst _ ih =>
    rcases List.mem_cons.mp hitem with rfl | hrest
    · exact ⟨value, List.mem_cons_self, hfirst⟩
    · obtain ⟨other, hother, hread⟩ := ih hrest
      exact ⟨other, List.mem_cons_of_mem _ hother, hread⟩

theorem mapM_ok_of_forall {items : List Item}
    (hitems : ∀ item ∈ items, ∃ value, read item = .ok value) :
    ∃ found, items.mapM read = .ok found := by
  induction items with
  | nil => exact ⟨[], rfl⟩
  | cons item rest ih =>
    obtain ⟨value, hvalue⟩ := hitems item List.mem_cons_self
    obtain ⟨values, hvalues⟩ := ih fun other hother =>
      hitems other (List.mem_cons_of_mem _ hother)
    exact ⟨value :: values, mapM_ok_iff.mpr (.cons hvalue (mapM_ok_iff.mp hvalues))⟩

theorem mapM_ok_perm {first second : List Item} {found : List Value} (hperm : first.Perm second)
    (hok : first.mapM read = .ok found) :
    ∃ other, second.mapM read = .ok other ∧ found.Perm other := by
  rw [mapM_ok_iff] at hok
  obtain ⟨other, hother, hfound⟩ := List.perm_comp_forall₂ hperm.symm hok
  exact ⟨other, mapM_ok_iff.mpr hother, hfound.symm⟩

end

/-! ### Sorting by a key -/

section

variable {Item Key : Type} [LinearOrder Key] (key : Item → Key)

theorem insertionSort_perm {first second : List Item} (hperm : first.Perm second)
    (hkeys : ∀ one ∈ first, ∀ other ∈ first, key one = key other → one = other) :
    first.insertionSort (fun one other => key one ≤ key other) =
      second.insertionSort fun one other => key one ≤ key other := by
  have hsorted (items : List Item) : (items.insertionSort fun one other =>
      key one ≤ key other).Pairwise fun one other => key one ≤ key other :=
    haveI : Std.Total fun one other : Item => key one ≤ key other := ⟨fun _ _ => le_total _ _⟩
    haveI : IsTrans Item fun one other : Item => key one ≤ key other := ⟨fun _ _ _ => le_trans⟩
    List.pairwise_insertionSort _ items
  have hpermuted (items : List Item) :
      (items.insertionSort fun one other => key one ≤ key other).Perm items :=
    List.perm_insertionSort _ items
  have hsame := ((hpermuted first).trans hperm).trans (hpermuted second).symm
  refine List.Perm.eq_of_pairwise ?_ (hsorted first) (hsorted second) hsame
  intro one other hone hother hle hge
  rw [List.mem_insertionSort] at hone hother
  exact hkeys one hone other (hperm.mem_iff.mpr hother) (le_antisymm hle hge)

/-- Two items with one key stand next to each other, the one that was inserted last first. -/
theorem orderedInsert_tied {first second : Item} (htied : key first = key second)
    (sorted : List Item) : ∃ before after,
      (sorted.orderedInsert (fun one other => key one ≤ key other) second).orderedInsert
        (fun one other => key one ≤ key other) first = before ++ first :: second :: after ∧
      (sorted.orderedInsert (fun one other => key one ≤ key other) first).orderedInsert
        (fun one other => key one ≤ key other) second = before ++ second :: first :: after := by
  induction sorted with
  | nil =>
    refine ⟨[], [], ?_, ?_⟩
    · rw [List.orderedInsert_nil, List.orderedInsert_cons, if_pos htied.le]
      rfl
    · rw [List.orderedInsert_nil, List.orderedInsert_cons, if_pos htied.ge]
      rfl
  | cons item rest ih =>
    rw [List.orderedInsert_cons, List.orderedInsert_cons]
    by_cases hle : key first ≤ key item
    · have hsecond : key second ≤ key item := htied ▸ hle
      rw [if_pos hle, if_pos hsecond]
      refine ⟨[], item :: rest, ?_, ?_⟩
      · rw [List.orderedInsert_cons, if_pos htied.le]
        rfl
      · rw [List.orderedInsert_cons, if_pos htied.ge]
        rfl
    · have hsecond : ¬ key second ≤ key item := htied ▸ hle
      rw [if_neg hle, if_neg hsecond, List.orderedInsert_cons, List.orderedInsert_cons, if_neg hle,
        if_neg hsecond]
      obtain ⟨before, after, hfirst, hother⟩ := ih
      exact ⟨item :: before, after, by rw [hfirst]; rfl, by rw [hother]; rfl⟩

theorem insertionSort_tied {first second : Item} (htied : key first = key second)
    (rest : List Item) : ∃ before after,
      (first :: second :: rest).insertionSort (fun one other => key one ≤ key other) =
        before ++ first :: second :: after ∧
      (second :: first :: rest).insertionSort (fun one other => key one ≤ key other) =
        before ++ second :: first :: after := by
  simp only [List.insertionSort_cons]
  exact orderedInsert_tied key htied _

end

end DjangoMojo.Foundation
