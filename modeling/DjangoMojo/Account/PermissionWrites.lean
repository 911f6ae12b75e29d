import DjangoMojo.Account.Permissions

/-! # A refused write of permissions

The setter of a key writes in memory and is saved when it ends. The setter of a member saves
each entry, so entries before a refused one stay and may be what lets the next one through.
-/

namespace DjangoMojo.Account

open Foundation

/-! ### What is promised -/

/-- The new dictionary is the old one with the entries: what is true is set, what is false is
removed. -/
structure Updated (granted : Json → Json → Prop) (entries : List (String × Json))
    (old new : JsonFields) : Prop where
  kept : ∀ perm, (∀ entry ∈ entries, entry.1 ≠ perm) → new.field perm = old.field perm
  set : ∀ entry ∈ entries, entry.2.truthy → ∃ stored, new.field entry.1 = some stored ∧
    granted stored entry.2
  removed : ∀ entry ∈ entries, entry.2.truthy = false → new.isSet entry.1 = false

/-- A refused write changes nothing, and one that succeeds changes what was submitted and was
allowed at the start. -/
structure AllOrNothing (read : Json → JsonFields) (granted : Json → Json → Prop)
    (gate : String → Option Bool) (submitted : Submitted) (old : Json) (result : Outcome × Json) :
    Prop where
  denied : result.1 = .denied → result.2 = old
  done : result.1 = .done → Updated granted submitted.entries (read old) (read result.2) ∧
    ∀ entry ∈ submitted.entries, (read result.2).field entry.1 ≠ (read old).field entry.1 →
      gate entry.1 = some true

/-! ### The loop -/

section

variable (gate : Json → String → Option Bool) (read : Json → JsonFields) (takes : Json → Bool)
  (granted : Json → Json)

def afterEntry (row : Json) (entry : String × Json) : Json :=
  if isNoop (read row) entry then row else .obj (withEntry granted (read row) entry)

def withEntries (row : Json) (entries : List (String × Json)) : Json :=
  entries.foldl (afterEntry read granted) row

/-- Every entry that is no no-op is let through, where the ones before have left the row. -/
def LetThrough : Json → List (String × Json) → Prop
  | _, [] => True
  | row, entry :: rest =>
    if isNoop (read row) entry then LetThrough row rest
    else gate row entry.1 = some true ∧ takes row ∧
      LetThrough (.obj (withEntry granted (read row) entry)) rest

variable {gate read takes granted} {entries : List (String × Json)} {row : Json}

theorem setPermissions_done_iff :
    (setPermissions gate read takes granted entries row).1 = .done ↔
      LetThrough gate read takes granted row entries := by
  induction entries generalizing row with
  | nil => exact iff_of_true rfl trivial
  | cons entry rest ih =>
    unfold setPermissions LetThrough
    by_cases hnoop : isNoop (read row) entry
    · rw [if_pos hnoop, if_pos hnoop]
      exact ih
    rw [if_neg hnoop, if_neg hnoop]
    cases hgate : gate row entry.1 with
    | none => exact iff_of_false nofun fun hthrough => nomatch hthrough.1
    | some allowed =>
      cases allowed with
      | false => exact iff_of_false nofun fun hthrough => nomatch hthrough.1
      | true =>
        by_cases htakes : takes row
        · simp only [htakes, if_true, true_and]
          exact ih
        · simp [htakes]

theorem setPermissions_of_letThrough (hthrough : LetThrough gate read takes granted row entries) :
    (setPermissions gate read takes granted entries row).2 = withEntries read granted row entries := by
  induction entries generalizing row with
  | nil => rfl
  | cons entry rest ih =>
    unfold setPermissions withEntries
    unfold LetThrough at hthrough
    rw [List.foldl_cons, afterEntry]
    by_cases hnoop : isNoop (read row) entry
    · rw [if_pos hnoop] at hthrough ⊢
      rw [if_pos hnoop]
      exact ih hthrough
    · rw [if_neg hnoop] at hthrough ⊢
      rw [if_neg hnoop]
      obtain ⟨hgate, htakes, hrest⟩ := hthrough
      simp only [hgate, htakes, if_true]
      exact ih hrest

theorem setPermissions_keeps {invariant : Json → Prop}
    (hstep : ∀ before entry after, entries = before ++ entry :: after →
      let state := withEntries read granted row before
      invariant state → isNoop (read state) entry = false → gate state entry.1 = some true →
        takes state → invariant (.obj (withEntry granted (read state) entry)))
    (hrow : invariant row) : invariant (setPermissions gate read takes granted entries row).2 := by
  induction entries generalizing row with
  | nil => exact hrow
  | cons entry rest ih =>
    unfold setPermissions
    have hlater (before : List (String × Json)) : withEntries read granted row (entry :: before) =
        withEntries read granted (afterEntry read granted row entry) before := rfl
    by_cases hnoop : isNoop (read row) entry
    · rw [if_pos hnoop]
      refine ih (fun before found after heq => ?_) hrow
      have hfound := hstep (entry :: before) found after (by rw [heq]; rfl)
      rwa [hlater, afterEntry, if_pos hnoop] at hfound
    rw [if_neg hnoop]
    cases hgate : gate row entry.1 with
    | none => exact hrow
    | some allowed =>
      cases allowed with
      | false => exact hrow
      | true =>
        by_cases htakes : takes row
        · simp only [htakes, if_true]
          refine ih (fun before found after heq => ?_)
            (hstep [] entry rest rfl hrow (eq_false_of_ne_true hnoop) hgate htakes)
          have hfound := hstep (entry :: before) found after (by rw [heq]; rfl)
          rwa [hlater, afterEntry, if_neg hnoop] at hfound
        · simpa [htakes] using hrow

theorem setPermissions_denied_iff {last : Json} :
    setPermissions gate read takes granted entries row = (.denied, last) ↔
      ∃ before entry after, entries = before ++ entry :: after ∧
        LetThrough gate read takes granted row before ∧
        last = withEntries read granted row before ∧ isNoop (read last) entry = false ∧
        gate last entry.1 = some false := by
  induction entries generalizing row with
  | nil =>
    refine iff_of_false nofun ?_
    rintro ⟨before, entry, after, heq, _⟩
    exact absurd heq (by simp)
  | cons entry rest ih =>
    -- a refusal is at the head or in the rest, where the head has been let through
    have hsplit : (∃ before found after, entry :: rest = before ++ found :: after ∧
        LetThrough gate read takes granted row before ∧
        last = withEntries read granted row before ∧ isNoop (read last) found = false ∧
        gate last found.1 = some false) ↔
        (last = row ∧ isNoop (read row) entry = false ∧ gate row entry.1 = some false) ∨
        ∃ before found after, rest = before ++ found :: after ∧
          LetThrough gate read takes granted row (entry :: before) ∧
          last = withEntries read granted row (entry :: before) ∧
          isNoop (read last) found = false ∧ gate last found.1 = some false := by
      constructor
      · rintro ⟨before, found, after, heq, hthrough, hlast, hnoop, hgate⟩
        cases before with
        | nil =>
          cases heq
          cases hlast
          exact .inl ⟨rfl, hnoop, hgate⟩
        | cons head before =>
          cases heq
          exact .inr ⟨before, found, after, rfl, hthrough, hlast, hnoop, hgate⟩
      · rintro (⟨rfl, hnoop, hgate⟩ | ⟨before, found, after, rfl, hthrough, hlast, hnoop, hgate⟩)
        · exact ⟨[], entry, rest, rfl, trivial, rfl, hnoop, hgate⟩
        · exact ⟨entry :: before, found, after, rfl, hthrough, hlast, hnoop, hgate⟩
    rw [hsplit]
    unfold setPermissions LetThrough
    simp only [withEntries, List.foldl_cons, afterEntry]
    by_cases hnoop : isNoop (read row) entry
    · simp only [hnoop, if_true, Bool.true_eq_false, false_and, and_false, false_or]
      exact ih
    simp only [hnoop, if_false, Bool.false_eq_true, true_and]
    cases hgate : gate row entry.1 with
    | none => simp
    | some allowed =>
      cases allowed with
      | false =>
        constructor
        · intro heq
          cases heq
          exact .inl ⟨rfl, rfl⟩
        · rintro (⟨rfl, _⟩ | ⟨_, _, _, _, hthrough, _⟩)
          · rfl
          · exact nomatch hthrough.1
      | true =>
        by_cases htakes : takes row
        · simp only [htakes, if_true, true_and, Option.some.injEq, Bool.true_eq_false,
            and_false, false_or]
          exact ih
        · simp [htakes]

theorem afterEntry_field_self (hread : ∀ fields, read (.obj fields) = fields)
    (entry : String × Json) : (read (afterEntry read granted row entry)).field entry.1 =
      if isNoop (read row) entry then (read row).field entry.1
      else if entry.2.truthy then some (granted entry.2) else none := by
  unfold afterEntry
  by_cases hnoop : isNoop (read row) entry
  · rw [if_pos hnoop, if_pos hnoop]
  rw [if_neg hnoop, if_neg hnoop, hread, withEntry]
  by_cases htrue : entry.2.truthy
  · rw [if_pos htrue, if_pos htrue]
    exact JsonFields.field_set_self
  · rw [if_neg htrue, if_neg htrue]
    exact JsonFields.field_pop_self

theorem afterEntry_field_ne (hread : ∀ fields, read (.obj fields) = fields)
    {entry : String × Json} {perm : String} (hperm : perm ≠ entry.1) :
    (read (afterEntry read granted row entry)).field perm = (read row).field perm := by
  unfold afterEntry
  split
  · rfl
  rw [hread, withEntry]
  split
  · exact JsonFields.field_set_ne hperm
  · exact JsonFields.field_pop_ne hperm

theorem isNoop_afterEntry (hread : ∀ fields, read (.obj fields) = fields)
    {entry other : String × Json} (hother : other.1 ≠ entry.1) :
    isNoop (read (afterEntry read granted row entry)) other = isNoop (read row) other := by
  rw [isNoop, isNoop, afterEntry_field_ne hread hother]

theorem withEntries_field (hread : ∀ fields, read (.obj fields) = fields)
    (hnodup : (entries.map Prod.fst).Nodup) :
    (∀ perm, (∀ entry ∈ entries, entry.1 ≠ perm) →
      (read (withEntries read granted row entries)).field perm = (read row).field perm) ∧
    ∀ entry ∈ entries, (read (withEntries read granted row entries)).field entry.1 =
      if isNoop (read row) entry then (read row).field entry.1
      else if entry.2.truthy then some (granted entry.2) else none := by
  induction entries generalizing row with
  | nil => exact ⟨fun _ _ => rfl, nofun⟩
  | cons head rest ih =>
    rw [List.map_cons, List.nodup_cons] at hnodup
    obtain ⟨hkept, hset⟩ := @ih (afterEntry read granted row head) hnodup.2
    rw [withEntries, List.foldl_cons, ← withEntries]
    constructor
    · intro perm hperm
      rw [hkept perm fun entry hentry => hperm entry (List.mem_cons_of_mem _ hentry),
        afterEntry_field_ne hread (Ne.symm (hperm head List.mem_cons_self))]
    · intro entry hentry
      rcases List.mem_cons.mp hentry with rfl | hentry
      · rw [hkept entry.1 fun other hmem heq => hnodup.1 (heq ▸ List.mem_map_of_mem hmem),
          afterEntry_field_self hread]
      · have hne : entry.1 ≠ head.1 := fun heq =>
          hnodup.1 (heq ▸ List.mem_map_of_mem hentry)
        rw [hset entry hentry, isNoop_afterEntry hread hne, afterEntry_field_ne hread hne]

theorem LetThrough.allowed (hread : ∀ fields, read (.obj fields) = fields)
    (hnodup : (entries.map Prod.fst).Nodup)
    (hthrough : LetThrough gate read takes granted row entries) {entry : String × Json}
    (hentry : entry ∈ entries) (hnew : isNoop (read row) entry = false) :
    ∃ state, gate state entry.1 = some true := by
  induction entries generalizing row with
  | nil => exact nomatch hentry
  | cons head rest ih =>
    rw [List.map_cons, List.nodup_cons] at hnodup
    unfold LetThrough at hthrough
    rcases List.mem_cons.mp hentry with rfl | hentry
    · rw [hnew] at hthrough
      exact ⟨row, hthrough.1⟩
    · have hne : entry.1 ≠ head.1 := fun heq => hnodup.1 (heq ▸ List.mem_map_of_mem hentry)
      have hlater : isNoop (read (afterEntry read granted row head)) entry = false := by
        rw [isNoop_afterEntry hread hne, hnew]
      refine @ih (afterEntry read granted row head) hnodup.2 ?_ hentry hlater
      unfold afterEntry
      split at hthrough
      next hnoop =>
        rw [if_pos hnoop]
        exact hthrough
      next hnoop =>
        rw [if_neg hnoop]
        exact hthrough.2.2

theorem withEntries_updated {holds : Json → Json → Prop}
    (hread : ∀ fields, read (.obj fields) = fields)
    (hequal : ∀ stored value, value.truthy → stored.pyEq value → holds stored value)
    (hgranted : ∀ value, value.truthy → holds (granted value) value)
    (hnodup : (entries.map Prod.fst).Nodup) :
    Updated holds entries (read row) (read (withEntries read granted row entries)) := by
  obtain ⟨hkept, hset⟩ := @withEntries_field read granted entries row hread hnodup
  refine ⟨hkept, fun entry hentry htrue => ?_, fun entry hentry hfalse => ?_⟩
  · rw [hset entry hentry, htrue, if_pos rfl]
    by_cases hnoop : isNoop (read row) entry
    · rw [if_pos hnoop]
      simp only [isNoop, htrue, if_true] at hnoop
      cases hfield : (read row).field entry.1 with
      | none =>
        rw [hfield, Option.getD_none] at hnoop
        have hbool := Json.truthy_of_pyEq hnoop
        rw [htrue] at hbool
        cases hbool
      | some stored =>
        rw [hfield, Option.getD_some] at hnoop
        exact ⟨stored, rfl, hequal stored entry.2 htrue hnoop⟩
    · rw [if_neg hnoop]
      exact ⟨_, rfl, hgranted entry.2 htrue⟩
  · rw [JsonFields.isSet, hset entry hentry, hfalse, if_neg Bool.false_ne_true]
    by_cases hnoop : isNoop (read row) entry
    · rw [if_pos hnoop]
      simp only [isNoop, hfalse, if_false, Bool.false_eq_true] at hnoop
      cases hfield : (read row).field entry.1 with
      | none => rfl
      | some stored =>
        rw [hfield, Option.getD_some] at hnoop
        simpa using hnoop
    · rw [if_neg hnoop]
      rfl

end

/-! ### Both setters -/

variable (protection configured : Protection) (requester : Requester) (submitted : Submitted)
  (stored : Json) (loads : String → Option Json)

def memberWith (entries : List (String × Json)) : Json :=
  withEntries memberDict (fun _ => .bool true) stored entries

def MemberThrough (entries : List (String × Json)) : Prop :=
  LetThrough (memberGate protection requester) memberDict isDict (fun _ => .bool true) stored entries

/-- Nothing is written before an entry that is refused; and where all entries are let
through, those that change the row are allowed before any of them is written. -/
structure Ordered : Prop where
  refused : ∀ before entry after, submitted.entries = before ++ entry :: after →
    MemberThrough protection requester stored before →
    isNoop (memberDict (memberWith stored before)) entry = false →
    memberGate protection requester (memberWith stored before) entry.1 = some false →
    memberWith stored before = stored
  allowed : MemberThrough protection requester stored submitted.entries →
    ∀ entry ∈ submitted.entries,
      (memberDict (memberWith stored submitted.entries)).field entry.1 ≠
        (memberDict stored).field entry.1 →
      memberGate protection requester stored entry.1 = some true

theorem memberSetPermissions_iff :
    AllOrNothing memberDict (fun found _ => found.truthy) (memberGate protection requester stored)
      submitted stored (memberSetPermissions protection requester submitted stored) ↔
    Ordered protection requester submitted stored := by
  have hdone : (memberSetPermissions protection requester submitted stored).1 = .done ↔
      MemberThrough protection requester stored submitted.entries := setPermissions_done_iff
  have hrow (hthrough : MemberThrough protection requester stored submitted.entries) :
      (memberSetPermissions protection requester submitted stored).2 =
        memberWith stored submitted.entries := setPermissions_of_letThrough hthrough
  constructor
  · intro hall
    refine ⟨fun before entry after hsplit hthrough hnoop hgate => ?_, fun hthrough => ?_⟩
    · have hdenied : memberSetPermissions protection requester submitted stored =
          (.denied, memberWith stored before) :=
        setPermissions_denied_iff.mpr ⟨before, entry, after, hsplit, hthrough, rfl, hnoop, hgate⟩
      have hsame := hall.denied (by rw [hdenied])
      rwa [hdenied] at hsame
    · have hchanged := (hall.done (hdone.mpr hthrough)).2
      rwa [hrow hthrough] at hchanged
  · intro hordered
    refine ⟨fun hdenied => ?_, fun hfinished => ?_⟩
    · obtain ⟨before, entry, after, hsplit, hthrough, hlast, hnoop, hgate⟩ :=
        setPermissions_denied_iff.mp (Prod.ext hdenied rfl)
      have hsame := hordered.refused before entry after hsplit hthrough
        (by rw [← hnoop, hlast]; rfl) (by rw [← hgate, hlast]; rfl)
      exact hlast.trans hsame
    · have hthrough := hdone.mp hfinished
      rw [hrow hthrough]
      refine ⟨withEntries_updated (fun _ => rfl) (fun found value htrue hequal => ?_)
        (fun _ _ => rfl) submitted.nodup, hordered.allowed hthrough⟩
      rw [Json.truthy_of_pyEq hequal, htrue]

theorem keySetPermissions_allOrNothing :
    AllOrNothing (keyDict loads) (fun found value => found = value ∨ found.pyEq value)
      (keyGate configured requester) submitted stored
      (keySetPermissions loads configured requester submitted stored) := by
  unfold keySetPermissions
  generalize hresult : setPermissions (fun _ => keyGate configured requester) (keyDict loads)
    (fun _ => true) id submitted.entries stored = result
  obtain ⟨outcome, row⟩ := result
  cases outcome with
  | denied => exact ⟨fun _ => rfl, nofun⟩
  | raised => exact ⟨nofun, nofun⟩
  | done =>
    have hdone := congrArg Prod.fst hresult
    have hthrough := setPermissions_done_iff.mp hdone
    have hrow : row = withEntries (keyDict loads) id stored submitted.entries := by
      rw [← setPermissions_of_letThrough hthrough, hresult]
    refine ⟨nofun, fun _ => ?_⟩
    rw [hrow]
    refine ⟨withEntries_updated (fun _ => rfl) (fun _ _ _ hequal => .inr hequal)
      (fun _ _ => .inl rfl) submitted.nodup, fun entry hentry hchanged => ?_⟩
    have hnew : isNoop (keyDict loads stored) entry = false := by
      by_contra hnoop
      rw [(withEntries_field (fun _ => rfl) submitted.nodup).2 entry hentry,
        if_pos (by simpa using hnoop)] at hchanged
      exact hchanged rfl
    obtain ⟨_, hallowed⟩ := hthrough.allowed (fun _ => rfl) submitted.nodup hentry hnew
    exact hallowed

/-- Only a holder of `grants` of the user may give `audit`. -/
def auditProtection : Protection := fun perm => if perm = "audit" then some ["sys.grants"] else none

def groupManager : Requester where
  member := .other (.obj [("manage_group", .bool true)])

def twoEntries : Submitted where
  entries := [("reports", .bool true), ("audit", .bool true)]
  nodup := by decide

end DjangoMojo.Account
