import DjangoMojo.Metrics.RangeWalk

/-! # Metric series

Counters of a slug and gauges live under keys that are built from the account and the slug. A
record counts in one bucket of each granularity; a read adds nothing.
-/

namespace DjangoMojo.Metrics

open Foundation

/-! ### Keys -/

/-- `slug.replace(':', '|')`. -/
def normalizeSlug (slug : String) : String :=
  String.ofList (slug.toList.map fun char => if char = ':' then '|' else char)

def generateSlugPrefix (slug account : String) : String :=
  "mets:" ++ account ++ "::" ++ normalizeSlug slug

def generateSlug (slug : String) (wall : Nat) (granularity : Granularity) (account : String) : String :=
  generateSlugPrefix slug account ++ ":" ++ granularity.tag ++ ":" ++ dateSlug granularity wall

def generateValueKey (slug account : String) : String :=
  "mets:" ++ account ++ ":val:" ++ normalizeSlug slug

def tkey (account key : String) : String :=
  if key.toList.head? = some '{' then key else "\x7bmets:" ++ account ++ "\x7d:" ++ key

def counterKey (account slug : String) (granularity : Granularity) (wall : Nat) : String :=
  tkey account (generateSlug slug wall granularity account)

def gaugeKey (account slug : String) : String := tkey account (generateValueKey slug account)

/-! ### The store -/

inductive Entry where
  | number (value : Int)
  | text (value : String)
  deriving DecidableEq

abbrev Store := String → Option Entry

namespace Store

def write (store : Store) (key : String) (entry : Entry) : Store :=
  fun other => if other = key then some entry else store other

@[simp] theorem write_self (store : Store) (key : String) (entry : Entry) :
    store.write key entry key = some entry := if_pos rfl

theorem write_of_ne {store : Store} {key other : String} (hne : other ≠ key) (entry : Entry) :
    store.write key entry other = store other := if_neg hne

/-- `INCRBY`, which leaves a key alone that has no number. -/
def increment (store : Store) (key : String) (count : Int) : Store :=
  match store key with
  | none => store.write key (.number count)
  | some (.number value) => store.write key (.number (value + count))
  | some (.text value) =>
    match value.toInt? with
    | some value => store.write key (.number (value + count))
    | none => store

theorem increment_of_ne {store : Store} {key other : String} (hne : other ≠ key) (count : Int) :
    store.increment key count other = store other := by
  rw [increment]
  cases store key with
  | none => exact write_of_ne hne _
  | some entry =>
    cases entry with
    | number value => exact write_of_ne hne _
    | text value =>
      dsimp only
      cases value.toInt? with
      | none => rfl
      | some value => exact write_of_ne hne _

/-- `int(v) if v is not None else 0`. -/
def count (store : Store) (key : String) : Option Int :=
  match store key with
  | none => some 0
  | some (.number value) => some value
  | some (.text value) => value.toInt?

end Store

/-! ### Calls -/

def allGranularities : List Granularity :=
  [.minutes, .hours, .days, .weeks, .months, .years]

/-- `generate_granularities`, which raises where the order is wrong. -/
def generateGranularities (least greatest : Granularity) : Option (List Granularity) :=
  let low := allGranularities.idxOf least
  let high := allGranularities.idxOf greatest
  if high < low then none else some ((allGranularities.take (high + 1)).drop low)

/-- The arguments of a `record` beside the slug and the account. -/
structure Record where
  time : Aware
  count : Int := 1
  least : Granularity := .hours
  greatest : Granularity := .years

/-- The granularities that a record counts in; one that raises counts in none. -/
def Record.granularities (call : Record) : List Granularity :=
  (generateGranularities call.least call.greatest).getD []

def record (store : Store) (account slug : String) (call : Record) : Store :=
  call.granularities.foldl (fun store granularity =>
    store.increment (counterKey account slug granularity call.time.wall) call.count) store

def recordAll (store : Store) (account slug : String) (calls : List Record) : Store :=
  calls.foldl (fun store call => record store account slug call) store

def setValue (store : Store) (account slug value : String) : Store :=
  store.write (gaugeKey account slug) (.text value)

/-- `str(v)`, or the default. -/
def getValue (store : Store) (account slug : String) : Option String :=
  (store (gaugeKey account slug)).map fun entry =>
    match entry with
    | .number value => toString value
    | .text value => value

/-- What `MATCH` of the Redis scan takes: a pattern and a key. -/
abbrev Glob := String → String → Bool

def deletePattern (account slug : String) : String :=
  tkey account (generateSlugPrefix slug account) ++ "*"

def deleteMetricsSlug (glob : Glob) (store : Store) (account slug : String) : Store :=
  fun key => if glob (deletePattern account slug) key then none else store key

/-! ### Reads -/

/-- `generate_slugs_for_range`, with the tags of the account. -/
def rangeKeys (account slug : String) (granularity : Granularity) (first last : Aware) :
    Option (List String) :=
  (rangeWalls granularity first.offset last.instant first.wall).map fun walls =>
    walls.map fun wall => counterKey account slug granularity wall

/-- `fetch` of one slug; there is no result where it raises. -/
def fetch (store : Store) (now : Aware) (account slug : String) (first last : Option Aware)
    (granularity : Granularity) : Option (List Int) :=
  let slug := if slug = "" then "no_slugs_found" else slug
  (getDateRange now first last granularity).bind fun (first, last) =>
    (rangeKeys account slug granularity first last).bind fun keys => keys.mapM store.count

/-! ### What a key tells -/

theorem toList_colon (head rest : String) :
    (head ++ ":" ++ rest).toList = head.toList ++ ':' :: rest.toList := by
  have hcolon : ":".toList = [':'] := by decide
  rw [String.toList_append, String.toList_append, hcolon, List.append_assoc, List.singleton_append]

theorem toList_colons (head rest : String) :
    (head ++ "::" ++ rest).toList = (head.toList ++ [':']) ++ ':' :: rest.toList := by
  have hcolons : "::".toList = [':', ':'] := by decide
  rw [String.toList_append, String.toList_append, hcolons]
  simp

theorem toList_val (head rest : String) :
    (head ++ ":val:" ++ rest).toList = (head.toList ++ ':' :: ['v', 'a', 'l']) ++ ':' :: rest.toList := by
  have hval : ":val:".toList = [':', 'v', 'a', 'l', ':'] := by decide
  rw [String.toList_append, String.toList_append, hval]
  simp

def accountHead (account : String) : List Char :=
  ("\x7bmets:" ++ account ++ "\x7d:").toList ++ ("mets:" ++ account).toList

theorem accountHead_inj {account other : String} {left right : List Char}
    (hlength : left.length = right.length)
    (heq : accountHead account ++ left = accountHead other ++ right) : account = other := by
  have hhead : ∀ account : String, accountHead account ++ left =
      "\x7bmets:".toList ++ (account.toList ++ ("\x7d:".toList ++ ("mets:".toList ++
        (account.toList ++ left)))) := by
    intro account
    rw [accountHead, String.toList_append, String.toList_append, String.toList_append]
    simp only [List.append_assoc]
  have hother : accountHead other ++ right =
      "\x7bmets:".toList ++ (other.toList ++ ("\x7d:".toList ++ ("mets:".toList ++
        (other.toList ++ right)))) := by
    rw [accountHead, String.toList_append, String.toList_append, String.toList_append]
    simp only [List.append_assoc]
  rw [hhead, hother, List.append_cancel_left_eq] at heq
  have hlengths := congrArg List.length heq
  simp only [List.length_append] at hlengths
  exact String.toList_injective (List.append_inj_left heq (by omega))

theorem tkey_mets (account rest : String) :
    (tkey account ("mets:" ++ rest)).toList = ("\x7bmets:" ++ account ++ "\x7d:").toList ++
      ("mets:" ++ rest).toList := by
  have hhead : ("mets:" ++ rest).toList.head? ≠ some '{' := by
    have hmets : "mets:".toList = ['m', 'e', 't', 's', ':'] := by decide
    rw [String.toList_append, hmets]
    simp
  rw [tkey, if_neg hhead, String.toList_append]

theorem counterKey_toList (account slug : String) (granularity : Granularity) (wall : Nat) :
    (counterKey account slug granularity wall).toList =
      (((accountHead account ++ [':']) ++ ':' :: (normalizeSlug slug).toList) ++
        ':' :: granularity.tag.toList) ++ ':' :: (dateSlug granularity wall).toList := by
  have hkey : generateSlug slug wall granularity account = "mets:" ++ (account ++ "::" ++
      normalizeSlug slug ++ ":" ++ granularity.tag ++ ":" ++ dateSlug granularity wall) := by
    simp only [generateSlug, generateSlugPrefix, String.append_assoc]
  rw [counterKey, hkey, tkey_mets, ← hkey, generateSlug, generateSlugPrefix, toList_colon,
    toList_colon, toList_colons, accountHead]
  simp only [List.append_assoc]

theorem gaugeKey_toList (account slug : String) : (gaugeKey account slug).toList =
    (accountHead account ++ ':' :: ['v', 'a', 'l']) ++ ':' :: (normalizeSlug slug).toList := by
  have hkey : generateValueKey slug account = "mets:" ++ (account ++ ":val:" ++
      normalizeSlug slug) := by
    simp only [generateValueKey, String.append_assoc]
  rw [gaugeKey, hkey, tkey_mets, ← hkey, generateValueKey, toList_val, accountHead]
  simp only [List.append_assoc]

theorem not_mem_normalizeSlug (slug : String) : ':' ∉ (normalizeSlug slug).toList := by
  rw [normalizeSlug, String.toList_ofList, List.mem_map]
  rintro ⟨char, _, heq⟩
  split at heq
  · exact absurd heq (by decide)
  next hne => exact hne heq

theorem not_mem_tag (granularity : Granularity) : ':' ∉ granularity.tag.toList := by
  cases granularity <;> decide

theorem not_mem_dateSlug (granularity : Granularity) (wall : Nat) :
    ':' ∉ (dateSlug granularity wall).toList := by
  have hdigit : ∀ value < 10, digit value ≠ ':' := by decide
  rw [dateSlug, String.toList_append, String.toList_ofList, List.mem_append]
  rintro (hyear | hfield)
  · exact JoinedKeys.not_mem_number (by decide) hyear
  · obtain ⟨field, hmem, hchar⟩ := List.mem_flatMap.mp hfield
    have hlt := fields_lt wall granularity field hmem
    have hmark : field.1 ≠ ':' := by
      rcases fields_mark wall granularity field hmem with hmark | hmark
      · rw [hmark]
        decide
      · rw [hmark]
        decide
    rcases List.mem_cons.mp hchar with heq | hchar
    · exact hmark heq.symm
    · change ':' ∈ [digit (field.2 / 10 ^ 1), digit (field.2 % 10 ^ 1 / 10 ^ 0)] at hchar
      rcases List.mem_pair.mp hchar with heq | heq
      · exact hdigit _ (by omega) heq.symm
      · exact hdigit _ (by omega) heq.symm

theorem counterKey_inj {account other slug known : String} {granularity granularity' : Granularity}
    {wall wall' : Nat}
    (heq : counterKey account slug granularity wall = counterKey other known granularity' wall') :
    account = other ∧ normalizeSlug slug = normalizeSlug known ∧ granularity = granularity' ∧
      dateSlug granularity wall = dateSlug granularity' wall' := by
  have htext := congrArg String.toList heq
  rw [counterKey_toList, counterKey_toList] at htext
  obtain ⟨htext, hdate⟩ := JoinedKeys.last_inj (not_mem_dateSlug _ _) (not_mem_dateSlug _ _) htext
  obtain ⟨htext, htag⟩ := JoinedKeys.last_inj (not_mem_tag _) (not_mem_tag _) htext
  obtain ⟨htext, hslug⟩ := JoinedKeys.last_inj (not_mem_normalizeSlug _) (not_mem_normalizeSlug _)
    htext
  refine ⟨accountHead_inj rfl htext, String.toList_injective hslug, ?_,
    String.toList_injective hdate⟩
  revert htag
  cases granularity <;> cases granularity' <;> decide

theorem gaugeKey_inj {account other slug known : String}
    (heq : gaugeKey account slug = gaugeKey other known) :
    account = other ∧ normalizeSlug slug = normalizeSlug known := by
  have htext := congrArg String.toList heq
  rw [gaugeKey_toList, gaugeKey_toList] at htext
  obtain ⟨htext, hslug⟩ := JoinedKeys.last_inj (not_mem_normalizeSlug _) (not_mem_normalizeSlug _)
    htext
  exact ⟨accountHead_inj rfl htext, String.toList_injective hslug⟩

theorem counterKey_ne_gaugeKey (account slug other known : String) (granularity : Granularity)
    (wall : Nat) : counterKey account slug granularity wall ≠ gaugeKey other known := by
  intro heq
  have htext := congrArg String.toList heq
  rw [counterKey_toList, gaugeKey_toList] at htext
  obtain ⟨htext, -⟩ := JoinedKeys.last_inj (not_mem_dateSlug _ _) (not_mem_normalizeSlug _) htext
  obtain ⟨-, htag⟩ := JoinedKeys.last_inj (not_mem_tag _) (by decide) htext
  revert htag
  cases granularity <;> decide

/-! ### What a call leaves alone -/

theorem record_of_ne {store : Store} {account slug key : String} {call : Record}
    (hkey : ∀ granularity, key ≠ counterKey account slug granularity call.time.wall) :
    record store account slug call key = store key := by
  unfold record
  induction call.granularities generalizing store with
  | nil => rfl
  | cons granularity rest ih =>
    rw [List.foldl_cons, ih]
    exact Store.increment_of_ne (hkey granularity) call.count

end DjangoMojo.Metrics
