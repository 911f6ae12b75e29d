import DjangoMojo.Foundation.Checks
import DjangoMojo.Foundation.Json
import DjangoMojo.Foundation.Markers
import Mathlib.Algebra.BigOperators.Group.Finset.Basic
import Mathlib.Tactic.Ring

/-! # Stat chips

A list is narrowed by the parameters of its request, by the default filters that they do
not replace, by a search and by a range of dates. A chip counts the rows of that list that
also meet a bundle of parameters, which clicking it adds to the request.
-/

namespace DjangoMojo.Rest.StatChips

open Foundation
open scoped BigOperators

inductive Operand where
  | plain (value : Json)
  | time (instant : Int)

abbrev Conditions := List (String × Operand)

/-- What the language and the date helpers make of a value. -/
structure Readers where
  int : Json → Except String Int
  /-- `str(value).strip().lower()`. -/
  plainText : Json → String
  lower : String → String
  format : Json → String
  /-- `parse_partial_date`, and `partial_date_to_range` of what it finds, in a timezone. -/
  partialRange : Json → Option (Option Json → Except String (Int × Int))
  parseDatetime : Json → Except String Int
  /-- `get_typed(..., bool)`. -/
  asBool : Json → Bool

inductive Column where
  | relation | boolean | date | other
  deriving DecidableEq, Repr

structure Model where
  /-- `__rest_field_names__`. -/
  restFields : List String
  column : String → Option Column
  plain : ∀ name, column name ≠ none → name.toList.getLast? ≠ some '_'
  /-- `hasattr(cls, name)`. -/
  attributes : String → Bool
  /-- `is_sensitive_filter_path`. -/
  sensitive : String → Bool
  /-- `LIST_DEFAULT_FILTERS`. -/
  defaults : Conditions
  grouped : Bool

/-! ### Keys -/

def under : List Char := ['_', '_']

/-- `key.replace(".", "__")`. -/
def dotted (key : String) : String :=
  String.ofList (key.toList.flatMap fun char => if char = '.' then under else [char])

/-- `key.split("__")`. -/
def keyParts (key : String) : List String := (Markers.split under key.toList).map String.ofList

/-- `key.split("__")[0]`. -/
def baseName (key : String) : String := (keyParts key).headD ""

/-- `key.replace(old, new)`. -/
def replaceAll (old new key : String) : String :=
  String.ofList (List.intercalate new.toList (Markers.split old.toList key.toList))

def endsWith (key ending : String) : Bool := ending.toList.isSuffixOf key.toList

def reservedKeys : List String :=
  ["start", "size", "download_format", "dr_start", "dr_end", "limit", "offset"]

def dateComponentLookups : List String :=
  ["year", "iso_year", "month", "day", "week", "week_day", "iso_week_day", "quarter", "hour",
    "minute", "second"]

/-- `value.split(",") if isinstance(value, str) else value`. -/
def commaParts : Json → Json
  | .str text => .arr ((text.toList.splitOn ',').map fun part => .str (String.ofList part))
  | value => value

variable (readers : Readers) (model : Model)

/-- The key and the value that the operator at the end of the key leads to. -/
def operated (key : String) (value : Json) : String × Json :=
  if endsWith key "__in" then (key, commaParts value)
  else if endsWith key "__not_in" then (replaceAll "__not_in" "__in" key, commaParts value)
  else if endsWith key "__not" then (replaceAll "__not" "" key, value)
  else if endsWith key "__isnull" then
    (key, .bool (readers.plainText value ∈ ["true", "1", "yes", "y", "t"]))
  else if value.isText "null" then (key, .null)
  else (key, value)

/-- `normalize_rest_value`, for a lookup of a date's component or another one. -/
def normalizeRestValue (fieldName : String) (value : Json) (component : Bool) :
    Except String Operand :=
  if component then
    match value with
    | .arr items => do
        let numbers ← items.mapM readers.int
        pure (.plain (.arr (numbers.map .int)))
    | _ => do
        let number ← readers.int value
        pure (.plain (.int number))
  else
    match value with
    | .bool _ => pure (.plain value)
    | _ =>
      match model.column fieldName with
      | none => .error "AttributeError"
      | some .boolean =>
        match value with
        | .str text => pure (.plain (.bool (readers.lower text ∈ ["true", "1"])))
        | _ => pure (.plain (.bool value.truthy))
      | some .date =>
        match value with
        | .null => pure (.plain .null)
        | _ => do
            let instant ← readers.parseDatetime value
            pure (.time instant)
      | some _ => pure (.plain value)

/-- A condition that is set on the filters or on the exclusions. -/
structure Assignment where
  exclusion : Bool
  key : String
  value : Operand

/-- The key is passed over, or its name stands for nothing. -/
def ignored (key : String) : Bool :=
  key.toList.head? = some '_' || baseName (dotted key) ∈ reservedKeys ||
    model.sensitive (dotted key) ||
      !(decide (baseName (dotted key) ∈ model.restFields) &&
          model.column (baseName (dotted key)) = some .relation ||
        model.attributes (baseName (dotted key)))

/-- One turn of the loop of `build_rest_filters`. -/
def entryFilters (timezone : Option Json) (key : String) (value : Json) :
    Except String (List Assignment) :=
  if ignored model key then pure []
  else
    let key := dotted key
    let fieldName := baseName key
    let exclusion := endsWith key "__not" || endsWith key "__not_in"
    let (finalKey, operand) := operated readers key value
    if fieldName ∈ model.restFields ∧ model.column fieldName = some .relation then
      pure [⟨exclusion, finalKey, .plain operand⟩]
    else
      let found := if (keyParts key).length = 1 ∧ model.column fieldName = some .date then
        readers.partialRange value else none
      match found with
      | some range => do
          let (start, finish) ← range timezone
          pure [⟨false, fieldName ++ "__gte", .time start⟩,
            ⟨false, fieldName ++ "__lte", .time finish⟩]
      | none => do
          let component := (keyParts finalKey).tail.any fun part => part ∈ dateComponentLookups
          let normalized ← normalizeRestValue readers model fieldName operand component
          pure [⟨exclusion, finalKey, normalized⟩]

/-- `conditions[key] = value`. -/
def assign (conditions : Conditions) (key : String) (value : Operand) : Conditions :=
  if key ∈ conditions.map Prod.fst then
    conditions.map fun entry => if entry.1 = key then (key, value) else entry
  else conditions ++ [(key, value)]

structure Filters where
  filters : Conditions
  excludes : Conditions

namespace Filters

def add (found : Filters) (assignment : Assignment) : Filters :=
  if assignment.exclusion then
    { found with excludes := assign found.excludes assignment.key assignment.value }
  else { found with filters := assign found.filters assignment.key assignment.value }

/-- The fields that are named, as `on_rest_list_default_filters` sees them. -/
def named (found : Filters) : List String :=
  (found.filters ++ found.excludes).map fun entry => baseName entry.1

end Filters

/-- `build_rest_filters`. -/
def buildRestFilters (timezone : Option Json) (params : JsonFields) : Except String Filters := do
  let assignments ← params.mapM fun entry => entryFilters readers model timezone entry.1 entry.2
  pure (assignments.flatten.foldl Filters.add ⟨[], []⟩)

/-! ### Queries -/

abbrev Query (Row : Type) := Row → Nat

/-- How rows meet the conditions of a call of `filter` or `exclude`. -/
structure Lookups (Row : Type) where
  /-- In how many ways a row meets the conditions on one field; in more than one way only
  where the field leads to many rows. -/
  ways : String → Conditions → Row → Nat
  meets : String × Operand → Row → Bool

namespace Lookups

variable {Row : Type} (lookups : Lookups Row)

def onField (conditions : Conditions) (field : String) : Conditions :=
  conditions.filter fun entry => baseName entry.1 = field

/-- In how many ways a row meets the conditions of one call. -/
def allWays (conditions : Conditions) (row : Row) : Nat :=
  ∏ field ∈ (conditions.map fun entry => baseName entry.1).toFinset,
    lookups.ways field (onField conditions field) row

/-- `queryset.filter(**conditions)`. -/
def filter (conditions : Conditions) (query : Query Row) : Query Row :=
  fun row => query row * lookups.allWays conditions row

/-- `queryset.exclude(**conditions)`. -/
def exclude (conditions : Conditions) (query : Query Row) : Query Row :=
  fun row => if conditions.all fun entry => lookups.meets entry row then 0 else query row

/-- `filter`, then `exclude` where something is excluded. -/
def narrow (found : Filters) (query : Query Row) : Query Row :=
  if found.excludes = [] then lookups.filter found.filters query
  else lookups.exclude found.excludes (lookups.filter found.filters query)

end Lookups

/-! ### Requests -/

structure Request (Row : Type) where
  /-- `request.GET`. -/
  params : JsonFields
  /-- `request.DATA`. -/
  data : JsonFields
  /-- The rows that the permissions and the group of the request leave. -/
  scope : Query Row
  /-- `request.group`, as its timezone. -/
  group : Option Json

def together (first second : JsonFields) : JsonFields :=
  first.filter (fun entry => entry.1 ∉ second.map Prod.fst) ++ second

namespace Request

variable {Row : Type} (request : Request Row)

def click (bundle : JsonFields) : Request Row :=
  { request with
    params := together request.params bundle
    data := together request.data bundle }

/-- `request.QUERY_PARAMS`: a group that the request was bound to is no filter. -/
def queryParams : JsonFields :=
  if request.group.isSome && model.grouped then request.params.pop "group" else request.params

/-- `_resolve_filter_timezone`. -/
def timezone : Option Json :=
  (request.data.field "timezone").filter Json.truthy <|> request.group.filter Json.truthy

end Request

variable {Row : Type} (lookups : Lookups Row) (search : Option Json → Row → Nat)

def appliedDefaults (request : Request Row) (found : Filters) : Conditions :=
  if (request.data.field "_no_defaults").any readers.asBool then []
  else model.defaults.filter fun entry => baseName entry.1 ∉ found.named

/-- `on_rest_list_filter`, with the search of the request. -/
def listFilter (request : Request Row) : Except String (Query Row) := do
  let found ← buildRestFilters readers model request.timezone (request.queryParams model)
  let query := lookups.filter (appliedDefaults readers model request found) request.scope
  pure (lookups.narrow found fun row => query row * search (request.data.field "search") row)

/-- An end of the range of dates, unless it is not given. The time of a group is the same
instant. -/
def rangeEnd (request : Request Row) (name : String) (pick : Int × Int → Int) :
    Except String (Option Int) :=
  match request.data.field name with
  | none => pure none
  | some value =>
    if !value.truthy then pure none
    else
      match readers.partialRange value with
      | some range => do
          let ends ← range request.timezone
          pure (some (pick ends))
      | none => do
          let instant ← readers.parseDatetime value
          pure (some instant)

/-- `on_rest_list_date_range_filter`. -/
def dateRangeFilter (request : Request Row) (query : Query Row) : Except String (Query Row) := do
  let field := (request.data.field "dr_field").elim "created" readers.format
  let start ← rangeEnd readers request "dr_start" Prod.fst
  let finish ← rangeEnd readers request "dr_end" Prod.snd
  let afterStart := match start with
    | none => query
    | some instant => lookups.filter [(field ++ "__gte", .time instant)] query
  pure (match finish with
    | none => afterStart
    | some instant => lookups.filter [(field ++ "__lte", .time instant)] afterStart)

/-- The query of `on_rest_list`. -/
def listQuery (request : Request Row) : Except String (Query Row) := do
  let query ← listFilter readers model lookups search request
  dateRangeFilter readers lookups request query

/-- `queryset.count()`. -/
def count (rows : List Row) (query : Query Row) : Nat := (rows.map query).sum

def listCount (rows : List Row) (request : Request Row) : Except String Nat := do
  let query ← listQuery readers model lookups search request
  pure (count rows query)

/-- The count of one bundle, as `_count_bundles` finds it; a bundle that fails has none. -/
def bundleCount (rows : List Row) (request : Request Row) (bundle : JsonFields) :
    Except String (Option Nat) := do
  let query ← listQuery readers model lookups search request
  match buildRestFilters readers model request.timezone bundle with
  | .error _ => pure none
  | .ok found => pure (some (count rows (lookups.narrow found query)))

/-! ### Keys and fields -/

theorem keyParts_single {key : String} (hsingle : (keyParts key).length = 1) :
    ¬ under <:+: key.toList ∧ baseName key = key := by
  rw [keyParts, List.length_map] at hsingle
  obtain ⟨part, hpart⟩ := List.length_eq_one_iff.mp hsingle
  obtain ⟨hbreak, rfl⟩ := (Markers.splitFrom_eq_singleton_iff le_rfl).mp hpart
  refine ⟨(Markers.breakOn_eq_none_iff (by decide)).mp hbreak, ?_⟩
  rw [baseName, keyParts, hpart]
  exact String.ofList_toList

theorem baseName_append {name : String} (hplain : ¬ under <:+: name.toList)
    (hlast : name.toList.getLast? ≠ some '_') (lookup : String) :
    baseName (name ++ "__" ++ lookup) = name := by
  have hbreak : Markers.breakOn under (name.toList ++ under ++ lookup.toList) =
      some (name.toList, lookup.toList) := by
    refine (Markers.breakOn_append_iff (by decide) _ _).mpr fun hinfix => ?_
    rcases List.infix_concat_iff.mp hinfix with hends | hinside
    · obtain ⟨before, hbefore⟩ := hends
      have hfront : before ++ ['_'] = name.toList :=
        (List.append_inj' (by simpa [under] using hbefore) rfl).1
      exact hlast (by rw [← hfront, List.getLast?_concat])
    · exact hplain hinside
  have htext : (name ++ "__" ++ lookup).toList = name.toList ++ under ++ lookup.toList := by
    rw [String.toList_append, String.toList_append]
    rfl
  have hlength : (name ++ "__" ++ lookup).toList.length =
      (name.toList.length + 1 + lookup.toList.length) + 1 := by
    rw [htext, List.length_append, List.length_append]
    change _ + 2 + _ = _
    omega
  rw [baseName, keyParts, Markers.split, hlength, Markers.splitFrom, htext, hbreak]
  exact String.ofList_toList

/-- The key that a parameter is filtered by, which its value does not decide. -/
def finalKey (key : String) : String :=
  if endsWith key "__in" then key
  else if endsWith key "__not_in" then replaceAll "__not_in" "__in" key
  else if endsWith key "__not" then replaceAll "__not" "" key
  else key

variable {readers model}

theorem operated_key (key : String) (value : Json) :
    (operated readers key value).1 = finalKey key := by
  unfold operated finalKey
  split
  next => rfl
  next =>
    split
    next => rfl
    next =>
      split
      next => rfl
      next =>
        split
        next => rfl
        next => split <;> rfl

theorem finalKey_single {key : String} (hplain : ¬ under <:+: key.toList) : finalKey key = key := by
  have hending (ending : String) (hunder : under <+: ending.toList) :
      endsWith key ending = false := by
    rw [endsWith, Bool.eq_false_iff, ne_eq, List.isSuffixOf_iff_suffix]
    exact fun hends => hplain (hunder.isInfix.trans hends.isInfix)
  rw [finalKey, hending "__in" (by decide), hending "__not_in" (by decide),
    hending "__not" (by decide)]
  rfl

theorem entryFilters_ok {timezone : Option Json} {key : String} {value : Json}
    {found : List Assignment} (hok : entryFilters readers model timezone key value = .ok found) :
    if ignored model key then found = []
    else found ≠ [] ∧ ∀ assignment ∈ found,
      baseName assignment.key = baseName (finalKey (dotted key)) := by
  have hone (exclusion : Bool) (operand : Operand) :
      [(⟨exclusion, (operated readers (dotted key) value).1, operand⟩ : Assignment)] ≠ [] ∧
        ∀ assignment ∈ [(⟨exclusion, (operated readers (dotted key) value).1, operand⟩ :
          Assignment)], baseName assignment.key = baseName (finalKey (dotted key)) := by
    refine ⟨List.cons_ne_nil _ _, fun assignment hassignment => ?_⟩
    rw [List.mem_singleton.mp hassignment]
    exact congrArg baseName (operated_key _ _)
  unfold entryFilters at hok
  split at hok
  next hignored =>
    rw [if_pos hignored]
    exact (pure_ok.mp hok).symm
  next hkept =>
    rw [if_neg hkept]
    dsimp only at hok
    split at hok
    next =>
      rw [← pure_ok.mp hok]
      exact hone _ _
    next =>
      split at hok
      next range hrange =>
        split at hrange
        next hdate =>
          obtain ⟨hplain, hbase⟩ := keyParts_single hdate.1
          have hlast := model.plain (baseName (dotted key)) (by rw [hdate.2]; exact nofun)
          rw [hbase] at hlast
          simp only [bind_ok, pure_ok] at hok
          obtain ⟨ends, _, rfl⟩ := hok
          refine ⟨List.cons_ne_nil _ _, fun assignment hassignment => ?_⟩
          rw [finalKey_single hplain, hbase]
          have hgte : dotted key ++ "__gte" = dotted key ++ "__" ++ "gte" := by
            rw [String.append_assoc]
            rfl
          have hlte : dotted key ++ "__lte" = dotted key ++ "__" ++ "lte" := by
            rw [String.append_assoc]
            rfl
          simp only [hbase, List.mem_cons, List.not_mem_nil, or_false] at hassignment
          rcases hassignment with rfl | rfl
          · rw [hgte]
            exact baseName_append hplain hlast _
          · rw [hlte]
            exact baseName_append hplain hlast _
        next => cases hrange
      next =>
        simp only [bind_ok, pure_ok] at hok
        obtain ⟨normalized, _, rfl⟩ := hok
        exact hone _ _

/-! ### Filters of two sets of parameters -/

theorem keys_assign (conditions : Conditions) (key : String) (value : Operand) :
    (assign conditions key value).map Prod.fst =
      if key ∈ conditions.map Prod.fst then conditions.map Prod.fst
      else conditions.map Prod.fst ++ [key] := by
  unfold assign
  split
  next =>
    rw [List.map_map]
    refine List.map_congr_left fun entry _ => ?_
    dsimp only [Function.comp]
    split
    next heq => exact heq.symm
    next => rfl
  next => rw [List.map_append, List.map_singleton]

theorem assign_append {first second : Conditions} {key : String} (value : Operand)
    (hfree : key ∉ first.map Prod.fst) :
    assign (first ++ second) key value = first ++ assign second key value := by
  have hfirst : (first.map fun entry => if entry.1 = key then (key, value) else entry) = first := by
    refine (List.map_congr_left fun entry hentry => if_neg fun heq => hfree ?_).trans
      (List.map_id first)
    exact heq ▸ List.mem_map_of_mem hentry
  unfold assign
  by_cases hsecond : key ∈ second.map Prod.fst
  · rw [if_pos hsecond, if_pos (by rw [List.map_append]; exact List.mem_append_right _ hsecond),
      List.map_append, hfirst]
  · have hboth : key ∉ (first ++ second).map Prod.fst := by
      rw [List.map_append, List.mem_append]
      exact not_or.mpr ⟨hfree, hsecond⟩
    rw [if_neg hsecond, if_neg hboth, List.append_assoc]

namespace Filters

def keys (found : Filters) : List String :=
  found.filters.map Prod.fst ++ found.excludes.map Prod.fst

theorem named_eq (found : Filters) : found.named = found.keys.map baseName := by
  rw [named, keys, List.map_append, List.map_append, List.map_map, List.map_map]
  rfl

def join (first second : Filters) : Filters :=
  ⟨first.filters ++ second.filters, first.excludes ++ second.excludes⟩

theorem mem_named_join {first second : Filters} {field : String} :
    field ∈ (first.join second).named ↔ field ∈ first.named ∨ field ∈ second.named := by
  simp only [named, join, List.map_append, List.mem_append]
  tauto

theorem mem_keys_add {found : Filters} {assignment : Assignment} {key : String} :
    key ∈ (found.add assignment).keys ↔ key ∈ found.keys ∨ key = assignment.key := by
  have hassign (conditions : Conditions) :
      key ∈ (assign conditions assignment.key assignment.value).map Prod.fst ↔
        key ∈ conditions.map Prod.fst ∨ key = assignment.key := by
    rw [keys_assign]
    split
    next hmem => exact ⟨.inl, fun hkey => hkey.elim id fun heq => heq ▸ hmem⟩
    next => rw [List.mem_append, List.mem_singleton]
  unfold keys add
  split
  next => rw [List.mem_append, List.mem_append, hassign, or_assoc]
  next => rw [List.mem_append, List.mem_append, hassign, or_right_comm]

theorem mem_keys_foldl {assignments : List Assignment} {found : Filters} {key : String} :
    key ∈ (assignments.foldl add found).keys ↔
      key ∈ found.keys ∨ ∃ assignment ∈ assignments, key = assignment.key := by
  induction assignments generalizing found with
  | nil => simp
  | cons assignment rest ih =>
    rw [List.foldl_cons, ih, mem_keys_add, List.exists_mem_cons_iff, or_assoc]

theorem add_join {first second : Filters} {assignment : Assignment}
    (hfree : assignment.key ∉ first.keys) :
    (first.join second).add assignment = first.join (second.add assignment) := by
  have hparts := List.mem_append.not.mp hfree
  unfold add join
  split
  next => simp only [assign_append _ (not_or.mp hparts).2]
  next => simp only [assign_append _ (not_or.mp hparts).1]

theorem foldl_join {assignments : List Assignment} {first second : Filters}
    (hfree : ∀ assignment ∈ assignments, assignment.key ∉ first.keys) :
    assignments.foldl add (first.join second) = first.join (assignments.foldl add second) := by
  induction assignments generalizing second with
  | nil => rfl
  | cons assignment rest ih =>
    rw [List.foldl_cons, List.foldl_cons, add_join (hfree assignment List.mem_cons_self)]
    exact ih fun other hother => hfree other (List.mem_cons_of_mem _ hother)

end Filters

theorem mapM_filter_ok {Item Value : Type} {read : Item → Except String (List Value)}
    {keep : Item → Bool} {items : List Item} {found : List (List Value)}
    (hok : items.mapM read = .ok found)
    (hdrop : ∀ item ∈ items, keep item = false → ∀ values, read item = .ok values → values = []) :
    ∃ kept, (items.filter keep).mapM read = .ok kept ∧ kept.flatten = found.flatten := by
  rw [mapM_ok_iff] at hok
  induction hok with
  | nil => exact ⟨[], rfl, rfl⟩
  | @cons item values rest others hread _ ih =>
    obtain ⟨kept, hkept, hflatten⟩ := ih fun other hother =>
      hdrop other (List.mem_cons_of_mem _ hother)
    cases hkeep : keep item with
    | true =>
      refine ⟨values :: kept, ?_, by rw [List.flatten_cons, List.flatten_cons, hflatten]⟩
      rw [List.filter_cons_of_pos hkeep, mapM_ok_iff]
      exact .cons hread (mapM_ok_iff.mp hkept)
    | false =>
      refine ⟨kept, ?_, ?_⟩
      · rw [List.filter_cons_of_neg (by rw [hkeep]; exact Bool.false_ne_true)]
        exact hkept
      · rw [hflatten, List.flatten_cons, hdrop item List.mem_cons_self hkeep values hread,
          List.nil_append]

theorem buildRestFilters_ok {timezone : Option Json} {params : JsonFields} {found : Filters}
    (hok : buildRestFilters readers model timezone params = .ok found) :
    ∃ assignments, params.mapM (fun entry => entryFilters readers model timezone entry.1 entry.2) =
        .ok assignments ∧ assignments.flatten.foldl Filters.add ⟨[], []⟩ = found := by
  simpa only [buildRestFilters, bind_ok, pure_ok] using hok

/-- The fields of a set of parameters are the ones that its keys name, unless they are passed
over. -/
theorem mem_named {timezone : Option Json} {params : JsonFields} {found : Filters}
    (hok : buildRestFilters readers model timezone params = .ok found) {entry : String × Json}
    (hentry : entry ∈ params) (hkept : ignored model entry.1 = false) :
    baseName (finalKey (dotted entry.1)) ∈ found.named := by
  obtain ⟨assignments, hassignments, rfl⟩ := buildRestFilters_ok hok
  obtain ⟨values, hvalues, hread⟩ := mapM_ok_exists hassignments hentry
  have hone := entryFilters_ok hread
  rw [hkept, if_neg Bool.false_ne_true] at hone
  obtain ⟨assignment, hassignment⟩ := List.exists_mem_of_ne_nil values hone.1
  rw [Filters.named_eq, ← hone.2 assignment hassignment]
  refine List.mem_map_of_mem (Filters.mem_keys_foldl.mpr (.inr ⟨assignment, ?_, rfl⟩))
  exact List.mem_flatten.mpr ⟨values, hvalues, hassignment⟩

theorem buildRestFilters_together {timezone : Option Json} {params bundle : JsonFields}
    {first second : Filters} (hfirst : buildRestFilters readers model timezone params = .ok first)
    (hsecond : buildRestFilters readers model timezone bundle = .ok second)
    (hdisjoint : ∀ field ∈ first.named, field ∉ second.named) :
    buildRestFilters readers model timezone (together params bundle) = .ok (first.join second) := by
  obtain ⟨assignments, hassignments, rfl⟩ := buildRestFilters_ok hfirst
  obtain ⟨others, hothers, rfl⟩ := buildRestFilters_ok hsecond
  obtain ⟨kept, hkept, hflatten⟩ := @mapM_filter_ok _ _ _
    (fun entry : String × Json => decide (entry.1 ∉ bundle.map Prod.fst)) _ _ hassignments (by
      intro entry hentry hshared values hread
      have hbundle : entry.1 ∈ bundle.map Prod.fst := by simpa using hshared
      obtain ⟨other, hother, hkey⟩ := List.mem_map.mp hbundle
      have hone := entryFilters_ok hread
      cases hignored : ignored model entry.1 with
      | true =>
        rw [hignored, if_pos rfl] at hone
        exact hone
      | false =>
        refine absurd ?_ (hdisjoint _ (mem_named hfirst hentry hignored))
        rw [← hkey] at hignored ⊢
        exact mem_named hsecond hother hignored)
  have hfree : ∀ assignment ∈ others.flatten,
      assignment.key ∉ (assignments.flatten.foldl Filters.add ⟨[], []⟩).keys := by
    intro assignment hassignment hkey
    refine hdisjoint (baseName assignment.key) ?_ ?_
    · rw [Filters.named_eq]
      exact List.mem_map_of_mem hkey
    · rw [Filters.named_eq]
      exact List.mem_map_of_mem (Filters.mem_keys_foldl.mpr (.inr ⟨assignment, hassignment, rfl⟩))
  have hjoin := @Filters.foldl_join others.flatten _ ⟨[], []⟩ hfree
  unfold buildRestFilters together
  simp only [bind_ok, pure_ok]
  refine ⟨kept ++ others, ?_, ?_⟩
  · rw [mapM_ok_iff]
    exact List.rel_append (mapM_ok_iff.mp hkept) (mapM_ok_iff.mp hothers)
  · rw [List.flatten_append, List.foldl_append, hflatten, ← hjoin]
    simp [Filters.join]

/-! ### Queries of two sets of conditions -/

namespace Lookups

variable {Row : Type} {lookups : Lookups Row}

def fields (conditions : Conditions) : List String := conditions.map fun entry => baseName entry.1

theorem allWays_of_split {whole first second : Conditions}
    (hfields : ∀ field, field ∈ fields whole ↔ field ∈ fields first ∨ field ∈ fields second)
    (hdisjoint : ∀ field ∈ fields first, field ∉ fields second)
    (hfirst : ∀ field ∈ fields first, onField whole field = onField first field)
    (hsecond : ∀ field ∈ fields second, onField whole field = onField second field) (row : Row) :
    lookups.allWays whole row = lookups.allWays first row * lookups.allWays second row := by
  have hunion : (fields whole).toFinset = (fields first).toFinset ∪ (fields second).toFinset := by
    ext field
    simp only [Finset.mem_union, List.mem_toFinset, hfields]
  have hapart : Disjoint (fields first).toFinset (fields second).toFinset := by
    rw [Finset.disjoint_left]
    intro field hone htwo
    exact hdisjoint field (List.mem_toFinset.mp hone) (List.mem_toFinset.mp htwo)
  change ∏ field ∈ (fields whole).toFinset, lookups.ways field (onField whole field) row = _
  rw [hunion, Finset.prod_union hapart]
  congr 1
  · refine Finset.prod_congr rfl fun field hfield => ?_
    rw [hfirst field (List.mem_toFinset.mp hfield)]
  · refine Finset.prod_congr rfl fun field hfield => ?_
    rw [hsecond field (List.mem_toFinset.mp hfield)]

theorem onField_eq_nil {conditions : Conditions} {field : String}
    (hfield : field ∉ fields conditions) : onField conditions field = [] := by
  rw [onField, List.filter_eq_nil_iff]
  intro entry hentry hsame
  exact hfield (List.mem_map.mpr ⟨entry, hentry, of_decide_eq_true hsame⟩)

theorem allWays_append {first second : Conditions}
    (hdisjoint : ∀ field ∈ fields first, field ∉ fields second) (row : Row) :
    lookups.allWays (first ++ second) row =
      lookups.allWays first row * lookups.allWays second row := by
  refine allWays_of_split (fun field => ?_) hdisjoint (fun field hfield => ?_)
    (fun field hfield => ?_) row
  · rw [fields, List.map_append, List.mem_append]
    rfl
  · have hnone := onField_eq_nil (hdisjoint field hfield)
    rw [onField] at hnone
    rw [onField, onField, List.filter_append, hnone, List.append_nil]
  · have hnone := onField_eq_nil fun hother => hdisjoint field hother hfield
    rw [onField] at hnone
    rw [onField, onField, List.filter_append, hnone, List.nil_append]

def only (keep : String → Bool) (conditions : Conditions) : Conditions :=
  conditions.filter fun entry => keep (baseName entry.1)

theorem mem_fields_only {keep : String → Bool} {conditions : Conditions} {field : String} :
    field ∈ fields (only keep conditions) ↔ field ∈ fields conditions ∧ keep field = true := by
  simp only [fields, only, List.mem_map, List.mem_filter]
  constructor
  · rintro ⟨entry, ⟨hentry, hkeep⟩, rfl⟩
    exact ⟨⟨entry, hentry, rfl⟩, hkeep⟩
  · rintro ⟨⟨entry, hentry, rfl⟩, hkeep⟩
    exact ⟨entry, ⟨hentry, hkeep⟩, rfl⟩

theorem onField_only {keep : String → Bool} {field : String} (hkeep : keep field = true)
    (conditions : Conditions) :
    onField (only keep conditions) field = onField conditions field := by
  rw [onField, onField, only, List.filter_filter]
  refine List.filter_congr fun entry _ => ?_
  by_cases hsame : baseName entry.1 = field
  · rw [hsame, hkeep, decide_eq_true rfl]
    rfl
  · rw [decide_eq_false hsame, Bool.false_and]

theorem allWays_only {whole first second : String → Bool}
    (hsplit : ∀ field, whole field = (first field || second field))
    (hdisjoint : ∀ field, first field = true → second field = false) (conditions : Conditions)
    (row : Row) :
    lookups.allWays (only whole conditions) row =
      lookups.allWays (only first conditions) row *
        lookups.allWays (only second conditions) row := by
  refine allWays_of_split (fun field => ?_) (fun field hone htwo => ?_) (fun field hfield => ?_)
    (fun field hfield => ?_) row
  · rw [mem_fields_only, mem_fields_only, mem_fields_only, hsplit, Bool.or_eq_true]
    tauto
  · have hfirst := hdisjoint field (mem_fields_only.mp hone).2
    rw [(mem_fields_only.mp htwo).2] at hfirst
    cases hfirst
  · have hkeep := (mem_fields_only.mp hfield).2
    rw [onField_only (by rw [hsplit, hkeep, Bool.true_or]), onField_only hkeep]
  · have hkeep := (mem_fields_only.mp hfield).2
    rw [onField_only (by rw [hsplit, hkeep, Bool.or_true]), onField_only hkeep]

def excludesAll (lookups : Lookups Row) (found : Filters) (row : Row) : Bool :=
  found.excludes.all fun entry => lookups.meets entry row

def passes (lookups : Lookups Row) (found : Filters) (row : Row) : Nat :=
  if found.excludes ≠ [] ∧ lookups.excludesAll found row then 0
  else lookups.allWays found.filters row

theorem passes_of_kept {found : Filters} {row : Row}
    (hkept : found.excludes = [] ∨ ¬lookups.excludesAll found row) :
    lookups.passes found row = lookups.allWays found.filters row :=
  if_neg fun hboth => hkept.elim hboth.1 fun hmeets => hmeets hboth.2

theorem passes_of_excluded {found : Filters} {row : Row} (hsome : found.excludes ≠ [])
    (hall : lookups.excludesAll found row) : lookups.passes found row = 0 :=
  if_pos ⟨hsome, hall⟩

theorem passes_le (found : Filters) (row : Row) :
    lookups.passes found row ≤ lookups.allWays found.filters row := by
  unfold passes
  split
  next => exact Nat.zero_le _
  next => exact le_rfl

theorem narrow_apply (found : Filters) (query : Query Row) (row : Row) :
    lookups.narrow found query row = query row * lookups.passes found row := by
  unfold narrow
  by_cases hnone : found.excludes = []
  · rw [if_pos hnone, passes_of_kept (.inl hnone)]
    rfl
  · rw [if_neg hnone, exclude]
    split
    next hall => rw [passes_of_excluded hnone hall, Nat.mul_zero]
    next hkept =>
      rw [passes_of_kept (.inr hkept)]
      rfl

/-- Neither set of exclusions leaves the row out where both exclude. -/
def KeptByEach (lookups : Lookups Row) (first second : Filters) (row : Row) : Prop :=
  first.excludes = [] ∨ second.excludes = [] ∨
    ¬lookups.excludesAll first row ∧ ¬lookups.excludesAll second row

theorem excludesAll_join {first second : Filters} {row : Row} :
    lookups.excludesAll (first.join second) row ↔
      lookups.excludesAll first row ∧ lookups.excludesAll second row := by
  rw [excludesAll, Filters.join, List.all_append, Bool.and_eq_true]
  rfl

theorem excludesAll_of_nil {found : Filters} (hnone : found.excludes = []) (row : Row) :
    lookups.excludesAll found row := by
  rw [excludesAll, hnone]
  rfl

theorem allWays_join {first second : Filters}
    (hdisjoint : ∀ field ∈ first.named, field ∉ second.named) (row : Row) :
    lookups.allWays (first.join second).filters row =
      lookups.allWays first.filters row * lookups.allWays second.filters row := by
  refine allWays_append (fun field hone htwo => hdisjoint field ?_ ?_) row
  · rw [Filters.named, List.map_append]
    exact List.mem_append_left _ hone
  · rw [Filters.named, List.map_append]
    exact List.mem_append_left _ htwo

theorem passes_eq_zero_of_join {first second : Filters}
    (hdisjoint : ∀ field ∈ first.named, field ∉ second.named) {row : Row}
    (hjoin : lookups.passes (first.join second) row = 0) :
    lookups.passes first row * lookups.passes second row = 0 := by
  by_cases hkept : (first.join second).excludes = [] ∨
      ¬lookups.excludesAll (first.join second) row
  · rw [passes_of_kept hkept, allWays_join hdisjoint] at hjoin
    exact Nat.le_zero.mp (hjoin ▸ Nat.mul_le_mul (passes_le first row) (passes_le second row))
  · obtain ⟨hsome, hall⟩ := not_or.mp hkept
    obtain ⟨hone, htwo⟩ := excludesAll_join.mp (not_not.mp hall)
    by_cases hfirst : first.excludes = []
    · have hsecond : second.excludes ≠ [] := fun hnone =>
        hsome (List.append_eq_nil_iff.mpr ⟨hfirst, hnone⟩)
      rw [passes_of_excluded hsecond htwo, Nat.mul_zero]
    · rw [passes_of_excluded hfirst hone, Nat.zero_mul]

theorem passes_join {first second : Filters}
    (hdisjoint : ∀ field ∈ first.named, field ∉ second.named) {row : Row}
    (hjoin : lookups.passes (first.join second) row ≠ 0)
    (hkept : lookups.KeptByEach first second row) :
    lookups.passes first row * lookups.passes second row =
      lookups.passes (first.join second) row := by
  have hboth : (first.join second).excludes = [] ∨
      ¬lookups.excludesAll (first.join second) row := by
    by_contra hexcluded
    obtain ⟨hsome, hall⟩ := not_or.mp hexcluded
    exact hjoin (passes_of_excluded hsome (not_not.mp hall))
  have heach : (first.excludes = [] ∨ ¬lookups.excludesAll first row) ∧
      (second.excludes = [] ∨ ¬lookups.excludesAll second row) := by
    rw [excludesAll_join] at hboth
    have hempty : (first.join second).excludes = [] ↔
        first.excludes = [] ∧ second.excludes = [] := List.append_eq_nil_iff
    rcases hkept with hfirst | hsecond | ⟨hfirst, hsecond⟩
    · have hall := @excludesAll_of_nil _ lookups first hfirst row
      tauto
    · have hall := @excludesAll_of_nil _ lookups second hsecond row
      tauto
    · exact ⟨.inr hfirst, .inr hsecond⟩
  rw [passes_of_kept heach.1, passes_of_kept heach.2, passes_of_kept hboth, allWays_join hdisjoint]

end Lookups

/-! ### A chip and the list it leads to -/

def requestKeys : List String :=
  ["search", "dr_field", "dr_start", "dr_end", "timezone", "group", "_no_defaults"]

theorem field_together {first second : JsonFields} {key : String}
    (hkey : key ∉ second.map Prod.fst) : (together first second).field key = first.field key := by
  have hsecond : second.lookup key = none := by
    rw [← JsonFields.field, JsonFields.field_eq_none_iff]
    exact fun entry hentry heq => hkey (heq ▸ List.mem_map_of_mem hentry)
  rw [JsonFields.field, together, List.lookup_append, hsecond, Option.or_none, JsonFields.field]
  induction first with
  | nil => rfl
  | cons entry rest ih =>
    by_cases hshared : entry.1 ∈ second.map Prod.fst
    · have hne : key ≠ entry.1 := fun heq => hkey (heq ▸ hshared)
      rw [List.filter_cons_of_neg (by simpa using hshared), ih, List.lookup_cons,
        beq_false_of_ne hne]
    · rw [List.filter_cons_of_pos (by simpa using hshared), List.lookup_cons, List.lookup_cons,
        ih]

/-- The bundle has none of the parameters that a list reads beside its filters. -/
def FieldsOnly (bundle : JsonFields) : Prop := ∀ key ∈ requestKeys, key ∉ bundle.map Prod.fst

section

variable {Row : Type} {lookups : Lookups Row} {search : Option Json → Row → Nat}
  {request : Request Row} {bundle : JsonFields}

theorem click_field (hfields : FieldsOnly bundle) {key : String} (hkey : key ∈ requestKeys) :
    (request.click bundle).data.field key = request.data.field key :=
  field_together (hfields key hkey)

theorem click_timezone (hfields : FieldsOnly bundle) :
    (request.click bundle).timezone = request.timezone := by
  rw [Request.timezone, Request.timezone, click_field hfields (by decide)]
  rfl

theorem click_queryParams (hfields : FieldsOnly bundle) :
    (request.click bundle).queryParams model = together (request.queryParams model) bundle := by
  have hgroup : bundle.pop "group" = bundle := by
    rw [JsonFields.pop, List.filter_eq_self]
    refine fun entry hentry => decide_eq_true fun heq => ?_
    exact hfields "group" (by decide) (heq ▸ List.mem_map_of_mem hentry)
  unfold Request.queryParams
  split
  next hbound =>
    rw [if_pos (show request.group.isSome && model.grouped from hbound)]
    change (together request.params bundle).pop "group" = _
    rw [JsonFields.pop] at hgroup
    rw [together, together, JsonFields.pop, List.filter_append, hgroup, JsonFields.pop,
      List.filter_filter, List.filter_filter]
    simp only [Bool.and_comm]
  next hfree =>
    rw [if_neg (show ¬(request.group.isSome && model.grouped) from hfree)]
    rfl

theorem dateRangeFilter_ok {query result : Query Row}
    (hok : dateRangeFilter readers lookups request query = .ok result) :
    ∃ weight : Row → Nat, (∀ row, result row = query row * weight row) ∧
      ∀ other, dateRangeFilter readers lookups request other =
        .ok fun row => other row * weight row := by
  unfold dateRangeFilter at hok
  simp only [bind_ok, pure_ok] at hok
  obtain ⟨start, hstart, finish, hfinish, rfl⟩ := hok
  let field := (request.data.field "dr_field").elim "created" readers.format
  let ways (lookup : String) (instant : Option Int) (row : Row) : Nat :=
    instant.elim 1 fun time => lookups.allWays [(field ++ lookup, .time time)] row
  refine ⟨fun row => ways "__gte" start row * ways "__lte" finish row, fun row => ?_,
    fun other => ?_⟩
  · cases start <;> cases finish <;> simp [ways, field, Lookups.filter, Nat.mul_assoc]
  · unfold dateRangeFilter
    simp only [bind_ok, pure_ok]
    refine ⟨start, hstart, finish, hfinish, funext fun row => ?_⟩
    cases start <;> cases finish <;> simp [ways, field, Lookups.filter, Nat.mul_assoc]

theorem listQuery_ok {query : Query Row}
    (hok : listQuery readers model lookups search request = .ok query) :
    ∃ (found : Filters) (weight : Row → Nat),
      buildRestFilters readers model request.timezone (request.queryParams model) = .ok found ∧
      (∀ row, query row = request.scope row *
          lookups.allWays (appliedDefaults readers model request found) row *
          search (request.data.field "search") row * lookups.passes found row * weight row) ∧
      ∀ other, dateRangeFilter readers lookups request other =
        .ok fun row => other row * weight row := by
  unfold listQuery listFilter at hok
  simp only [bind_ok, pure_ok] at hok
  obtain ⟨narrowed, ⟨found, hfound, rfl⟩, hrange⟩ := hok
  obtain ⟨weight, hweight, hall⟩ := dateRangeFilter_ok hrange
  refine ⟨found, weight, hfound, fun row => ?_, hall⟩
  rw [hweight, Lookups.narrow_apply]
  rfl

variable (readers model request)

/-- The default filters that the fields of a bundle replace. -/
def replacedDefaults (second : Filters) : Conditions :=
  if (request.data.field "_no_defaults").any readers.asBool then []
  else Lookups.only (fun field => decide (field ∈ second.named)) model.defaults

variable {readers model request}

theorem appliedDefaults_eq {first second : Filters}
    (hdisjoint : ∀ field ∈ first.named, field ∉ second.named) (row : Row) :
    lookups.allWays (appliedDefaults readers model request first) row =
      lookups.allWays (appliedDefaults readers model request (first.join second)) row *
        lookups.allWays (replacedDefaults readers model request second) row := by
  unfold appliedDefaults replacedDefaults
  split
  next =>
    change _ = _ * (1 : Nat)
    rw [Nat.mul_one]
  next =>
    have hsplit := @Lookups.allWays_only _ lookups
      (fun field => decide (field ∉ first.named))
      (fun field => decide (field ∉ (first.join second).named))
      (fun field => decide (field ∈ second.named)) ?_ ?_ model.defaults row
    · exact hsplit
    · intro field
      have hfield := hdisjoint field
      rw [Bool.eq_iff_iff, Bool.or_eq_true, decide_eq_true_eq, decide_eq_true_eq,
        decide_eq_true_eq, Filters.mem_named_join]
      tauto
    · intro field hnone
      rw [decide_eq_true_eq, Filters.mem_named_join] at hnone
      exact decide_eq_false (not_or.mp hnone).2

end

variable (readers model)

def Apart {Row : Type} (request : Request Row) (bundle : JsonFields) : Prop :=
  ∀ first second,
    buildRestFilters readers model request.timezone (request.queryParams model) = .ok first →
    buildRestFilters readers model request.timezone bundle = .ok second →
    ∀ field ∈ first.named, field ∉ second.named

/-- Each row that the list shows meets, in one way, the default filters that the bundle
replaces, and neither set of exclusions alone leaves it out. -/
def KeepsShown {Row : Type} (lookups : Lookups Row) (search : Option Json → Row → Nat)
    (rows : List Row) (request : Request Row) (bundle : JsonFields) : Prop :=
  ∀ first second query,
    buildRestFilters readers model request.timezone (request.queryParams model) = .ok first →
    buildRestFilters readers model request.timezone bundle = .ok second →
    listQuery readers model lookups search (request.click bundle) = .ok query →
    ∀ row ∈ rows, query row ≠ 0 →
      lookups.allWays (replacedDefaults readers model request second) row = 1 ∧
        lookups.KeptByEach first second row

/-- The chip of a bundle of fields counts the rows of the list that clicking it leads to. -/
theorem bundleCount_eq_listCount {Row : Type} (lookups : Lookups Row)
    (search : Option Json → Row → Nat) (rows : List Row) (request : Request Row)
    (bundle : JsonFields) (chip : Nat) (hapart : Apart readers model request bundle)
    (hfields : FieldsOnly bundle)
    (hshown : KeepsShown readers model lookups search rows request bundle)
    (hchip : bundleCount readers model lookups search rows request bundle = .ok (some chip)) :
    listCount readers model lookups search rows (request.click bundle) = .ok chip := by
  unfold bundleCount at hchip
  simp only [bind_ok] at hchip
  obtain ⟨query, hquery, hbundle⟩ := hchip
  obtain ⟨first, weight, hfirst, hvalues, hrange⟩ := listQuery_ok hquery
  cases hsecond : buildRestFilters readers model request.timezone bundle with
  | error message =>
    rw [hsecond] at hbundle
    cases hbundle
  | ok second =>
    rw [hsecond] at hbundle
    have hcount : count rows (lookups.narrow second query) = chip := by
      simpa only [pure_ok, Option.some.injEq] using hbundle
    have hdisjoint := hapart first second hfirst hsecond
    let shown : Query Row := fun row => request.scope row *
      lookups.allWays (appliedDefaults readers model request (first.join second)) row *
      search (request.data.field "search") row * lookups.passes (first.join second) row *
      weight row
    have hlist : listQuery readers model lookups search (request.click bundle) = .ok shown := by
      have hjoin := buildRestFilters_together hfirst hsecond hdisjoint
      have hdefaults : appliedDefaults readers model (request.click bundle)
          (first.join second) = appliedDefaults readers model request (first.join second) := by
        unfold appliedDefaults
        rw [click_field hfields (by decide)]
      have hrangeClick (other : Query Row) :
          dateRangeFilter readers lookups (request.click bundle) other =
            .ok fun row => other row * weight row := by
        rw [← hrange other]
        unfold dateRangeFilter rangeEnd
        rw [click_field hfields (by decide), click_field hfields (by decide),
          click_field hfields (by decide), click_timezone hfields]
      unfold listQuery listFilter
      simp only [bind_ok, pure_ok]
      refine ⟨_, ⟨first.join second, ?_, rfl⟩, ?_⟩
      · rw [click_timezone hfields, click_queryParams hfields]
        exact hjoin
      · rw [hrangeClick, hdefaults, click_field hfields (by decide)]
        congr 1
        funext row
        rw [Lookups.narrow_apply]
        rfl
    unfold listCount
    simp only [bind_ok, pure_ok]
    refine ⟨shown, hlist, ?_⟩
    rw [← hcount, count, count]
    congr 1
    refine List.map_congr_left fun row hrow => ?_
    have hdefaults := @appliedDefaults_eq readers model Row lookups request _ _ hdisjoint row
    rw [Lookups.narrow_apply, hvalues, hdefaults]
    by_cases hzero : shown row = 0
    · -- What the list leaves out, the chip leaves out too.
      rw [hzero]
      simp only [shown, Nat.mul_eq_zero] at hzero
      have hpasses := @Lookups.passes_eq_zero_of_join _ lookups _ _ hdisjoint row
      simp only [Nat.mul_eq_zero] at hpasses
      symm
      simp only [Nat.mul_eq_zero]
      tauto
    · obtain ⟨hone, hkept⟩ := hshown first second shown hfirst hsecond hlist row hrow hzero
      have hjoin : lookups.passes (first.join second) row ≠ 0 := by
        intro hnone
        apply hzero
        simp only [shown, hnone, Nat.mul_zero, Nat.zero_mul]
      have hpasses := Lookups.passes_join hdisjoint hjoin hkept
      simp only [shown]
      rw [hone, Nat.mul_one, ← hpasses]
      ring

/-! ### Notifications -/

def noticeReaders : Readers where
  int value := match value with
    | .int number => .ok number
    | _ => .error "ValueError"
  plainText value := match value with
    | .str text => text
    | _ => ""
  lower := id
  format value := match value with
    | .str text => text
    | _ => ""
  partialRange _ := none
  parseDatetime _ := .error "ValueError"
  asBool := Json.truthy

/-- Notifications are unread or read, and of a kind; a list shows the unread ones. -/
def noticeModel : Model where
  restFields := ["is_unread", "kind"]
  column name :=
    if name = "is_unread" then some .boolean else if name = "kind" then some .other else none
  plain name hname := by
    by_cases hunread : name = "is_unread"
    · subst hunread
      decide
    · by_cases hkind : name = "kind"
      · subst hkind
        decide
      · simp [hunread, hkind] at hname
  attributes name := name ∈ ["is_unread", "kind"]
  sensitive _ := false
  defaults := [("is_unread", .plain (.bool true))]
  grouped := false

def noticeMeets (entry : String × Operand) (row : Bool × String) : Bool :=
  match entry.2 with
  | .plain (.bool value) => entry.1 = "is_unread" && row.1 = value
  | .plain (.str text) => entry.1 = "kind" && row.2 = text
  | _ => false

def noticeLookups : Lookups (Bool × String) where
  ways _ conditions row := if conditions.all fun entry => noticeMeets entry row then 1 else 0
  meets := noticeMeets

def noticeSearch : Option Json → Bool × String → Nat
  | some (.str text), row => if row.2 = text then 1 else 0
  | _, _ => 1

def noticeRows : List (Bool × String) := [(true, "login"), (false, "login"), (true, "job")]

def noticeRequest : Request (Bool × String) where
  params := [("_mode", .str "count")]
  data := [("_mode", .str "count")]
  scope _ := 1
  group := none

theorem noticeFilters : buildRestFilters noticeReaders noticeModel none
    (noticeRequest.queryParams noticeModel) = .ok ⟨[], []⟩ := by rfl

theorem kindFilters : buildRestFilters noticeReaders noticeModel none [("kind", .str "login")] =
    .ok ⟨[("kind", .plain (.str "login"))], []⟩ := by rfl

theorem kindChip_counts :
    listCount noticeReaders noticeModel noticeLookups noticeSearch noticeRows
      (noticeRequest.click [("kind", .str "login")]) = .ok 1 := by
  refine bundleCount_eq_listCount noticeReaders noticeModel noticeLookups noticeSearch noticeRows
    noticeRequest [("kind", .str "login")] 1 ?_ ?_ ?_ (by rfl)
  · intro first second hfirst _ field hfield
    have hnone := noticeFilters.symm.trans hfirst
    cases hnone
    cases hfield
  · unfold FieldsOnly
    decide
  · intro first second query hfirst hsecond _ row _ _
    have hnone := noticeFilters.symm.trans hfirst
    have hkind := kindFilters.symm.trans hsecond
    cases hnone
    cases hkind
    exact ⟨by rfl, .inl rfl⟩

/-- A search inside a bundle has no effect on its chip. -/
theorem searchChip_counts_all : ¬∀ (readers : Readers) (model : Model) (Row : Type)
    (lookups : Lookups Row) (search : Option Json → Row → Nat) (rows : List Row)
    (request : Request Row) (bundle : JsonFields) (chip : Nat),
    Apart readers model request bundle →
    bundleCount readers model lookups search rows request bundle = .ok (some chip) →
    listCount readers model lookups search rows (request.click bundle) = .ok chip := by
  intro hall
  have hlist := hall noticeReaders noticeModel (Bool × String) noticeLookups noticeSearch
    noticeRows noticeRequest [("search", .str "login")] 2 (by
      intro first second hfirst _ field hfield
      have hnone := noticeFilters.symm.trans hfirst
      cases hnone
      cases hfield) (by rfl)
  have hone : listCount noticeReaders noticeModel noticeLookups noticeSearch noticeRows
      (noticeRequest.click [("search", .str "login")]) = .ok 1 := by rfl
  rw [hone] at hlist
  cases hlist

end DjangoMojo.Rest.StatChips
