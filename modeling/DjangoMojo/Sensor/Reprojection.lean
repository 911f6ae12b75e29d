import DjangoMojo.Sensor.EvidenceBounds

/-! # Evidence that is built again

Before it is stored, and once a firewall operation is proven, the evidence of a sudo command
is built again from what was built before. The second pass keeps every field that is allowed
and drops the marks, since they are no fields of the kind; a text that is empty is dropped
too. It changes nothing exactly when the first pass has marked nothing and kept no empty text.
-/

namespace DjangoMojo.Sensor

open Foundation

/-! ### Evidence as values -/

mutual

/-- A value that was built, as it is read by the second pass. -/
def EvidenceValue.ofJson : Json → EvidenceValue
  | .null => .none
  | .bool value => .bool value
  | .int value => .int value
  | .float shown => .float shown true
  | .str value => .text (.ofString value)
  | .arr items => .list (ofItems items)
  | .obj fields => .dict (ofFields fields)

def EvidenceValue.ofItems : List Json → List EvidenceValue
  | [] => []
  | item :: rest => ofJson item :: ofItems rest

def EvidenceValue.ofFields : List (String × Json) → List (String × EvidenceValue)
  | [] => []
  | (key, value) :: rest => (key, ofJson value) :: ofFields rest

end

def evidenceValues (evidence : JsonFields) : EvidenceValues := fun key =>
  (evidence.field key).map EvidenceValue.ofJson

def SameFields (first second : JsonFields) : Prop := ∀ key, first.field key = second.field key

mutual

def noEmptyText : Json → Bool
  | .str value => value ≠ ""
  | .arr items => noEmptyItem items
  | .obj fields => noEmptyField fields
  | _ => true

def noEmptyItem : List Json → Bool
  | [] => true
  | item :: rest => noEmptyText item && noEmptyItem rest

def noEmptyField : List (String × Json) → Bool
  | [] => true
  | (_, value) :: rest => noEmptyText value && noEmptyField rest

end

/-- The statement that the store makes of an observation before it goes on. -/
def EvidenceTools.reproject (tools : EvidenceTools) (observation : Observation) :
    Except String Observation :=
  if observation.kind = sudoCommandKind then do
    let attributes ← tools.buildEvidence observation.kind (evidenceValues observation.attributes)
    return { observation with attributes := attributes }
  else .ok observation

/-! ### When nothing is lost -/

/-- The turn of the field loses nothing that the second pass would miss: a text is not empty, is
within its limit and fits whole, or not even its marks fit; and no text in a list that fits is
empty. -/
def Settled (tools : EvidenceTools) (values : EvidenceValues) (before : JsonFields)
    (policy : FieldPolicy) : Prop :=
  ∀ value, values.given policy.1 = some value →
    (∀ json, value.listValue policy.1 = some json →
      fits (before.set policy.1 json) = true → noEmptyText json = true) ∧
    (value.listValue policy.1 = none → ∀ limit, policy.2 = some limit →
      let text := (tools.safeText value).toList
      let whole := byteLength text ≤ limit ∧ fits (tools.withPrefix before policy.1 text text) = true
      whole ∧ text ≠ [] ∨ ¬ whole ∧ tools.Unmarkable before policy.1 text)

/-! ### Nodes and lists -/

namespace EvidenceValue

theorem ofItems_eq (items : List Json) : ofItems items = items.map ofJson := by
  induction items with
  | nil => rfl
  | cons item rest ih => rw [ofItems, ih, List.map_cons]

theorem lookup_ofFields (fields : List (String × Json)) (key : String) :
    (ofFields fields).lookup key = (fields.lookup key).map ofJson := by
  induction fields with
  | nil => rfl
  | cons field rest ih =>
    rw [ofFields, List.lookup_cons, List.lookup_cons, ih]
    split <;> rfl

end EvidenceValue

theorem noEmptyItem_iff {items : List Json} :
    noEmptyItem items = true ↔ ∀ item ∈ items, noEmptyText item = true := by
  induction items with
  | nil => simp [noEmptyItem]
  | cons item rest ih => rw [noEmptyItem, Bool.and_eq_true, ih, List.forall_mem_cons]

theorem noEmptyField_iff {fields : List (String × Json)} :
    noEmptyField fields = true ↔ ∀ field ∈ fields, noEmptyText field.2 = true := by
  induction fields with
  | nil => simp [noEmptyField]
  | cons field rest ih => rw [noEmptyField, Bool.and_eq_true, ih, List.forall_mem_cons]

/-- What the second pass keeps of an item: a text that is not empty, a node without its empty
texts. -/
def againItem : Json → Option Json
  | .obj fields => some (.obj (fields.filter fun field => noEmptyText field.2))
  | item => if noEmptyText item then some item else none

def again : Json → Option Json
  | .arr items => some (.arr (items.filterMap againItem))
  | json => if noEmptyText json then some json else none

theorem filterMap_eq_self_iff {Item : Type} {keep : Item → Option Item} {items : List Item} :
    items.filterMap keep = items ↔ ∀ item ∈ items, keep item = some item := by
  induction items with
  | nil => simp
  | cons item rest ih =>
    rw [List.filterMap_cons, List.forall_mem_cons]
    cases hkeep : keep item with
    | none =>
      refine iff_of_false (fun heq => ?_) fun hall => nomatch hall.1
      have hkept : rest.filterMap keep = item :: rest := heq
      have hlength := List.length_filterMap_le keep rest
      rw [hkept, List.length_cons] at hlength
      omega
    | some kept => rw [List.cons.injEq, ih, Option.some.injEq]

theorem againItem_eq_some_iff {item : Json} :
    againItem item = some item ↔ noEmptyText item = true := by
  cases item with
  | obj fields =>
    rw [againItem, Option.some.injEq, Json.obj.injEq, List.filter_eq_self, noEmptyText,
      noEmptyField_iff]
  | _ => simp [againItem]

theorem again_eq_some_iff {json : Json} : again json = some json ↔ noEmptyText json = true := by
  cases json with
  | arr items =>
    rw [again, Option.some.injEq, Json.arr.injEq, filterMap_eq_self_iff, noEmptyText,
      noEmptyItem_iff]
    exact forall₂_congr fun item _ => againItem_eq_some_iff
  | _ => simp [again]

theorem size_againItem_le {item kept : Json} (hkept : againItem item = some kept) :
    kept.size ≤ item.size := by
  cases item with
  | obj fields =>
    cases hkept
    exact Json.size_obj_filter_le fields _
  | _ =>
    simp only [againItem, Option.ite_none_right_eq_some, Option.some.injEq] at hkept
    rw [← hkept.2]

theorem itemsSize_againItems_le (items : List Json) :
    Json.itemsSize (items.filterMap againItem) ≤ Json.itemsSize items := by
  induction items with
  | nil => exact Nat.le_refl _
  | cons item rest ih =>
    rw [List.filterMap_cons, Json.itemsSize]
    cases hkept : againItem item with
    | none => exact ih.trans (Nat.le_add_left _ _)
    | some kept =>
      have hsize := size_againItem_le hkept
      simp only [Json.itemsSize]
      omega

theorem size_again_le {json kept : Json} (hkept : again json = some kept) :
    kept.size ≤ json.size := by
  cases json with
  | arr items =>
    cases hkept
    have hitems := itemsSize_againItems_le items
    have hlength := List.length_filterMap_le againItem items
    simp only [Json.size, Json.commas]
    omega
  | _ =>
    simp only [again, Option.ite_none_right_eq_some, Option.some.injEq] at hkept
    rw [← hkept.2]

/-! ### Values that were built -/

def NulFree (text : String) : Prop := '\x00' ∉ text.toList

theorem safeText_ofString {text : String} (hnul : NulFree text) :
    RawText.safeText (.ofString text) = text := by
  unfold RawText.safeText RawText.ofString
  have hkept : (text.toList.map RawChar.char).filter (fun char => char ≠ .char '\x00') =
      text.toList.map .char := by
    refine List.filter_eq_self.mpr fun char hmem => ?_
    obtain ⟨value, hvalue, rfl⟩ := List.mem_map.mp hmem
    rw [decide_eq_true_iff]
    intro heq
    cases heq
    exact hnul hvalue
  rw [hkept, List.map_map]
  have hid : RawText.replaced ∘ RawChar.char = id := rfl
  rw [hid, List.map_id, String.ofList_toList]

theorem nulFree_safeText (text : RawText) : NulFree text.safeText := by
  unfold NulFree RawText.safeText
  rw [String.toList_ofList]
  intro hmem
  obtain ⟨char, hchar, hnul⟩ := List.mem_map.mp hmem
  have hother := of_decide_eq_true (List.mem_filter.mp hchar).2
  cases char with
  | char value =>
    have hvalue : value = '\x00' := hnul
    exact hother (congrArg RawChar.char hvalue)
  | surrogate code =>
    have hmark : '?' = '\x00' := hnul
    exact absurd hmark (by decide)

theorem NulFree.of_starts {text : String} (hnul : NulFree text) {first : List Char}
    (hstarts : first <+: text.toList) : NulFree (String.ofList first) := by
  unfold NulFree
  rw [String.toList_ofList]
  exact fun hmem => hnul (hstarts.subset hmem)

theorem nulFree_toolsText (tools : EvidenceTools) (value : EvidenceValue) :
    NulFree (tools.safeText value) := by
  cases value with
  | none => exact fun hmem => nomatch hmem
  | _ => exact nulFree_safeText _

def isHexDigit (char : Char) : Bool := isDigit char || ('a' ≤ char ∧ char ≤ 'f')

theorem nulFree_of_hexDigits {text : String} (hchars : text.toList.all isHexDigit = true) :
    NulFree text ∧ byteLength text.toList = text.toList.length := by
  have hnine : '9' ≤ 'f' := by decide
  have hzero : '0' ≤ 'a' := by decide
  have hlast : 'f'.val ≤ 127 := by decide
  have hsmall : ∀ char ∈ text.toList, '0' ≤ char ∧ char ≤ 'f' := by
    intro char hmem
    have hclass := List.all_eq_true.mp hchars char hmem
    simp only [isHexDigit, Bool.or_eq_true, isDigit, decide_eq_true_iff] at hclass
    rcases hclass with ⟨hlow, hhigh⟩ | ⟨hlow, hhigh⟩
    · exact ⟨hlow, Char.le_trans hhigh hnine⟩
    · exact ⟨Char.le_trans hzero hlow, hhigh⟩
  refine ⟨fun hmem => absurd (hsmall _ hmem).1 (by decide), ?_⟩
  have hsizes : text.toList.map Char.utf8Size = text.toList.map fun _ => 1 := by
    refine List.map_congr_left fun char hmem => ?_
    have hascii : char.val ≤ 127 := UInt32.le_trans (hsmall char hmem).2 hlast
    exact if_pos hascii
  rw [byteLength, hsizes, List.map_const', List.sum_replicate_nat, Nat.mul_one]

theorem nulFree_digest (tools : EvidenceTools) (text : String) :
    NulFree (tools.digest text) ∧ byteLength (tools.digest text).toList ≤ 64 := by
  have hdigest := tools.digest_isDigest text
  unfold isDigest at hdigest
  obtain ⟨hlength, hchars⟩ := Bool.and_eq_true_iff.mp hdigest
  obtain ⟨hnul, hbytes⟩ := nulFree_of_hexDigits hchars
  refine ⟨hnul, ?_⟩
  rw [hbytes, of_decide_eq_true hlength]

/-- A value as `build_evidence` leaves it in a field. -/
inductive Projected (key : String) (limit : Option Nat) : Json → Prop
  | text {bytes : Nat} {text : String} (hlimit : limit = some bytes) (hnul : NulFree text)
      (hbytes : byteLength text.toList ≤ bytes) : Projected key limit (.str text)
  | list {value : EvidenceValue} {json : Json} (hlist : value.listValue key = some json) :
      Projected key limit json
  | scalar {value : EvidenceValue} {json : Json} (hlimit : limit = none)
      (hlist : value.listValue key = none) (hsome : value ≠ .none)
      (hscalar : value.scalar = some json) : Projected key limit json

theorem ofString_eq_nil {text : String} : RawText.ofString text = [] ↔ text = "" := by
  rw [RawText.ofString, List.map_eq_nil_iff, String.toList_eq_nil_iff]

theorem cutText_text {raw : RawText} (hraw : raw ≠ []) (limit : Nat) :
    (EvidenceValue.text raw).cutText limit =
      some (String.ofList (takeBytes limit raw.safeText.toList)) := by
  cases raw with
  | nil => exact absurd rfl hraw
  | cons char rest => rfl

theorem cutText_again {limit : Nat} {value : EvidenceValue} {text : String}
    (hcut : value.cutText limit = some text) :
    (EvidenceValue.ofJson (.str text)).cutText limit = if text = "" then none else some text := by
  have hkept : NulFree text ∧ byteLength text.toList ≤ limit := by
    unfold EvidenceValue.cutText at hcut
    split at hcut
    · cases hcut
    next raw _ =>
      cases hcut
      refine ⟨(nulFree_safeText raw).of_starts (takeBytes_starts _ _), ?_⟩
      rw [String.toList_ofList]
      exact byteLength_takeBytes_le _ _
    · cases hcut
  rw [EvidenceValue.ofJson]
  by_cases hempty : text = ""
  · rw [if_pos hempty, hempty]
    rfl
  · rw [if_neg hempty, cutText_text fun hnil => hempty (ofString_eq_nil.mp hnil),
      safeText_ofString hkept.1, takeBytes_eq_self hkept.2, String.ofList_toList]

theorem natural_again {value : EvidenceValue} {number : Int}
    (hnatural : value.natural = some number) :
    (EvidenceValue.ofJson (.int number)).natural = some number := by
  cases value with
  | int other =>
    rw [EvidenceValue.natural] at hnatural
    split at hnatural
    next hpositive =>
      cases hnatural
      exact if_pos hpositive
    · cases hnatural
  | _ => cases hnatural

theorem child_again {limit : Option Nat} {value : EvidenceValue} {json : Json}
    (hchild : value.child limit = some json) :
    (EvidenceValue.ofJson json).child limit = if noEmptyText json then some json else none := by
  cases limit with
  | none =>
    obtain ⟨number, hnatural, rfl⟩ := Option.map_eq_some_iff.mp hchild
    rw [EvidenceValue.child, natural_again hnatural]
    rfl
  | some limit =>
    obtain ⟨text, hcut, rfl⟩ := Option.map_eq_some_iff.mp hchild
    rw [EvidenceValue.child, cutText_again hcut, noEmptyText]
    by_cases hempty : text = ""
    · simp [hempty]
    · simp [hempty]

theorem lookup_filterMap_pairs {policies : List FieldPolicy} {value : FieldPolicy → Option Json}
    (hnodup : (policies.map Prod.fst).Nodup) {policy : FieldPolicy} (hmem : policy ∈ policies) :
    (policies.filterMap fun policy => (value policy).map fun json => (policy.1, json)).lookup
      policy.1 = value policy := by
  induction policies with
  | nil => cases hmem
  | cons first rest ih =>
    obtain ⟨hfirst, hrest⟩ := List.nodup_cons.mp hnodup
    rw [List.filterMap_cons]
    rcases List.mem_cons.mp hmem with rfl | hlater
    · cases hvalue : value policy with
      | some json =>
        change List.lookup policy.1 ((policy.1, json) :: _) = _
        rw [List.lookup_cons_self]
      | none =>
        change List.lookup policy.1 (rest.filterMap _) = none
        refine List.lookup_eq_none_iff.mpr fun entry hentry => ?_
        obtain ⟨other, hother, hjson⟩ := List.mem_filterMap.mp hentry
        obtain ⟨json, _, rfl⟩ := Option.map_eq_some_iff.mp hjson
        have hne : policy.1 ≠ other.1 := fun heq =>
          hfirst (List.mem_map.mpr ⟨other, hother, heq.symm⟩)
        exact bne_iff_ne.mpr hne
    · have hne : policy.1 ≠ first.1 := fun heq =>
        hfirst (List.mem_map.mpr ⟨policy, hlater, heq⟩)
      cases hvalue : value first with
      | some json =>
        change List.lookup policy.1 ((first.1, json) :: _) = _
        rw [List.lookup_cons, beq_false_of_ne hne]
        exact ih hrest hlater
      | none => exact ih hrest hlater

theorem projectNode_again (fields : List (String × EvidenceValue)) :
    projectNode (EvidenceValue.ofFields (projectNode fields)) =
      (projectNode fields).filter fun field => noEmptyText field.2 := by
  have hnodup : (nodePolicies.map Prod.fst).Nodup := by decide
  have hlookup : ∀ policy ∈ nodePolicies, (projectNode fields).lookup policy.1 =
      (fields.lookup policy.1).bind (EvidenceValue.child policy.2) :=
    fun policy hmem => lookup_filterMap_pairs hnodup hmem
  rw [projectNode, projectNode, List.filter_filterMap]
  refine List.filterMap_congr fun policy hmem => ?_
  rw [EvidenceValue.lookup_ofFields]
  have hown := hlookup policy hmem
  rw [projectNode] at hown
  rw [hown]
  cases hchild : (fields.lookup policy.1).bind (EvidenceValue.child policy.2) with
  | none => rfl
  | some json =>
    obtain ⟨value, _, hvalue⟩ := Option.bind_eq_some_iff.mp hchild
    have hagain := child_again hvalue
    change Option.map _ ((EvidenceValue.ofJson json).child policy.2) = _
    rw [hagain]
    by_cases hempty : noEmptyText json = true
    · simp [hempty, Option.filter]
    · simp [hempty, Option.filter]

theorem ofJson_node {value : EvidenceValue} {json : Json} (hnode : value.node = some json) :
    (EvidenceValue.ofJson json).node = againItem json := by
  cases value with
  | dict fields =>
    cases hnode
    rw [EvidenceValue.ofJson, EvidenceValue.node, projectNode_again]
    rfl
  | _ => cases hnode

theorem listValue_again {key : String} {value : EvidenceValue} {json : Json}
    (hlist : value.listValue key = some json) :
    ∃ items, json = .arr items ∧
      (EvidenceValue.ofJson json).listValue key = some (.arr (items.filterMap againItem)) := by
  cases value with
  | list items =>
    have htake : ∀ kept : List Json, kept.length ≤ 8 →
        (EvidenceValue.ofItems kept).take 8 = kept.map EvidenceValue.ofJson := by
      intro kept hlength
      rw [EvidenceValue.ofItems_eq, List.take_of_length_le (by rw [List.length_map]; exact hlength)]
    have hlength : ∀ {Item : Type} (keep : EvidenceValue → Option Item),
        ((items.take 8).filterMap keep).length ≤ 8 := fun keep =>
      (List.length_filterMap_le _ _).trans (List.length_take_le 8 items)
    rw [EvidenceValue.listValue] at hlist
    by_cases hreceipts : key = "receipt_semantics"
    · rw [if_pos hreceipts] at hlist
      cases hlist
      refine ⟨_, rfl, ?_⟩
      rw [EvidenceValue.ofJson, EvidenceValue.listValue, if_pos hreceipts, htake,
        List.map_map, List.filterMap_map, List.map_filterMap, List.filterMap_map]
      · refine congrArg (fun items => some (Json.arr items)) (List.filterMap_congr ?_)
        intro text htext
        obtain ⟨item, _, hcut⟩ := List.mem_filterMap.mp htext
        have hagain := cutText_again hcut
        change Option.map Json.str ((EvidenceValue.ofJson (.str text)).cutText 160) =
          againItem (.str text)
        have hitem : againItem (.str text) =
            if noEmptyText (.str text) then some (.str text) else none := rfl
        rw [hagain, hitem, noEmptyText]
        by_cases hempty : text = ""
        · simp [hempty]
        · simp [hempty]
      · rw [List.length_map]
        exact hlength _
    · rw [if_neg hreceipts] at hlist
      by_cases hlineage : key = "lineage"
      · rw [if_pos hlineage] at hlist
        cases hlist
        refine ⟨_, rfl, ?_⟩
        rw [EvidenceValue.ofJson, EvidenceValue.listValue, if_neg hreceipts, if_pos hlineage,
          htake _ (hlength _), List.filterMap_map]
        refine congrArg (fun items => some (Json.arr items)) (List.filterMap_congr ?_)
        intro item hitem
        obtain ⟨node, _, hnode⟩ := List.mem_filterMap.mp hitem
        exact ofJson_node hnode
      · rw [if_neg hlineage] at hlist
        cases hlist
  | _ => cases hlist

end DjangoMojo.Sensor
