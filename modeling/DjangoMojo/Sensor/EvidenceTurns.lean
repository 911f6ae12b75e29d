import DjangoMojo.Sensor.Evidence

/-! # The turns of the evidence

What one turn of the loop can do to the evidence: a text is added whole, cut with its marks,
left with its marks only, or dropped, and what is kept is the longest prefix that fits.
-/

namespace DjangoMojo.Sensor

open Foundation

theorem fits_iff {evidence : JsonFields} :
    fits evidence = true ↔ evidence.weight < evidenceBytes := by
  rw [fits, decide_eq_true_iff]
  exact JsonFields.size_obj_le_iff (by decide)

/-! ### Marks -/

def truncatedKey (key : String) : String := key ++ "_truncated"
def digestKey (key : String) : String := key ++ "_sha256"

theorem marked_eq (evidence : JsonFields) (key digest : String) : marked evidence key digest =
    (evidence.set (truncatedKey key) (.bool true)).set (digestKey key) (.str digest) := rfl

theorem append_ne_self {key last : String} (hlast : last ≠ "") : key ++ last ≠ key := by
  intro heq
  have hlength := congrArg String.length heq
  rw [String.length_append] at hlength
  have hzero : last.length = 0 := by omega
  exact hlast (String.length_eq_zero_iff.mp hzero)

theorem truncatedKey_ne (key : String) : truncatedKey key ≠ key := append_ne_self (by decide)

theorem digestKey_ne (key : String) : digestKey key ≠ key := append_ne_self (by decide)

theorem digestKey_ne_truncatedKey (key : String) : digestKey key ≠ truncatedKey key := by
  intro heq
  have hlength := congrArg String.length heq
  rw [digestKey, truncatedKey, String.length_append, String.length_append] at hlength
  have hshorter : "_sha256".length < "_truncated".length := by decide
  omega

section Marks

variable {evidence : JsonFields} {key digest : String}

def marksWeight (key digest : String) : Nat :=
  JsonFields.fieldWeight (truncatedKey key) (.bool true) +
    JsonFields.fieldWeight (digestKey key) (.str digest)

theorem weight_marked (hdistinct : evidence.Distinct) (key digest : String) :
    (marked evidence key digest).weight + evidence.weightAt (truncatedKey key) +
        evidence.weightAt (digestKey key) =
      evidence.weight + marksWeight key digest := by
  have htruncated := JsonFields.weight_set hdistinct (truncatedKey key) (.bool true)
  have hdigest := JsonFields.weight_set (hdistinct.set (truncatedKey key) (.bool true))
    (digestKey key) (.str digest)
  rw [JsonFields.weightAt_set_ne (digestKey_ne_truncatedKey key)] at hdigest
  rw [marked_eq, marksWeight]
  omega

theorem distinct_marked (hdistinct : evidence.Distinct) :
    (marked evidence key digest).Distinct :=
  (hdistinct.set _ _).set _ _

theorem field_marked {other : String} : (marked evidence key digest).field other =
    if other = digestKey key then some (.str digest)
    else if other = truncatedKey key then some (.bool true)
    else evidence.field other := by
  rw [marked_eq, JsonFields.field_set, JsonFields.field_set]

end Marks

/-! ### A text and its prefixes -/

/-- The evidence with a prefix of the text, marked unless it is the whole text. -/
def EvidenceTools.withPrefix (tools : EvidenceTools) (evidence : JsonFields) (key : String)
    (text kept : List Char) : JsonFields :=
  let trial := evidence.set key (.str (String.ofList kept))
  if kept = text then trial else marked trial key (tools.digest (String.ofList text))

namespace EvidenceTools

variable {tools : EvidenceTools} {evidence : JsonFields} {key : String} {text kept : List Char}
  {limit : Nat}

theorem withPrefix_self : tools.withPrefix evidence key text text =
    evidence.set key (.str (String.ofList text)) := if_pos rfl

theorem withPrefix_of_ne (hkept : kept ≠ text) : tools.withPrefix evidence key text kept =
    marked (evidence.set key (.str (String.ofList kept))) key
      (tools.digest (String.ofList text)) := if_neg hkept

theorem candidate_eq (bytes : Nat) : tools.candidate evidence key text limit bytes =
    tools.withPrefix evidence key text (takeBytes bytes (takeBytes limit text)) := by
  unfold candidate withPrefix
  have hwhole : (limit < byteLength text ∨ bytes < byteLength (takeBytes limit text)) ↔
      ¬ takeBytes bytes (takeBytes limit text) = text := by
    by_cases hlimit : byteLength text ≤ limit
    · rw [takeBytes_eq_self hlimit, takeBytes_eq_self_iff]
      omega
    · refine iff_of_true (.inl (by omega)) fun heq => hlimit ?_
      rw [← heq]
      exact (byteLength_le_of_starts (takeBytes_starts _ _)).trans (byteLength_takeBytes_le _ _)
  simp only [hwhole, ite_not]

theorem weight_withPrefix_of_ne (tools : EvidenceTools) (key : String)
    (hdistinct : evidence.Distinct) (hkept : kept ≠ text) :
    (tools.withPrefix evidence key text kept).weight + evidence.weightAt key +
        evidence.weightAt (truncatedKey key) + evidence.weightAt (digestKey key) =
      evidence.weight + JsonFields.fieldWeight key (.str (String.ofList kept)) +
        marksWeight key (tools.digest (String.ofList text)) := by
  have htext := JsonFields.weight_set hdistinct key (.str (String.ofList kept))
  have hmarks := weight_marked (hdistinct.set key (.str (String.ofList kept))) key
    (tools.digest (String.ofList text))
  rw [JsonFields.weightAt_set_ne (truncatedKey_ne key),
    JsonFields.weightAt_set_ne (digestKey_ne key)] at hmarks
  rw [withPrefix_of_ne hkept]
  omega

theorem fits_withPrefix_of_starts {longer : List Char} (hdistinct : evidence.Distinct)
    (hstarts : kept <+: longer) (hkept : kept ≠ text) (hlonger : longer ≠ text)
    (hfits : fits (tools.withPrefix evidence key text longer) = true) :
    fits (tools.withPrefix evidence key text kept) = true := by
  rw [fits_iff] at hfits ⊢
  have hshort := weight_withPrefix_of_ne tools key hdistinct hkept
  have hlong := weight_withPrefix_of_ne tools key hdistinct hlonger
  have htexts : JsonFields.fieldWeight key (.str (String.ofList kept)) ≤
      JsonFields.fieldWeight key (.str (String.ofList longer)) := by
    have hsize := Json.textSize_le_of_starts hstarts
    simp only [JsonFields.fieldWeight, Json.size]
    omega
  omega

theorem fits_marked_of_withPrefix (hdistinct : evidence.Distinct) (hkept : kept ≠ text)
    (habsent : evidence.field key = none)
    (hfits : fits (tools.withPrefix evidence key text kept) = true) :
    fits (marked evidence key (tools.digest (String.ofList text))) = true := by
  rw [fits_iff] at hfits ⊢
  have hlong := weight_withPrefix_of_ne tools key hdistinct hkept
  have hmarks := weight_marked hdistinct key (tools.digest (String.ofList text))
  have hnone : evidence.weightAt key = 0 := by rw [JsonFields.weightAt, habsent]; rfl
  omega

/-- The marks do not fit, so that a text that does not fit whole is dropped. -/
def Unmarkable (tools : EvidenceTools) (evidence : JsonFields) (key : String)
    (text : List Char) : Prop :=
  fits (marked evidence key (tools.digest (String.ofList text))) = false

/-- No prefix within the limit that is longer than what is kept would fit. -/
def NoneLonger (tools : EvidenceTools) (evidence : JsonFields) (key : String)
    (text kept : List Char) (limit : Nat) : Prop :=
  ∀ longer, kept <+: longer → longer ≠ kept → longer <+: text → byteLength longer ≤ limit →
    fits (tools.withPrefix evidence key text longer) = false

inductive TextTurn (tools : EvidenceTools) (evidence : JsonFields) (key : String)
    (text : List Char) (limit : Nat) : JsonFields → Prop
  | whole (hlimit : byteLength text ≤ limit) :
      fits (tools.withPrefix evidence key text text) = true →
      TextTurn tools evidence key text limit (tools.withPrefix evidence key text text)
  | cut {kept : List Char} (hstarts : kept <+: text) (hproper : kept ≠ text)
      (hlimit : byteLength kept ≤ limit)
      (hlongest : tools.NoneLonger evidence key text kept limit) :
      fits (tools.withPrefix evidence key text kept) = true →
      TextTurn tools evidence key text limit (tools.withPrefix evidence key text kept)
  | marksOnly (hnone : ∀ kept, kept <+: text → byteLength kept ≤ limit →
      fits (tools.withPrefix evidence key text kept) = false) :
      fits (marked evidence key (tools.digest (String.ofList text))) = true →
      TextTurn tools evidence key text limit
        (marked evidence key (tools.digest (String.ofList text)))
  | dropped (hnone : ∀ kept, kept <+: text → byteLength kept ≤ limit →
      fits (tools.withPrefix evidence key text kept) = false)
      (hmarks : tools.Unmarkable evidence key text) :
      TextTurn tools evidence key text limit evidence

theorem TextTurn.field_of_marked {after : JsonFields}
    (hturn : TextTurn tools evidence key text limit after)
    (hwhole : limit < byteLength text ∨ fits (tools.withPrefix evidence key text text) = false)
    (hmarks : fits (marked evidence key (tools.digest (String.ofList text))) = true) :
    after.field (truncatedKey key) = some (.bool true) ∧
      after.field (digestKey key) = some (.str (tools.digest (String.ofList text))) := by
  have hmarked : ∀ trial : JsonFields,
      (marked trial key (tools.digest (String.ofList text))).field (truncatedKey key) =
          some (.bool true) ∧
        (marked trial key (tools.digest (String.ofList text))).field (digestKey key) =
          some (.str (tools.digest (String.ofList text))) := by
    intro trial
    refine ⟨?_, ?_⟩
    · rw [field_marked, if_neg (digestKey_ne_truncatedKey key).symm, if_pos rfl]
    · rw [field_marked, if_pos rfl]
  cases hturn with
  | whole hlimit hfits =>
    rcases hwhole with hlong | hnot
    · omega
    · rw [hfits] at hnot
      cases hnot
  | cut _ hproper =>
    rw [withPrefix_of_ne hproper]
    exact hmarked _
  | marksOnly => exact hmarked _
  | dropped _ hnot =>
    rw [Unmarkable, hmarks] at hnot
    cases hnot

theorem candidate_byteLength (hstarts : kept <+: text) (hlimit : byteLength kept ≤ limit) :
    tools.candidate evidence key text limit (byteLength kept) =
      tools.withPrefix evidence key text kept := by
  rw [candidate_eq, takeBytes_byteLength (starts_takeBytes hstarts hlimit)]

theorem fits_candidate_mono (hdistinct : evidence.Distinct) {first second : Nat}
    (hle : first ≤ second)
    (hnot : fits (tools.candidate evidence key text limit (byteLength (takeBytes limit text))) =
      false)
    (hless : second < byteLength (takeBytes limit text) + 1)
    (hfits : fits (tools.candidate evidence key text limit second) = true) :
    fits (tools.candidate evidence key text limit first) = true := by
  have hshorter : second < byteLength (takeBytes limit text) := by
    refine Nat.lt_of_le_of_ne (by omega) fun heq => ?_
    rw [heq, hnot] at hfits
    cases hfits
  have hproper : ∀ {bytes : Nat}, bytes < byteLength (takeBytes limit text) →
      takeBytes bytes (takeBytes limit text) ≠ text := by
    intro bytes hbytes heq
    have hlong := byteLength_le_of_starts (takeBytes_starts limit text)
    have hshort := byteLength_takeBytes_le bytes (takeBytes limit text)
    rw [heq] at hshort
    omega
  rw [candidate_eq] at hfits ⊢
  exact fits_withPrefix_of_starts hdistinct (takeBytes_mono hle _) (hproper (by omega))
    (hproper hshorter) hfits

theorem textTurn_addText (tools : EvidenceTools) (key : String) (text : List Char) (limit : Nat)
    (hdistinct : evidence.Distinct) :
    TextTurn tools evidence key text limit (tools.addText evidence key text limit) := by
  unfold addText
  simp only
  split
  next hwhole =>
    rw [candidate_eq, takeBytes_byteLength (List.prefix_refl _)] at hwhole ⊢
    by_cases hlimit : byteLength text ≤ limit
    · rw [takeBytes_eq_self hlimit] at hwhole ⊢
      exact .whole hlimit hwhole
    · have hproper : takeBytes limit text ≠ text := fun heq =>
        hlimit (takeBytes_eq_self_iff.mp heq)
      refine .cut (takeBytes_starts _ _) hproper (byteLength_takeBytes_le _ _) ?_ hwhole
      intro longer hlonger hne hstarts hless
      exact absurd (eq_of_starts_of_byteLength_le hlonger
        (byteLength_le_of_starts (starts_takeBytes hstarts hless))).symm hne
  next hnot =>
    have hnot := Bool.eq_false_iff.mpr hnot
    have hsearch := isLargest_bisect fun first second hle hless hfits =>
      fits_candidate_mono hdistinct hle hnot hless hfits
    -- A prefix within the limit has at most as many bytes as the cut text.
    have hbytes : ∀ {first : List Char}, first <+: text → byteLength first ≤ limit →
        byteLength first < byteLength (takeBytes limit text) + 1 := fun hstarts hless =>
      Nat.lt_succ_of_le (byteLength_le_of_starts (starts_takeBytes hstarts hless))
    split
    next best hbest =>
      rw [hbest] at hsearch
      obtain ⟨hless, hbestFits, hrest⟩ := hsearch
      have hfits : fits (tools.candidate evidence key text limit best) = true := hbestFits
      have hshorter : best < byteLength (takeBytes limit text) := by
        refine Nat.lt_of_le_of_ne (by omega) fun heq => ?_
        rw [heq, hnot] at hfits
        cases hfits
      have hstarts := (takeBytes_starts best (takeBytes limit text)).trans
        (takeBytes_starts limit text)
      have hbest := byteLength_takeBytes_le best (takeBytes limit text)
      have hcut := byteLength_takeBytes_le limit text
      rw [candidate_eq] at hfits ⊢
      refine .cut hstarts ?_ (by omega) ?_ hfits
      · intro heq
        have hlong := byteLength_le_of_starts (takeBytes_starts limit text)
        rw [heq] at hbest
        omega
      · intro longer hlonger hne hlongerText hlimit
        have hcount := hbytes hlongerText hlimit
        by_cases hmore : best < byteLength longer
        · rw [← candidate_byteLength hlongerText hlimit]
          exact hrest _ hcount hmore
        · have hback := starts_takeBytes (starts_takeBytes hlongerText hlimit) (not_lt.mp hmore)
          exact absurd (hback.eq_of_length_le hlonger.length_le) hne
    next hbest =>
      rw [hbest] at hsearch
      have hnone : ∀ kept, kept <+: text → byteLength kept ≤ limit →
          fits (tools.withPrefix evidence key text kept) = false := by
        intro kept hstarts hlimit
        rw [← candidate_byteLength hstarts hlimit]
        exact hsearch _ (hbytes hstarts hlimit)
      split
      next hmarks => exact .marksOnly hnone hmarks
      next hmarks => exact .dropped hnone (Bool.eq_false_iff.mpr hmarks)

/-! ### Fields -/

/-- A value that is added whole: one of the two lists, or a scalar. -/
def WholeValue (key : String) (limit : Option Nat) (value : EvidenceValue) (json : Json) : Prop :=
  value.listValue key = some json ∨
    value.listValue key = none ∧ limit = none ∧ value.scalar = some json

inductive FieldTurn (tools : EvidenceTools) (values : EvidenceValues) (evidence : JsonFields)
    (key : String) (limit : Option Nat) : JsonFields → Prop
  | missing : values.given key = none → FieldTurn tools values evidence key limit evidence
  | text {value : EvidenceValue} {bytes : Nat} {after : JsonFields}
      (hgiven : values.given key = some value) (hlimit : limit = some bytes)
      (hlist : value.listValue key = none) :
      TextTurn tools evidence key (tools.safeText value).toList bytes after →
      FieldTurn tools values evidence key limit after
  | whole {value : EvidenceValue} {json : Json} (hgiven : values.given key = some value)
      (hvalue : WholeValue key limit value json) :
      fits (evidence.set key json) = true →
      FieldTurn tools values evidence key limit (evidence.set key json)
  | tooLarge {value : EvidenceValue} {json : Json} (hgiven : values.given key = some value)
      (hvalue : WholeValue key limit value json) :
      fits (evidence.set key json) = false → FieldTurn tools values evidence key limit evidence
  | noScalar {value : EvidenceValue} (hgiven : values.given key = some value)
      (hlist : value.listValue key = none) (hlimit : limit = none) :
      value.scalar = none → FieldTurn tools values evidence key limit evidence

theorem fieldTurn_addWhole {values : EvidenceValues} {value : EvidenceValue} {json : Json}
    {limit : Option Nat} (hgiven : values.given key = some value)
    (hvalue : WholeValue key limit value json) :
    FieldTurn tools values evidence key limit (addWhole evidence key json) := by
  unfold addWhole
  simp only
  split
  next hfits => exact .whole hgiven hvalue hfits
  next hnot => exact .tooLarge hgiven hvalue (Bool.eq_false_iff.mpr hnot)

theorem addField_text {values : EvidenceValues} {value : EvidenceValue} {bytes : Nat}
    (tools : EvidenceTools) (evidence : JsonFields) (hgiven : values.given key = some value)
    (hlist : value.listValue key = none) :
    tools.addField values evidence (key, some bytes) =
      tools.addText evidence key (tools.safeText value).toList bytes := by
  simp only [addField, hgiven, hlist]

theorem fieldTurn_addField (tools : EvidenceTools) (hdistinct : evidence.Distinct)
    (values : EvidenceValues) (policy : FieldPolicy) :
    FieldTurn tools values evidence policy.1 policy.2 (tools.addField values evidence policy) := by
  unfold addField
  split
  next hgiven => exact .missing hgiven
  next value hgiven =>
    split
    next json hlist => exact fieldTurn_addWhole hgiven (.inl hlist)
    next bytes hlist hlimit => exact .text hgiven hlimit hlist (textTurn_addText tools _ _ _ hdistinct)
    next json hlist hlimit hscalar => exact fieldTurn_addWhole hgiven (.inr ⟨hlist, hlimit, hscalar⟩)
    next hlist hlimit hscalar => exact .noScalar hgiven hlist hlimit hscalar

end EvidenceTools

end DjangoMojo.Sensor
