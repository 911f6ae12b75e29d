import DjangoMojo.Sensor.Reprojection

/-! # The second pass over evidence

The second pass finds room for every field that it keeps, since each takes no more than it
took in the first. So it only loses marks and what is empty.
-/

namespace DjangoMojo.Sensor

open Foundation

/-! ### One turn of the second pass -/

namespace EvidenceTools

variable {tools : EvidenceTools} {evidence built : JsonFields} {key : String}
  {limit : Option Nat} {json : Json}

theorem TextTurn.eq_whole {after : JsonFields} {text : List Char} {bytes : Nat}
    (hturn : TextTurn tools evidence key text bytes after) (hbytes : byteLength text ≤ bytes)
    (hfits : fits (tools.withPrefix evidence key text text) = true) :
    after = tools.withPrefix evidence key text text := by
  cases hturn with
  | whole => rfl
  | cut hstarts hproper _ hlongest =>
    have hnot := hlongest text hstarts hproper.symm (List.prefix_refl text) hbytes
    rw [hfits] at hnot
    cases hnot
  | marksOnly hnone =>
    have hnot := hnone text (List.prefix_refl text) hbytes
    rw [hfits] at hnot
    cases hnot
  | dropped hnone =>
    have hnot := hnone text (List.prefix_refl text) hbytes
    rw [hfits] at hnot
    cases hnot

theorem addWhole_of_fits (hfits : fits (evidence.set key json) = true) :
    addWhole evidence key json = evidence.set key json := if_pos hfits

theorem given_eq_some {values : EvidenceValues} {value : EvidenceValue}
    (hvalue : values key = some value) (hnone : value ≠ .none) (htext : value ≠ .text []) :
    values.given key = some value := by
  unfold EvidenceValues.given
  rw [hvalue]
  split
  next heq => exact absurd (Option.some.inj heq) hnone
  next heq => exact absurd (Option.some.inj heq) htext
  next heq => exact heq.symm
  next heq => cases heq

theorem scalar_ofJson {value : EvidenceValue} (hscalar : value.scalar = some json)
    (hvalue : value ≠ .none) : EvidenceValue.ofJson json = value ∧ again json = some json ∧
      (∀ raw, value ≠ .text raw) := by
  cases value with
  | none => exact absurd rfl hvalue
  | bool value => cases hscalar; exact ⟨rfl, rfl, fun raw => by simp⟩
  | int value => cases hscalar; exact ⟨rfl, rfl, fun raw => by simp⟩
  | float shown finite =>
    cases finite with
    | true => cases hscalar; exact ⟨rfl, rfl, fun raw => by simp⟩
    | false => cases hscalar
  | _ => cases hscalar

/-- The second pass keeps of a field what is not empty, if there is room for what was built. -/
theorem addField_again (hdistinct : evidence.Distinct) (habsent : evidence.field key = none)
    (hbuilt : built.field key = some json) (hprojected : Projected key limit json)
    (hroom : evidence.weight + JsonFields.fieldWeight key json < evidenceBytes) :
    tools.addField (evidenceValues built) evidence (key, limit) =
      (again json).elim evidence fun kept => evidence ++ [(key, kept)] := by
  have hfits : ∀ kept, again json = some kept → fits (evidence.set key kept) = true := by
    intro kept hkept
    have hsize := size_again_le hkept
    have hweight := JsonFields.weight_set hdistinct key kept
    rw [fits_iff]
    simp only [JsonFields.fieldWeight] at hweight hroom ⊢
    omega
  have hvalue : evidenceValues built key = some (.ofJson json) := by
    rw [evidenceValues, hbuilt]
    rfl
  cases hprojected with
  | @text bytes text hlimit hnul hbytes =>
    cases hlimit
    by_cases hempty : text = ""
    · subst hempty
      have hgiven : (evidenceValues built).given key = none := by
        unfold EvidenceValues.given
        rw [hvalue]
        rfl
      simp only [addField, hgiven]
      rfl
    · have hraw : EvidenceValue.ofJson (.str text) ≠ .text [] := by
        intro heq
        exact hempty (ofString_eq_nil.mp (EvidenceValue.text.inj heq))
      have hkept : again (.str text) = some (.str text) :=
        again_eq_some_iff.mpr (decide_eq_true hempty)
      have hgiven := given_eq_some hvalue (by intro heq; cases heq) hraw
      have hsafe : (tools.safeText (.ofJson (.str text))).toList = text.toList :=
        congrArg String.toList (safeText_ofString hnul)
      have hwhole : fits (tools.withPrefix evidence key text.toList text.toList) = true := by
        rw [withPrefix_self, String.ofList_toList]
        exact hfits _ hkept
      rw [addField_text tools evidence hgiven rfl, hsafe, hkept, Option.elim_some,
        (textTurn_addText tools key text.toList bytes hdistinct).eq_whole hbytes hwhole,
        withPrefix_self, String.ofList_toList, JsonFields.set_of_field_none _ habsent]
  | list hlist =>
    obtain ⟨items, rfl, hlistAgain⟩ := listValue_again hlist
    have hgiven := given_eq_some hvalue (by intro heq; cases heq) (by intro heq; cases heq)
    simp only [addField, hgiven, hlistAgain]
    rw [addWhole_of_fits (hfits _ rfl), JsonFields.set_of_field_none _ habsent]
    rfl
  | scalar hlimit hlist hsome hscalar =>
    obtain ⟨hsame, hkept, htext⟩ := scalar_ofJson hscalar hsome
    rw [hsame] at hvalue
    have hgiven := given_eq_some hvalue hsome (htext [])
    cases hlimit
    simp only [addField, hgiven, hlist, hscalar]
    rw [addWhole_of_fits (hfits _ hkept), JsonFields.set_of_field_none _ habsent, hkept]
    rfl

/-! ### The second pass -/

def keptAgain (built : JsonFields) (policies : List FieldPolicy) : JsonFields :=
  policies.filterMap fun policy =>
    ((built.field policy.1).bind again).map fun json => (policy.1, json)

theorem distinct_append_single {fields : JsonFields} (hfields : fields.Distinct)
    (habsent : fields.field key = none) (json : Json) :
    JsonFields.Distinct (fields ++ [(key, json)]) := by
  rw [← JsonFields.set_of_field_none json habsent]
  exact hfields.set key json

/-- The second pass has room for all fields, so that it keeps what is not empty. -/
theorem projectOnto_again {policies : List FieldPolicy} (hdistinct : evidence.Distinct)
    (hnodup : (policies.map Prod.fst).Nodup)
    (habsent : ∀ policy ∈ policies, evidence.field policy.1 = none)
    (hprojected : ∀ policy ∈ policies, ∀ json, built.field policy.1 = some json →
      Projected policy.1 policy.2 json)
    (hroom : evidence.weight + (policies.map fun policy => built.weightAt policy.1).sum <
      evidenceBytes) :
    tools.projectOnto (evidenceValues built) evidence policies =
      evidence ++ keptAgain built policies := by
  induction policies generalizing evidence with
  | nil => exact (List.append_nil _).symm
  | cons policy rest ih =>
    obtain ⟨hfirst, hrest⟩ := List.nodup_cons.mp hnodup
    obtain ⟨habsentFirst, habsentRest⟩ := List.forall_mem_cons.mp habsent
    obtain ⟨hprojectedFirst, hprojectedRest⟩ := List.forall_mem_cons.mp hprojected
    rw [List.map_cons, List.sum_cons] at hroom
    rw [projectOnto_cons, keptAgain, List.filterMap_cons, ← keptAgain]
    cases hbuilt : built.field policy.1 with
    | none =>
      have hvalue : evidenceValues built policy.1 = none := by
        rw [evidenceValues, hbuilt]
        rfl
      have hgiven : (evidenceValues built).given policy.1 = none := by
        rw [EvidenceValues.given, hvalue]
      have hturn : tools.addField (evidenceValues built) evidence policy = evidence := by
        simp only [addField, hgiven]
      rw [hturn]
      exact ih hdistinct hrest habsentRest hprojectedRest (by omega)
    | some json =>
      have hweight : built.weightAt policy.1 = JsonFields.fieldWeight policy.1 json := by
        rw [JsonFields.weightAt, hbuilt, Option.elim_some]
      rw [hweight] at hroom
      have hturn : tools.addField (evidenceValues built) evidence policy = _ :=
        addField_again hdistinct habsentFirst hbuilt (hprojectedFirst json hbuilt) (by omega)
      rw [hturn]
      cases hkept : again json with
      | none =>
        rw [Option.elim_none, Option.bind_some, hkept]
        exact ih hdistinct hrest habsentRest hprojectedRest (by omega)
      | some kept =>
        have hsize := size_again_le hkept
        rw [Option.elim_some, Option.bind_some, hkept, ih]
        · rw [List.append_assoc]
          rfl
        · exact distinct_append_single hdistinct habsentFirst kept
        · exact hrest
        · intro other hother
          have hne : other.1 ≠ policy.1 := fun heq =>
            hfirst (List.mem_map.mpr ⟨other, hother, heq⟩)
          rw [← JsonFields.set_of_field_none kept habsentFirst, JsonFields.field_set_ne hne]
          exact habsentRest other hother
        · exact hprojectedRest
        · rw [JsonFields.weight_append, JsonFields.weight_cons, JsonFields.weight_nil]
          simp only [JsonFields.fieldWeight] at hroom ⊢
          omega

/-! ### What the first pass leaves -/

section FirstPass

variable {values : EvidenceValues} {after : JsonFields} {policies : List FieldPolicy}

theorem given_ne_none {value : EvidenceValue} (hgiven : values.given key = some value) :
    value ≠ .none := by
  intro hnone
  subst hnone
  unfold EvidenceValues.given at hgiven
  split at hgiven
  · cases hgiven
  · cases hgiven
  next hnot _ _ =>
    cases hgiven
    exact hnot rfl
  · cases hgiven

theorem TextTurn.projected {text : String} {bytes : Nat} (hnul : NulFree text)
    (hlimit : limit = some bytes) (hkey : evidence.field key = none)
    (hturn : TextTurn tools evidence key text.toList bytes after)
    (hfield : after.field key = some json) : Projected key limit json := by
  cases hturn with
  | whole hbytes =>
    rw [withPrefix_self, JsonFields.field_set_self, String.ofList_toList] at hfield
    cases hfield
    exact .text hlimit hnul hbytes
  | cut hstarts hproper hbytes =>
    rw [withPrefix_of_ne hproper, field_marked, if_neg (digestKey_ne key).symm,
      if_neg (truncatedKey_ne key).symm, JsonFields.field_set_self] at hfield
    cases hfield
    refine .text hlimit (hnul.of_starts hstarts) ?_
    rw [String.toList_ofList]
    exact hbytes
  | marksOnly =>
    rw [field_marked, if_neg (digestKey_ne key).symm, if_neg (truncatedKey_ne key).symm,
      hkey] at hfield
    cases hfield
  | dropped =>
    rw [hkey] at hfield
    cases hfield

theorem FieldTurn.projected (hkey : evidence.field key = none)
    (hturn : FieldTurn tools values evidence key limit after)
    (hfield : after.field key = some json) : Projected key limit json := by
  cases hturn with
  | missing =>
    rw [hkey] at hfield
    cases hfield
  | text _ hlimit _ hturn =>
    exact hturn.projected (nulFree_toolsText tools _) hlimit hkey hfield
  | whole hgiven hvalue =>
    rw [JsonFields.field_set_self] at hfield
    cases hfield
    rcases hvalue with hlist | ⟨hlist, hlimit, hscalar⟩
    · exact .list hlist
    · exact .scalar hlimit hlist (given_ne_none hgiven) hscalar
  | tooLarge =>
    rw [hkey] at hfield
    cases hfield
  | noScalar =>
    rw [hkey] at hfield
    cases hfield

/-- Fields with the names of digests may have as many bytes as a digest. -/
def DigestFields (policies : List FieldPolicy) : Prop :=
  ∀ first ∈ policies, ∀ owner ∈ policies, owner.2 ≠ none → digestKey owner.1 = first.1 →
    first.2 = some 64

/-- A field of the first pass is its own value, or the digest of a text that was cut. -/
theorem projected_project (horderly : Orderly policies) (hdigests : DigestFields policies)
    {policy : FieldPolicy} (hmem : policy ∈ policies)
    (hfield : (tools.project values policies).field policy.1 = some json) :
    Projected policy.1 policy.2 json := by
  obtain ⟨earlier, later, rfl⟩ := List.append_of_mem hmem
  obtain ⟨hpairs, _⟩ := horderly
  obtain ⟨hkey, _⟩ := field_before_eq_none tools values hpairs
  obtain ⟨hown, hrest⟩ := List.pairwise_cons.mp (List.pairwise_append.mp hpairs).2.1
  have hdistinct := (project_bounded tools values earlier).1
  rw [project_append_cons] at hfield
  have hturn := fieldTurn_addField tools hdistinct values policy
  rcases field_or_displaced (hturn.keeps.distinct hdistinct) hown hrest with hsame | hdisplaced
  · rw [hsame] at hfield
    exact hturn.projected hkey hfield
  · obtain ⟨owner, howner, htextual, hname, _, value, _, hdigest⟩ := hdisplaced
    rw [hdigest] at hfield
    cases hfield
    obtain ⟨hnul, hbytes⟩ := nulFree_digest tools (tools.safeText value)
    have howner := List.mem_append_right earlier (List.mem_cons_of_mem policy howner)
    exact .text (hdigests policy hmem owner howner htextual hname) hnul hbytes

end FirstPass

/-! ### When the second pass changes nothing -/

/-- Nothing stands in the evidence that the second pass would drop: no mark, and no empty text. -/
def Lossless (policies : List FieldPolicy) (built : JsonFields) : Prop :=
  ∀ key json, built.field key = some json →
    (∃ policy ∈ policies, policy.1 = key) ∧ noEmptyText json = true

theorem field_keptAgain {policies : List FieldPolicy} (hnodup : (policies.map Prod.fst).Nodup)
    {policy : FieldPolicy} (hmem : policy ∈ policies) :
    (keptAgain built policies).field policy.1 = (built.field policy.1).bind again :=
  lookup_filterMap_pairs hnodup hmem

theorem field_keptAgain_of_ne {policies : List FieldPolicy} {key : String}
    (hkey : ∀ policy ∈ policies, policy.1 ≠ key) : (keptAgain built policies).field key = none := by
  refine List.lookup_eq_none_iff.mpr fun entry hentry => ?_
  obtain ⟨policy, hmem, hjson⟩ := List.mem_filterMap.mp hentry
  obtain ⟨json, _, rfl⟩ := Option.map_eq_some_iff.mp hjson
  exact bne_iff_ne.mpr (hkey policy hmem).symm

theorem sameFields_keptAgain_iff {policies : List FieldPolicy}
    (hnodup : (policies.map Prod.fst).Nodup) :
    SameFields (keptAgain built policies) built ↔ Lossless policies built := by
  constructor
  · intro hsame key json hfield
    have hkept := hsame key
    rw [hfield] at hkept
    by_cases hkey : ∃ policy ∈ policies, policy.1 = key
    · obtain ⟨policy, hmem, rfl⟩ := hkey
      rw [field_keptAgain hnodup hmem, hfield, Option.bind_some, again_eq_some_iff] at hkept
      exact ⟨⟨policy, hmem, rfl⟩, hkept⟩
    · have hne : ∀ policy ∈ policies, policy.1 ≠ key := fun policy hmem heq =>
        hkey ⟨policy, hmem, heq⟩
      rw [field_keptAgain_of_ne hne] at hkept
      cases hkept
  · intro hlossless key
    cases hfield : built.field key with
    | none =>
      by_cases hkey : ∃ policy ∈ policies, policy.1 = key
      · obtain ⟨policy, hmem, rfl⟩ := hkey
        rw [field_keptAgain hnodup hmem, hfield]
        rfl
      · exact field_keptAgain_of_ne fun policy hmem heq => hkey ⟨policy, hmem, heq⟩
    | some json =>
      obtain ⟨⟨policy, hmem, rfl⟩, hkept⟩ := hlossless key json hfield
      rw [field_keptAgain hnodup hmem, hfield]
      exact again_eq_some_iff.mpr hkept

section Turns

variable {values : EvidenceValues} {after : JsonFields} {policies : List FieldPolicy}

theorem lossless_addField (hdistinct : evidence.Distinct) {policy : FieldPolicy}
    (habsent : evidence.field policy.1 = none) (hsettled : Settled tools values evidence policy)
    (hlossless : Lossless policies evidence) :
    Lossless (policies ++ [policy]) (tools.addField values evidence policy) := by
  have hbefore : Lossless (policies ++ [policy]) evidence := by
    intro key json hfield
    obtain ⟨⟨other, hmem, heq⟩, hkept⟩ := hlossless key json hfield
    exact ⟨⟨other, List.mem_append_left _ hmem, heq⟩, hkept⟩
  have hset : ∀ json, noEmptyText json = true →
      Lossless (policies ++ [policy]) (evidence.set policy.1 json) := by
    intro json hkept key found hfield
    rw [JsonFields.field_set] at hfield
    by_cases hkey : key = policy.1
    · rw [if_pos hkey] at hfield
      cases hfield
      exact ⟨⟨policy, by simp, hkey.symm⟩, hkept⟩
    · rw [if_neg hkey] at hfield
      exact hbefore key found hfield
  have hturn := fieldTurn_addField tools hdistinct values policy
  generalize tools.addField values evidence policy = next at hturn ⊢
  cases hturn with
  | missing => exact hbefore
  | tooLarge => exact hbefore
  | noScalar => exact hbefore
  | whole hgiven hvalue hfits =>
    rcases hvalue with hlist | ⟨_, _, hscalar⟩
    · exact hset _ ((hsettled _ hgiven).1 _ hlist hfits)
    · obtain ⟨_, hkept, _⟩ := scalar_ofJson hscalar (given_ne_none hgiven)
      exact hset _ (again_eq_some_iff.mp hkept)
  | @text value bytes _ hgiven hlimit hlist hturn =>
    have hcases := (hsettled value hgiven).2 hlist bytes hlimit
    simp only at hcases
    generalize (tools.safeText value).toList = text at hturn hcases
    cases hturn with
    | whole hbytes hfits =>
      rcases hcases with ⟨_, hnotEmpty⟩ | ⟨hnot, _⟩
      · rw [withPrefix_self]
        refine hset _ (decide_eq_true fun hempty => hnotEmpty ?_)
        exact String.ofList_eq_empty_iff.mp hempty
      · exact absurd ⟨hbytes, hfits⟩ hnot
    | @cut kept hstarts hproper _ hlongest hfits =>
      rcases hcases with ⟨⟨hbytes, hwhole⟩, _⟩ | ⟨_, hmarks⟩
      · have hnot := hlongest text hstarts hproper.symm (List.prefix_refl text) hbytes
        rw [hwhole] at hnot
        cases hnot
      · have hmarked := fits_marked_of_withPrefix hdistinct hproper habsent hfits
        rw [Unmarkable, hmarked] at hmarks
        cases hmarks
    | marksOnly hnone hfits =>
      rcases hcases with ⟨⟨hbytes, hwhole⟩, _⟩ | ⟨_, hmarks⟩
      · have hnot := hnone text (List.prefix_refl text) hbytes
        rw [hwhole] at hnot
        cases hnot
      · rw [Unmarkable, hfits] at hmarks
        cases hmarks
    | dropped => exact hbefore

theorem ne_truncatedKey_of_orderly (horderly : Orderly policies) {policy owner : FieldPolicy}
    (hpolicy : policy ∈ policies) (howner : owner ∈ policies) :
    policy.1 ≠ truncatedKey owner.1 := by
  have hlater : policies.Pairwise fun first second => first.1 ≠ truncatedKey second.1 :=
    horderly.1.imp fun hapart => hapart.2.2.2.1.symm
  have hearlier : policies.Pairwise
      (flip fun first second : FieldPolicy => first.1 ≠ truncatedKey second.1) :=
    horderly.1.imp fun hapart => hapart.2.1
  exact List.Pairwise.forall_of_forall_of_flip (fun first _ => (truncatedKey_ne first.1).symm)
    hlater hearlier hpolicy howner

theorem settled_of_lossless (horderly : Orderly policies) {earlier later : List FieldPolicy}
    {policy : FieldPolicy} (hsplit : policies = earlier ++ policy :: later)
    (hlossless : Lossless policies (tools.project values policies)) :
    Settled tools values (tools.project values earlier) policy := by
  subst hsplit
  obtain ⟨hown, hrest⟩ := List.pairwise_cons.mp (List.pairwise_append.mp horderly.1).2.1
  have hdistinct := (project_bounded tools values earlier).1
  rw [project_append_cons] at hlossless
  have hturn := fieldTurn_addField tools hdistinct values policy
  have hnext := hturn.keeps.distinct hdistinct
  -- No field has the name of a mark, so that a mark would be dropped.
  have hmarks : ∀ owner ∈ policy :: later,
      (tools.projectOnto values (tools.addField values (tools.project values earlier) policy)
        later).field (truncatedKey owner.1) ≠ some (.bool true) := by
    intro owner howner hmark
    obtain ⟨⟨other, hother, hname⟩, _⟩ := hlossless _ _ hmark
    exact ne_truncatedKey_of_orderly horderly hother (List.mem_append_right earlier howner) hname
  have hkept : ∀ json,
      (tools.addField values (tools.project values earlier) policy).field policy.1 = some json →
      noEmptyText json = true := by
    intro json hfield
    rcases field_or_displaced hnext hown hrest with hsame | ⟨owner, howner, hdisplaced⟩
    · rw [hfield] at hsame
      exact (hlossless _ _ hsame).2
    · exact absurd hdisplaced.2.2.1 (hmarks owner (List.mem_cons_of_mem _ howner))
  obtain ⟨key, limit⟩ := policy
  obtain ⟨hkey, _⟩ := field_before_eq_none tools values horderly.1
  generalize tools.project values earlier = before at *
  intro value hgiven
  refine ⟨fun json hlist hfits => ?_, fun hlist bytes hlimit => ?_⟩
  · refine hkept json ?_
    simp only [addField, hgiven, hlist]
    rw [addWhole_of_fits hfits, JsonFields.field_set_self]
  · simp only at hlimit
    subst hlimit
    have htext := textTurn_addText tools key (tools.safeText value).toList bytes hdistinct
    rw [← addField_text tools before hgiven hlist] at htext
    simp only
    by_cases hwhole : byteLength (tools.safeText value).toList ≤ bytes ∧
        fits (tools.withPrefix before key (tools.safeText value).toList
          (tools.safeText value).toList) = true
    · refine .inl ⟨hwhole, fun hempty => ?_⟩
      have hfield := congrArg (fun built => built.field key) (htext.eq_whole hwhole.1 hwhole.2)
      simp only [withPrefix_self, JsonFields.field_set_self, hempty] at hfield
      exact absurd (hkept _ hfield) (by decide)
    · refine .inr ⟨hwhole, Bool.eq_false_iff.mpr fun hmarkable => ?_⟩
      have hmarked := htext.field_of_marked ?_ hmarkable
      · refine hmarks (key, some bytes) List.mem_cons_self ?_
        rw [field_projectOnto hnext fun other hmem =>
          not_touches_truncatedKey_of_apart (hown other hmem)]
        exact hmarked.1
      · rcases not_and_or.mp hwhole with hlong | hnot
        · exact .inl (not_le.mp hlong)
        · exact .inr (Bool.eq_false_iff.mpr hnot)

/-- Nothing is dropped from what is built exactly when no turn loses anything. -/
theorem lossless_project_iff (horderly : Orderly policies) :
    Lossless policies (tools.project values policies) ↔
      ∀ earlier policy later, policies = earlier ++ policy :: later →
        Settled tools values (tools.project values earlier) policy := by
  constructor
  · exact fun hlossless earlier policy later hsplit =>
      settled_of_lossless horderly hsplit hlossless
  · intro hsettled
    suffices hall : ∀ earlier later, policies = earlier ++ later →
        Lossless earlier (tools.project values earlier) from
      hall policies [] (List.append_nil policies).symm
    intro earlier
    induction earlier using List.reverseRecOn with
    | nil => exact fun _ _ key json hfield => nomatch hfield
    | append_singleton earlier policy ih =>
      intro later hsplit
      rw [List.append_assoc, List.singleton_append] at hsplit
      have hpairs := horderly.1
      rw [hsplit] at hpairs
      have hproject : tools.project values (earlier ++ [policy]) = _ :=
        project_append_cons earlier policy []
      rw [hproject, projectOnto_nil]
      exact lossless_addField (project_bounded tools values earlier).1
        (field_before_eq_none tools values hpairs).1 (hsettled earlier policy later hsplit)
        (ih (policy :: later) hsplit)

end Turns

theorem regular_of_lookup {kind : String} {policies : List FieldPolicy}
    (hpolicies : fieldPolicies.lookup kind = some policies) :
    Orderly policies ∧ DigestFields policies ∧ (policies.map Prod.fst).Nodup := by
  have hmem := mem_of_lookup_fieldPolicies hpolicies
  have horderly := orderly_fieldPolicies (kind, policies) hmem
  refine ⟨horderly, fun first hfirst owner howner htextual hname => ?_, ?_⟩
  · exact (digestKey_fieldPolicies (kind, policies) hmem first hfirst owner howner htextual
      hname).2.2
  · exact List.pairwise_map.mpr (horderly.1.imp fun hapart => hapart.1.symm)

/-- The second pass over what was built keeps all but the marks and the empty texts. -/
theorem project_again {policies : List FieldPolicy} (horderly : Orderly policies)
    (hdigests : DigestFields policies) (values : EvidenceValues) :
    tools.project (evidenceValues (tools.project values policies)) policies =
      keptAgain (tools.project values policies) policies := by
  have hnodup : (policies.map Prod.fst).Nodup :=
    List.pairwise_map.mpr (horderly.1.imp fun hapart => hapart.1.symm)
  have hfits := fits_iff.mp (project_bounded tools values policies).2.1
  have hsum := JsonFields.sum_weightAt_le hnodup (tools.project values policies)
  rw [List.map_map] at hsum
  refine projectOnto_again JsonFields.distinct_nil hnodup (fun _ _ => rfl) ?_ ?_
  · exact fun policy hmem json hfield => projected_project horderly hdigests hmem hfield
  · rw [JsonFields.weight_nil, Nat.zero_add]
    exact hsum.trans_lt hfits

def AllSettled (tools : EvidenceTools) (kind : String) (values : EvidenceValues) : Prop :=
  ∀ policies, fieldPolicies.lookup kind = some policies →
    ∀ earlier policy later, policies = earlier ++ policy :: later →
      Settled tools values (tools.project values earlier) policy

def Idempotent (tools : EvidenceTools) (kind : String) (values : EvidenceValues) : Prop :=
  ∀ evidence, tools.buildEvidence kind values = .ok evidence →
    ∃ rebuilt, tools.buildEvidence kind (evidenceValues evidence) = .ok rebuilt ∧
      SameFields rebuilt evidence

/-- The store leaves a sudo command with its evidence as it was built. -/
def KeptByStore (tools : EvidenceTools) (values : EvidenceValues) : Prop :=
  ∀ observation : Observation, observation.kind = sudoCommandKind →
    tools.buildEvidence sudoCommandKind values = .ok observation.attributes →
    ∃ stored, tools.reproject observation = .ok stored ∧
      SameFields stored.attributes observation.attributes

theorem idempotent_iff_lossless {kind : String} {policies : List FieldPolicy}
    (hpolicies : fieldPolicies.lookup kind = some policies) (values : EvidenceValues) :
    Idempotent tools kind values ↔ Lossless policies (tools.project values policies) := by
  obtain ⟨horderly, hdigests, hnodup⟩ := regular_of_lookup hpolicies
  unfold Idempotent
  simp only [buildEvidence_of_lookup hpolicies, Except.ok.injEq, forall_eq', exists_eq_left',
    project_again horderly hdigests]
  exact sameFields_keptAgain_iff hnodup

theorem idempotent_iff (tools : EvidenceTools) (kind : String) (values : EvidenceValues) :
    Idempotent tools kind values ↔ AllSettled tools kind values := by
  cases hpolicies : fieldPolicies.lookup kind with
  | none =>
    refine iff_of_true (fun evidence hbuilt => ?_) fun policies hsome => ?_
    · simp only [buildEvidence, hpolicies] at hbuilt
      cases hbuilt
    · rw [hpolicies] at hsome
      cases hsome
  | some policies =>
    rw [idempotent_iff_lossless hpolicies, lossless_project_iff (regular_of_lookup hpolicies).1]
    refine ⟨fun hsettled other hother => ?_, fun hsettled => hsettled policies hpolicies⟩
    rw [hpolicies] at hother
    cases hother
    exact hsettled

theorem keptByStore_iff (tools : EvidenceTools) (values : EvidenceValues) :
    KeptByStore tools values ↔ Idempotent tools sudoCommandKind values := by
  constructor
  · intro hkept evidence hbuilt
    obtain ⟨stored, hstored, hsame⟩ :=
      hkept ⟨sudoCommandKind, "", "", .high, "", evidence, "review", false⟩ rfl hbuilt
    simp only [reproject, if_true] at hstored
    cases hagain : tools.buildEvidence sudoCommandKind (evidenceValues evidence) with
    | error message =>
      rw [hagain] at hstored
      cases hstored
    | ok rebuilt =>
      rw [hagain] at hstored
      cases hstored
      exact ⟨rebuilt, rfl, hsame⟩
  · intro hidempotent observation hkind hbuilt
    obtain ⟨rebuilt, hagain, hsame⟩ := hidempotent observation.attributes hbuilt
    refine ⟨{ observation with attributes := rebuilt }, ?_, hsame⟩
    simp only [reproject, hkind, if_true]
    rw [hagain]
    rfl

/-- Building evidence again, as the store does with sudo commands, changes nothing exactly when
no turn of the first pass has lost anything. -/
theorem idempotent_iff_allSettled (tools : EvidenceTools) (kind : String)
    (values : EvidenceValues) :
    (Idempotent tools kind values ↔ AllSettled tools kind values) ∧
      (KeptByStore tools values ↔ AllSettled tools sudoCommandKind values) :=
  ⟨idempotent_iff tools kind values,
    (keptByStore_iff tools values).trans (idempotent_iff tools sudoCommandKind values)⟩

/-- The mark of a command that was cut is dropped when the evidence is built again. -/
theorem not_idempotent_cutCommand : ¬ Idempotent cutCommandTools sudoCommandKind cutCommand ∧
    ¬ KeptByStore cutCommandTools cutCommand := by
  have hnot : ¬ Idempotent cutCommandTools sudoCommandKind cutCommand := by
    have hpolicies : fieldPolicies.lookup sudoCommandKind = some sudoCommandPolicies := rfl
    rw [idempotent_iff_lossless hpolicies]
    intro hlossless
    obtain ⟨⟨policy, hmem, hname⟩, _⟩ := hlossless _ _ marks_cutCommand.1
    revert policy
    decide +kernel
  exact ⟨hnot, fun hkept => hnot ((keptByStore_iff cutCommandTools cutCommand).mp hkept)⟩

end EvidenceTools

end DjangoMojo.Sensor
