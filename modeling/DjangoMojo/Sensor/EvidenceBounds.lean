import DjangoMojo.Sensor.EvidenceTurns

/-! # Evidence is bounded, and true to what it was built from

The evidence always fits its budget, and a text that it keeps is the longest prefix that
fits, marked exactly when it is cut. One field is out of line: the digest of a sudo command
has the name under which the digest of a cut command is written.
-/

namespace DjangoMojo.Sensor

open Foundation

/-! ### The fields of a list of policies -/

def Touches (key other : String) : Prop :=
  other = key ∨ other = truncatedKey key ∨ other = digestKey key

instance (key other : String) : Decidable (Touches key other) :=
  inferInstanceAs (Decidable (_ ∨ _ ∨ _))

theorem truncatedKey_inj {first second : String} :
    truncatedKey first = truncatedKey second ↔ first = second :=
  String.append_left_inj _

theorem digestKey_inj {first second : String} : digestKey first = digestKey second ↔
    first = second :=
  String.append_left_inj _

/-- A later field writes under no key of an earlier one; only its digest may take the place of
an earlier field. -/
def Apart (first second : FieldPolicy) : Prop :=
  second.1 ≠ first.1 ∧ second.1 ≠ truncatedKey first.1 ∧ second.1 ≠ digestKey first.1 ∧
    truncatedKey second.1 ≠ first.1 ∧ truncatedKey second.1 ≠ digestKey first.1 ∧
    digestKey second.1 ≠ truncatedKey first.1

instance : DecidableRel Apart := fun _ _ => inferInstanceAs (Decidable (_ ∧ _))

def Orderly (policies : List FieldPolicy) : Prop :=
  policies.Pairwise Apart ∧ ∀ policy ∈ policies, policy.2 ≠ none →
    policy.1 ≠ "receipt_semantics" ∧ policy.1 ≠ "lineage"

instance (policies : List FieldPolicy) : Decidable (Orderly policies) :=
  inferInstanceAs (Decidable (_ ∧ _))

theorem orderly_fieldPolicies : ∀ entry ∈ fieldPolicies, Orderly entry.2 := by
  decide +kernel

/-! ### What every turn keeps -/

namespace EvidenceTools

variable {tools : EvidenceTools} {values : EvidenceValues} {evidence after : JsonFields}
  {key : String} {limit : Option Nat} {text kept : List Char} {bytes : Nat}

theorem distinct_withPrefix (hdistinct : evidence.Distinct) :
    (tools.withPrefix evidence key text kept).Distinct := by
  unfold withPrefix
  simp only
  split
  · exact hdistinct.set _ _
  · exact distinct_marked (hdistinct.set _ _)

theorem mem_keys_withPrefix {other : String}
    (hmem : other ∈ (tools.withPrefix evidence key text kept).map Prod.fst) :
    other ∈ evidence.map Prod.fst ∨ Touches key other := by
  unfold withPrefix at hmem
  simp only at hmem
  split at hmem
  · exact (JsonFields.mem_keys_set.mp hmem).imp_right .inl
  · rcases JsonFields.mem_keys_set.mp hmem with hmem | heq
    · rcases JsonFields.mem_keys_set.mp hmem with hmem | heq
      · exact (JsonFields.mem_keys_set.mp hmem).imp_right .inl
      · exact .inr (.inr (.inl heq))
    · exact .inr (.inr (.inr heq))

theorem mem_keys_marked {digest other : String}
    (hmem : other ∈ (marked evidence key digest).map Prod.fst) :
    other ∈ evidence.map Prod.fst ∨ Touches key other := by
  rcases JsonFields.mem_keys_set.mp hmem with hmem | heq
  · exact (JsonFields.mem_keys_set.mp hmem).imp_right fun heq => .inr (.inl heq)
  · exact .inr (.inr (.inr heq))

theorem field_withPrefix_of_not_touches {other : String} (hother : ¬ Touches key other) :
    (tools.withPrefix evidence key text kept).field other = evidence.field other := by
  obtain ⟨hkey, hmarks⟩ := not_or.mp hother
  obtain ⟨htruncated, hdigest⟩ := not_or.mp hmarks
  unfold withPrefix
  simp only
  split
  · rw [JsonFields.field_set_ne hkey]
  · rw [field_marked, if_neg hdigest, if_neg htruncated, JsonFields.field_set_ne hkey]

/-- The facts that every turn keeps: the evidence fits, its keys are distinct, and only the keys
of the field are written. -/
structure Keeps (key : String) (evidence after : JsonFields) : Prop where
  fits : fits evidence = true → fits after = true
  distinct : evidence.Distinct → after.Distinct
  keys : ∀ other ∈ after.map Prod.fst, other ∈ evidence.map Prod.fst ∨ Touches key other
  frame : ∀ other, ¬ Touches key other → after.field other = evidence.field other

theorem Keeps.refl (key : String) (evidence : JsonFields) : Keeps key evidence evidence where
  fits := id
  distinct := id
  keys _ := .inl
  frame _ _ := rfl

theorem TextTurn.keeps (hturn : TextTurn tools evidence key text bytes after) :
    Keeps key evidence after := by
  cases hturn with
  | whole _ hfits =>
    exact ⟨fun _ => hfits, distinct_withPrefix, fun _ => mem_keys_withPrefix,
      fun _ => field_withPrefix_of_not_touches⟩
  | cut _ _ _ _ hfits =>
    exact ⟨fun _ => hfits, distinct_withPrefix, fun _ => mem_keys_withPrefix,
      fun _ => field_withPrefix_of_not_touches⟩
  | marksOnly _ hfits =>
    refine ⟨fun _ => hfits, distinct_marked, fun _ => mem_keys_marked, ?_⟩
    intro other hother
    obtain ⟨htruncated, hdigest⟩ := not_or.mp (not_or.mp hother).2
    rw [field_marked, if_neg hdigest, if_neg htruncated]
  | dropped => exact .refl key evidence

theorem FieldTurn.keeps (hturn : FieldTurn tools values evidence key limit after) :
    Keeps key evidence after := by
  cases hturn with
  | missing => exact .refl key evidence
  | text _ _ _ hturn => exact hturn.keeps
  | whole _ _ hfits =>
    refine ⟨fun _ => hfits, fun hdistinct => hdistinct.set _ _, ?_, ?_⟩
    · exact fun other hmem => (JsonFields.mem_keys_set.mp hmem).imp_right .inl
    · exact fun other hother => JsonFields.field_set_ne (not_or.mp hother).1
  | tooLarge => exact .refl key evidence
  | noScalar => exact .refl key evidence

/-! ### The loop -/

def projectOnto (tools : EvidenceTools) (values : EvidenceValues) (evidence : JsonFields)
    (policies : List FieldPolicy) : JsonFields :=
  policies.foldl (tools.addField values) evidence

@[simp] theorem projectOnto_nil : tools.projectOnto values evidence [] = evidence := rfl

theorem projectOnto_cons (policy : FieldPolicy) (rest : List FieldPolicy) :
    tools.projectOnto values evidence (policy :: rest) =
      tools.projectOnto values (tools.addField values evidence policy) rest := rfl

theorem project_append_cons (earlier : List FieldPolicy) (policy : FieldPolicy)
    (later : List FieldPolicy) : tools.project values (earlier ++ policy :: later) =
      tools.projectOnto values (tools.addField values (tools.project values earlier) policy)
        later :=
  List.foldl_append

theorem projectOnto_bounded (tools : EvidenceTools) (values : EvidenceValues)
    (policies : List FieldPolicy) (hdistinct : evidence.Distinct)
    (hfits : Sensor.fits evidence = true) :
    (tools.projectOnto values evidence policies).Distinct ∧
      Sensor.fits (tools.projectOnto values evidence policies) = true ∧
      ∀ other ∈ (tools.projectOnto values evidence policies).map Prod.fst,
        other ∈ evidence.map Prod.fst ∨ ∃ policy ∈ policies, Touches policy.1 other := by
  induction policies generalizing evidence with
  | nil => exact ⟨hdistinct, hfits, fun other hmem => .inl hmem⟩
  | cons policy rest ih =>
    have hkeeps := (fieldTurn_addField tools hdistinct values policy).keeps
    obtain ⟨hfinal, hbudget, hkeys⟩ := ih (hkeeps.distinct hdistinct) (hkeeps.fits hfits)
    refine ⟨hfinal, hbudget, fun other hmem => ?_⟩
    rcases hkeys other hmem with hearlier | ⟨later, hlater, htouches⟩
    · rcases hkeeps.keys other hearlier with hold | htouches
      · exact .inl hold
      · exact .inr ⟨policy, List.mem_cons_self, htouches⟩
    · exact .inr ⟨later, List.mem_cons_of_mem _ hlater, htouches⟩

theorem project_bounded (tools : EvidenceTools) (values : EvidenceValues)
    (policies : List FieldPolicy) : (tools.project values policies).Distinct ∧
      Sensor.fits (tools.project values policies) = true ∧
      ∀ other ∈ (tools.project values policies).map Prod.fst,
        ∃ policy ∈ policies, Touches policy.1 other := by
  obtain ⟨hdistinct, hfits, hkeys⟩ :=
    projectOnto_bounded tools values policies JsonFields.distinct_nil (by decide)
  exact ⟨hdistinct, hfits, fun other hmem => (hkeys other hmem).resolve_left (by simp)⟩

theorem field_projectOnto {other : String} {policies : List FieldPolicy}
    (hdistinct : evidence.Distinct) (hother : ∀ policy ∈ policies, ¬ Touches policy.1 other) :
    (tools.projectOnto values evidence policies).field other = evidence.field other := by
  induction policies generalizing evidence with
  | nil => rfl
  | cons policy rest ih =>
    obtain ⟨hfirst, hrest⟩ := List.forall_mem_cons.mp hother
    have hkeeps := (fieldTurn_addField tools hdistinct values policy).keeps
    rw [projectOnto_cons, ih (hkeeps.distinct hdistinct) hrest, hkeeps.frame other hfirst]

/-! ### Fields of an orderly list -/

/-- The digest of a later field that was cut has the name of this one. -/
def DisplacedBy (tools : EvidenceTools) (values : EvidenceValues) (evidence : JsonFields)
    (key : String) (owner : FieldPolicy) : Prop :=
  owner.2 ≠ none ∧ digestKey owner.1 = key ∧
    evidence.field (truncatedKey owner.1) = some (.bool true) ∧
    ∃ value, values.given owner.1 = some value ∧
      evidence.field key = some (.str (tools.digest (tools.safeText value)))

theorem not_touches_of_apart {first second : FieldPolicy} (hapart : Apart first second)
    (hdigest : digestKey second.1 ≠ first.1) : ¬ Touches second.1 first.1 := by
  obtain ⟨hkey, _, _, htruncated, _, _⟩ := hapart
  rintro (heq | heq | heq)
  · exact hkey heq.symm
  · exact htruncated heq.symm
  · exact hdigest heq.symm

theorem not_touches_truncatedKey_of_apart {first second : FieldPolicy}
    (hapart : Apart first second) : ¬ Touches second.1 (truncatedKey first.1) := by
  obtain ⟨hkey, htruncated, _, _, _, hdigest⟩ := hapart
  rintro (heq | heq | heq)
  · exact htruncated heq.symm
  · exact hkey (truncatedKey_inj.mp heq).symm
  · exact hdigest heq.symm

theorem not_touches_digestKey_of_apart {first second : FieldPolicy}
    (hapart : Apart first second) : ¬ Touches second.1 (digestKey first.1) := by
  obtain ⟨hkey, _, hdigest, _, htruncated, _⟩ := hapart
  rintro (heq | heq | heq)
  · exact hdigest heq.symm
  · exact htruncated heq.symm
  · exact hkey (digestKey_inj.mp heq).symm

theorem not_touches_later_of_apart {first second : FieldPolicy} (hapart : Apart first second) :
    ¬ Touches first.1 second.1 ∧ ¬ Touches first.1 (truncatedKey second.1) := by
  obtain ⟨hkey, htruncated, hdigest, hown, hother, _⟩ := hapart
  refine ⟨?_, ?_⟩
  · rintro (heq | heq | heq)
    · exact hkey heq
    · exact htruncated heq
    · exact hdigest heq
  · rintro (heq | heq | heq)
    · exact hown heq
    · exact hkey (truncatedKey_inj.mp heq)
    · exact hother heq

theorem FieldTurn.field_or_displaced {other : String}
    (hturn : FieldTurn tools values evidence key limit after) (hkey : other ≠ key)
    (htruncated : other ≠ truncatedKey key) :
    after.field other = evidence.field other ∨ DisplacedBy tools values after other (key, limit) := by
  by_cases hdigest : other = digestKey key
  · cases hturn with
    | missing => exact .inl rfl
    | whole => exact .inl (JsonFields.field_set_ne hkey)
    | tooLarge => exact .inl rfl
    | noScalar => exact .inl rfl
    | @text value _ _ hgiven hlimit _ hturn =>
      have hmarked : ∀ trial : JsonFields, DisplacedBy tools values
          (marked trial key (tools.digest (String.ofList (tools.safeText value).toList))) other
            (key, limit) := by
        intro trial
        refine ⟨by rw [hlimit]; exact Option.some_ne_none _, hdigest.symm, ?_, _, hgiven, ?_⟩
        · rw [field_marked, if_neg (digestKey_ne_truncatedKey key).symm, if_pos rfl]
        · rw [field_marked, if_pos hdigest, String.ofList_toList]
      cases hturn with
      | whole => rw [withPrefix_self]; exact .inl (JsonFields.field_set_ne hkey)
      | cut _ hproper => rw [withPrefix_of_ne hproper]; exact .inr (hmarked _)
      | marksOnly => exact .inr (hmarked _)
      | dropped => exact .inl rfl
  · refine .inl (hturn.keeps.frame other ?_)
    rintro (heq | heq | heq)
    · exact hkey heq
    · exact htruncated heq
    · exact hdigest heq

theorem field_or_displaced {first : FieldPolicy} {later : List FieldPolicy}
    (hdistinct : evidence.Distinct) (hapart : ∀ policy ∈ later, Apart first policy)
    (hlater : later.Pairwise Apart) :
    (tools.projectOnto values evidence later).field first.1 = evidence.field first.1 ∨
      ∃ owner ∈ later, DisplacedBy tools values (tools.projectOnto values evidence later) first.1
        owner := by
  induction later generalizing evidence with
  | nil => exact .inl rfl
  | cons policy rest ih =>
    obtain ⟨hpolicy, hrest⟩ := List.forall_mem_cons.mp hapart
    obtain ⟨hown, hothers⟩ := List.pairwise_cons.mp hlater
    have hturn := fieldTurn_addField tools hdistinct values policy
    have hnext := hturn.keeps.distinct hdistinct
    rw [projectOnto_cons]
    rcases hturn.field_or_displaced hpolicy.1.symm hpolicy.2.2.2.1.symm with hsame | hdisplaced
    · rcases ih hnext hrest hothers with hkept | ⟨owner, howner, hdisplaced⟩
      · exact .inl (hkept.trans hsame)
      · exact .inr ⟨owner, List.mem_cons_of_mem _ howner, hdisplaced⟩
    · obtain ⟨htextual, hdigest, hmark, value, hgiven, htext⟩ := hdisplaced
      refine .inr ⟨policy, List.mem_cons_self, htextual, hdigest, ?_, value, hgiven, ?_⟩
      · rw [field_projectOnto hnext fun other hmem =>
          not_touches_truncatedKey_of_apart (hown other hmem)]
        exact hmark
      · rw [field_projectOnto hnext]
        · exact htext
        · intro other hmem
          refine not_touches_of_apart (hrest other hmem) fun heq => ?_
          exact (hown other hmem).1 (digestKey_inj.mp (heq.trans hdigest.symm))

end EvidenceTools

/-! ### True evidence -/

/-- The kept text is the longest prefix that fits beside the fields before it, and is marked,
with the digest of the whole text, exactly when it is cut. -/
structure TruthfulText (tools : EvidenceTools) (before evidence : JsonFields) (key : String)
    (text kept : List Char) (limit : Nat) : Prop where
  starts : kept <+: text
  bounded : byteLength kept ≤ limit
  marked_iff : evidence.field (truncatedKey key) = some (.bool true) ↔ kept ≠ text
  digest : kept ≠ text →
    evidence.field (digestKey key) = some (.str (tools.digest (String.ofList text)))
  longest : tools.NoneLonger before key text kept limit

/-- The text that is kept of a field is true to the value given for it, or is displaced. -/
def TextsHold (tools : EvidenceTools) (policies : List FieldPolicy) (values : EvidenceValues)
    (displaced : JsonFields → String → Prop) : Prop :=
  ∀ earlier key limit later, policies = earlier ++ (key, some limit) :: later →
    ∀ value, values.given key = some value →
      ∀ kept, (tools.project values policies).field key = some (.str kept) →
        TruthfulText tools (tools.project values earlier) (tools.project values policies) key
            (tools.safeText value).toList kept.toList limit ∨
          displaced (tools.project values policies) key

namespace EvidenceTools

variable {tools : EvidenceTools} {values : EvidenceValues} {policies : List FieldPolicy}

theorem listValue_eq_none {key : String} (hkeys : key ≠ "receipt_semantics" ∧ key ≠ "lineage")
    (value : EvidenceValue) : value.listValue key = none := by
  cases value with
  | list items => rw [EvidenceValue.listValue, if_neg hkeys.1, if_neg hkeys.2]
  | _ => rfl

theorem TruthfulText.of_same {before after evidence : JsonFields} {key : String}
    {text kept : List Char} {limit : Nat}
    (htruthful : TruthfulText tools before after key text kept limit)
    (hmark : evidence.field (truncatedKey key) = after.field (truncatedKey key))
    (hdigest : evidence.field (digestKey key) = after.field (digestKey key)) :
    TruthfulText tools before evidence key text kept limit where
  starts := htruthful.starts
  bounded := htruthful.bounded
  marked_iff := by rw [hmark]; exact htruthful.marked_iff
  digest hcut := by rw [hdigest]; exact htruthful.digest hcut
  longest := htruthful.longest

theorem TextTurn.truthful {before after : JsonFields} {key : String} {text : List Char}
    {limit : Nat} {kept : String} (hturn : TextTurn tools before key text limit after)
    (hkey : before.field key = none) (hmark : before.field (truncatedKey key) = none)
    (hkept : after.field key = some (.str kept)) :
    TruthfulText tools before after key text kept.toList limit := by
  cases hturn with
  | whole hlimit hfits =>
    rw [withPrefix_self, JsonFields.field_set_self] at hkept
    cases hkept
    rw [String.toList_ofList]
    refine ⟨List.prefix_refl text, hlimit, ?_, fun hcut => absurd rfl hcut, ?_⟩
    · rw [withPrefix_self, JsonFields.field_set_ne (truncatedKey_ne key), hmark]
      exact iff_of_false (fun hnone => nomatch hnone) fun hcut => hcut rfl
    · intro longer hlonger hne hback _
      exact absurd (hback.eq_of_length_le hlonger.length_le) hne
  | @cut cutText hstarts hproper hlimit hlongest hfits =>
    rw [withPrefix_of_ne hproper, field_marked, if_neg (digestKey_ne key).symm,
      if_neg (truncatedKey_ne key).symm, JsonFields.field_set_self] at hkept
    cases hkept
    rw [String.toList_ofList]
    refine ⟨hstarts, hlimit, ?_, fun _ => ?_, hlongest⟩
    · rw [withPrefix_of_ne hproper, field_marked, if_neg (digestKey_ne_truncatedKey key).symm,
        if_pos rfl]
      exact iff_of_true rfl hproper
    · rw [withPrefix_of_ne hproper, field_marked, if_pos rfl]
  | marksOnly =>
    rw [field_marked, if_neg (digestKey_ne key).symm, if_neg (truncatedKey_ne key).symm,
      hkey] at hkept
    cases hkept
  | dropped =>
    rw [hkey] at hkept
    cases hkept

theorem FieldTurn.truthful {before after : JsonFields} {key : String} {limit : Nat}
    {value : EvidenceValue} {kept : String}
    (hturn : FieldTurn tools values before key (some limit) after)
    (hkeys : key ≠ "receipt_semantics" ∧ key ≠ "lineage")
    (hgiven : values.given key = some value) (hkey : before.field key = none)
    (hmark : before.field (truncatedKey key) = none)
    (hkept : after.field key = some (.str kept)) :
    TruthfulText tools before after key (tools.safeText value).toList kept.toList limit := by
  have hnone : before.field key ≠ some (.str kept) := by rw [hkey]; exact fun heq => nomatch heq
  cases hturn with
  | missing => exact absurd hkept hnone
  | text hown hlimit _ hturn =>
    cases hlimit
    cases hgiven.symm.trans hown
    exact hturn.truthful hkey hmark hkept
  | whole hown hvalue =>
    rcases hvalue with hlist | ⟨_, hlimit, _⟩
    · rw [listValue_eq_none hkeys] at hlist
      cases hlist
    · cases hlimit
  | tooLarge => exact absurd hkept hnone
  | noScalar => exact absurd hkept hnone

theorem field_before_eq_none (tools : EvidenceTools) (values : EvidenceValues)
    {earlier later : List FieldPolicy} {policy : FieldPolicy}
    (hpairs : (earlier ++ policy :: later).Pairwise Apart) :
    (tools.project values earlier).field policy.1 = none ∧
      (tools.project values earlier).field (truncatedKey policy.1) = none := by
  obtain ⟨_, _, hacross⟩ := List.pairwise_append.mp hpairs
  obtain ⟨_, _, hkeys⟩ := project_bounded tools values earlier
  have habsent : ∀ other, (∀ first ∈ earlier, ¬ Touches first.1 other) →
      (tools.project values earlier).field other = none := by
    intro other hother
    refine Option.not_isSome_iff_eq_none.mp fun hsome => ?_
    obtain ⟨first, hfirst, htouches⟩ := hkeys other (JsonFields.isSome_field_iff.mp hsome)
    exact hother first hfirst htouches
  have hapart : ∀ first ∈ earlier, ¬ Touches first.1 policy.1 ∧
      ¬ Touches first.1 (truncatedKey policy.1) := fun first hmem =>
    not_touches_later_of_apart (hacross first hmem policy List.mem_cons_self)
  exact ⟨habsent _ fun first hmem => (hapart first hmem).1,
    habsent _ fun first hmem => (hapart first hmem).2⟩

/-- Over an orderly list of fields, a text that is kept is true to what was given, unless the
digest of another field displaces it. -/
theorem textsHold_project (horderly : Orderly policies) :
    TextsHold tools policies values fun evidence key =>
      ∃ owner ∈ policies, DisplacedBy tools values evidence key owner := by
  rintro earlier key limit later rfl value hgiven kept hkept
  obtain ⟨hpairs, hlists⟩ := horderly
  obtain ⟨hkey, hmark⟩ := field_before_eq_none tools values hpairs
  obtain ⟨hown, hrest⟩ := List.pairwise_cons.mp (List.pairwise_append.mp hpairs).2.1
  have hdistinct := (project_bounded tools values earlier).1
  rw [project_append_cons] at hkept ⊢
  generalize tools.project values earlier = before at hdistinct hkey hmark hkept ⊢
  have hturn := fieldTurn_addField tools hdistinct values (key, some limit)
  have hnext := hturn.keeps.distinct hdistinct
  rcases field_or_displaced hnext hown hrest with hsame | ⟨owner, howner, hdisplaced⟩
  case inr =>
    exact .inr ⟨owner, List.mem_append_right _ (List.mem_cons_of_mem _ howner), hdisplaced⟩
  rw [hsame] at hkept
  refine .inl (TruthfulText.of_same (hturn.truthful ?_ hgiven hkey hmark hkept) ?_ ?_)
  · exact hlists (key, some limit) (List.mem_append_right _ List.mem_cons_self)
      fun hnone => nomatch hnone
  · exact field_projectOnto hnext fun policy hmem =>
      not_touches_truncatedKey_of_apart (hown policy hmem)
  · exact field_projectOnto hnext fun policy hmem =>
      not_touches_digestKey_of_apart (hown policy hmem)

end EvidenceTools

/-- The command was cut, and its digest stands in the field of the given digest. -/
def DigestDisplaced (tools : EvidenceTools) (kind : String) (values : EvidenceValues)
    (evidence : JsonFields) (key : String) : Prop :=
  kind = sudoCommandKind ∧ key = "command_sha256" ∧
    evidence.field "command_truncated" = some (.bool true) ∧
    ∃ command, values.given "command" = some command ∧
      evidence.field key = some (.str (tools.digest (tools.safeText command)))

theorem digestKey_fieldPolicies : ∀ entry ∈ fieldPolicies, ∀ first ∈ entry.2,
    ∀ owner ∈ entry.2, owner.2 ≠ none → digestKey owner.1 = first.1 →
      entry.1 = sudoCommandKind ∧ owner.1 = "command" ∧ first.2 = some 64 := by
  decide +kernel

/-- Evidence is built within its budget, of the fields of the kind and their marks only, and its
texts hold, unless they are displaced. -/
def EvidenceHolds (tools : EvidenceTools) (kind : String) (values : EvidenceValues)
    (displaced : JsonFields → String → Prop) : Prop :=
  ∃ policies evidence, fieldPolicies.lookup kind = some policies ∧
    evidence = tools.project values policies ∧ tools.buildEvidence kind values = .ok evidence ∧
    (Json.obj evidence).size ≤ evidenceBytes ∧
    (∀ key ∈ evidence.map Prod.fst, ∃ policy ∈ policies, Touches policy.1 key) ∧
    TextsHold tools policies values displaced

theorem mem_of_lookup_fieldPolicies {kind : String} {policies : List FieldPolicy}
    (hpolicies : fieldPolicies.lookup kind = some policies) : (kind, policies) ∈ fieldPolicies := by
  obtain ⟨before, after, hsplit, _⟩ := List.lookup_eq_some_iff.mp hpolicies
  rw [hsplit]
  exact List.mem_append_right _ List.mem_cons_self

theorem EvidenceTools.buildEvidence_of_lookup {tools : EvidenceTools} {kind : String} {policies : List FieldPolicy}
    (hpolicies : fieldPolicies.lookup kind = some policies) (values : EvidenceValues) :
    tools.buildEvidence kind values = .ok (tools.project values policies) := by
  have hfits := (EvidenceTools.project_bounded tools values policies).2.1
  simp only [EvidenceTools.buildEvidence, hpolicies, hfits, if_true]

/-- Evidence of a supported kind holds, but for the digest of a sudo command that is cut. -/
theorem evidenceHolds_of_supported (tools : EvidenceTools) {kind : String}
    (hkind : (fieldPolicies.lookup kind).isSome) (values : EvidenceValues) :
    EvidenceHolds tools kind values (DigestDisplaced tools kind values) := by
  obtain ⟨policies, hpolicies⟩ := Option.isSome_iff_exists.mp hkind
  have hmem := mem_of_lookup_fieldPolicies hpolicies
  obtain ⟨_, hfits, hkeys⟩ := EvidenceTools.project_bounded tools values policies
  refine ⟨policies, tools.project values policies, hpolicies, rfl, ?_, ?_, hkeys, ?_⟩
  · exact EvidenceTools.buildEvidence_of_lookup hpolicies values
  · exact of_decide_eq_true hfits
  · intro earlier key limit later hsplit value hgiven kept hkept
    have horderly := orderly_fieldPolicies (kind, policies) hmem
    refine (EvidenceTools.textsHold_project horderly earlier key limit later hsplit value hgiven
      kept hkept).imp_right ?_
    rintro ⟨owner, howner, htextual, hdigest, hmark, command, hcommand, htext⟩
    have hfield : (key, some limit) ∈ policies := by rw [hsplit]; simp
    obtain ⟨hsudo, hname, _⟩ := digestKey_fieldPolicies (kind, policies) hmem _ hfield owner howner
      htextual hdigest
    rw [hname] at hdigest hmark hcommand
    exact ⟨hsudo, hdigest.symm, hmark, command, hcommand, htext⟩

def cutCommandTools : EvidenceTools where
  digest _ := "daacb85e10dc2d3d0aea68ffc3a20ce205f66402e8cf21ffa814140ea3bcec04"
  digest_isDigest _ := by decide +kernel
  shown _ := []

def openedSession : EvidenceValues := fun key =>
  if key = "target_user" then some (.text (.ofString "deploy")) else none

theorem evidenceHolds_openedSession :
    EvidenceHolds cutCommandTools "auth.session_open" openedSession
      (DigestDisplaced cutCommandTools "auth.session_open" openedSession) :=
  evidenceHolds_of_supported _ (by decide) _

/-- A command of more bytes than its field may have, beside a digest that is not its own. -/
def cutCommand : EvidenceValues := fun key =>
  if key = "command" then some (.text (List.replicate 513 (.char '😀')))
  else if key = "command_sha256" then some (.text (.ofString "abc"))
  else none

theorem project_cutCommand :
    cutCommandTools.project cutCommand sudoIdentityPolicies = [("command_sha256", .str "abc")] := by
  rfl

theorem byteLength_cutCommand : 2048 < byteLength (cutCommandTools.safeText
    (.text (List.replicate 513 (.char '😀')))).toList := by
  have hsize : '😀'.utf8Size = 4 := by decide
  simp only [EvidenceTools.safeText, RawText.safeText, String.toList_ofList, byteLength,
    List.filter_replicate, decide_not, Bool.not_eq_true', decide_eq_false_iff_not]
  rw [if_pos (by decide), List.map_replicate, List.map_replicate, List.sum_replicate_nat]
  simp only [RawText.replaced, hsize]
  decide

theorem marks_cutCommand :
    (cutCommandTools.project cutCommand sudoCommandPolicies).field "command_truncated" =
        some (.bool true) ∧
      (cutCommandTools.project cutCommand sudoCommandPolicies).field "command_sha256" =
        some (.str (cutCommandTools.digest "")) := by
  have hdistinct := (EvidenceTools.project_bounded cutCommandTools cutCommand
    sudoIdentityPolicies).1
  have hgiven : cutCommand.given "command" =
      some (.text (List.replicate 513 (.char '😀'))) := rfl
  rw [sudoCommandPolicies, EvidenceTools.project_append_cons,
    EvidenceTools.addField_text cutCommandTools _ hgiven rfl]
  rw [project_cutCommand] at hdistinct ⊢
  have hturn := cutCommandTools.textTurn_addText "command" (cutCommandTools.safeText
    (.text (List.replicate 513 (.char '😀')))).toList 2048 hdistinct
  have hnext := hturn.keeps.distinct hdistinct
  rw [EvidenceTools.field_projectOnto hnext (by decide +kernel),
    EvidenceTools.field_projectOnto hnext (by decide +kernel)]
  exact hturn.field_of_marked (.inl byteLength_cutCommand) (by decide +kernel)

theorem not_evidenceHolds :
    ¬ EvidenceHolds cutCommandTools sudoCommandKind cutCommand fun _ _ => False := by
  rintro ⟨policies, evidence, hpolicies, _, _, _, _, htexts⟩
  cases hpolicies
  have htruthful := (htexts (sudoIdentityPolicies.take 18) "command_sha256" 64
    (("command", some 2048) :: sudoProofPolicies) rfl (.text (.ofString "abc")) rfl _
      marks_cutCommand.2).resolve_right id
  have hstarts := htruthful.starts.length_le
  revert hstarts
  decide +kernel

end DjangoMojo.Sensor
