import DjangoMojo.Geofence.DecisionCache

/-! # Tightening a geofence

Edits of the configuration that ask for more, one at a time, and what they do to a decision that
is not taken from the cache.
-/

namespace DjangoMojo.Geofence

open Foundation

/-! ### Rules -/

namespace Rule

/-- A matcher or the abuse flags ask for more: a value less in an `in` list, a value more in a
`not_in` list, or one entry more. -/
inductive BodyTightens : JsonFields → JsonFields → Prop
  | removeIn (front back : JsonFields) (values more : List Json) (value : Json) :
      BodyTightens (front ++ ("in", .arr (values ++ value :: more)) :: back)
        (front ++ ("in", .arr (values ++ more)) :: back)
  | addNotIn (front back : JsonFields) (values more : List Json) (value : Json) :
      BodyTightens (front ++ ("not_in", .arr (values ++ more)) :: back)
        (front ++ ("not_in", .arr (values ++ value :: more)) :: back)
  | addEntry (front back : JsonFields) (name : String) (operand : Json) :
      BodyTightens (front ++ back) (front ++ (name, operand) :: back)

/-- A rule asks for more inside one of its fields, or in a field that it did not have. -/
inductive Tightens : JsonFields → JsonFields → Prop
  | within (front back : JsonFields) (field : String) {old new : JsonFields}
      (hbody : BodyTightens old new) :
      Tightens (front ++ (field, .obj old) :: back) (front ++ (field, .obj new) :: back)
  | addField (front back : JsonFields) (field : String) (new : JsonFields)
      (habsent : (front ++ back).lookup field = none) :
      Tightens (front ++ back) (front ++ (field, .obj new) :: back)

variable {upper : String → String} {geo : Geo} {old new rule stricter : JsonFields}

/-- An entry of the old body that an entry of the new one implies. -/
inductive Implied (new : JsonFields) : String × Json → Prop
  | kept {entry : String × Json} (hentry : entry ∈ new) : Implied new entry
  | fewer {values more : List Json} (htexts : texts (.arr values) ⊆ texts (.arr more))
      (hentry : ("in", .arr values) ∈ new) : Implied new ("in", .arr more)
  | more {values more : List Json} (htexts : texts (.arr values) ⊆ texts (.arr more))
      (hentry : ("not_in", .arr more) ∈ new) : Implied new ("not_in", .arr values)

theorem texts_subset (values more : List Json) (value : Json) :
    texts (.arr (values ++ more)) ⊆ texts (.arr (values ++ value :: more)) := by
  have hsublist : (values ++ more).Sublist (values ++ value :: more) :=
    (List.sublist_cons_self value more).append_left values
  exact (hsublist.filterMap _).subset

theorem BodyTightens.implied (hbody : BodyTightens old new) {entry : String × Json}
    (hentry : entry ∈ old) : Implied new entry := by
  cases hbody with
  | removeIn front back values more value =>
    rcases List.mem_append.mp hentry with hfront | hrest
    · exact .kept (List.mem_append_left _ hfront)
    · rcases List.mem_cons.mp hrest with rfl | hback
      · exact .fewer (texts_subset values more value) (by simp)
      · exact .kept (List.mem_append_right _ (List.mem_cons_of_mem _ hback))
  | addNotIn front back values more value =>
    rcases List.mem_append.mp hentry with hfront | hrest
    · exact .kept (List.mem_append_left _ hfront)
    · rcases List.mem_cons.mp hrest with rfl | hback
      · exact .more (texts_subset values more value) (by simp)
      · exact .kept (List.mem_append_right _ (List.mem_cons_of_mem _ hback))
  | addEntry front back name operand =>
    have hsublist : (front ++ back).Sublist (front ++ (name, operand) :: back) :=
      (List.sublist_cons_self _ back).append_left front
    exact .kept (hsublist.subset hentry)

theorem BodyTightens.matcherPasses_of (hbody : BodyTightens old new) {value : String}
    (hpasses : matcherPasses upper new value = true) : matcherPasses upper old value = true := by
  unfold matcherPasses at hpasses ⊢
  rw [List.all_eq_true] at hpasses ⊢
  intro entry hentry
  cases hbody.implied hentry with
  | kept hkept => exact hpasses entry hkept
  | fewer htexts hfewer =>
    have hmem := hpasses _ hfewer
    simp only [if_true, decide_eq_true_eq] at hmem ⊢
    exact List.map_subset upper htexts hmem
  | more htexts hmore =>
    have hmem := hpasses _ hmore
    simp only [String.reduceEq, if_false, if_true, decide_eq_true_eq] at hmem ⊢
    exact fun hother => hmem (List.map_subset upper htexts hother)

theorem BodyTightens.tripped_of (hbody : BodyTightens old new)
    (hpasses : tripped geo new = none) : tripped geo old = none := by
  unfold tripped at hpasses ⊢
  rw [Option.map_eq_none_iff, List.find?_eq_none] at hpasses ⊢
  intro entry hentry
  cases hbody.implied hentry with
  | kept hkept => exact hpasses entry hkept
  | fewer _ _ => exact Bool.false_ne_true
  | more _ _ => exact Bool.false_ne_true

/-- One field of a rule has changed, and to more. -/
theorem Tightens.body_cases (htightens : Tightens rule stricter) (key : String) :
    body stricter key = body rule key ∨
      body rule key = [] ∨ BodyTightens (body rule key) (body stricter key) := by
  cases htightens with
  | @within front back field old new hbody =>
    unfold body
    rw [List.lookup_append, List.lookup_append]
    cases front.lookup key with
    | some value =>
      rw [Option.some_or, Option.some_or]
      exact .inl rfl
    | none =>
      by_cases hkey : key = field
      · subst hkey
        simp only [List.lookup_cons_self, Option.none_or]
        exact .inr (.inr hbody)
      · have hne : (key == field) = false := beq_false_of_ne hkey
        rw [List.lookup_cons, List.lookup_cons, hne]
        exact .inl rfl
  | addField front back field new habsent =>
    unfold body
    by_cases hkey : key = field
    · subst hkey
      rw [habsent]
      exact .inr (.inl rfl)
    · have hne : (key == field) = false := beq_false_of_ne hkey
      rw [List.lookup_append, List.lookup_append, List.lookup_cons, hne]
      exact .inl rfl

theorem Tightens.matcherPasses_of (htightens : Tightens rule stricter) (key : String)
    {value : String} (hpasses : matcherPasses upper (body stricter key) value = true) :
    matcherPasses upper (body rule key) value = true := by
  rcases htightens.body_cases key with hsame | hempty | hbody
  · rwa [← hsame]
  · rw [hempty]
    rfl
  · exact hbody.matcherPasses_of hpasses

theorem Tightens.tripped_of (htightens : Tightens rule stricter)
    (hpasses : tripped geo (body stricter "abuse") = none) :
    tripped geo (body rule "abuse") = none := by
  rcases htightens.body_cases "abuse" with hsame | hempty | hbody
  · rwa [← hsame]
  · rw [hempty]
    rfl
  · exact hbody.tripped_of hpasses

theorem evaluateRule_eq_none_iff : evaluateRule upper rule geo = none ↔
    matcherPasses upper (body rule "country") (upper (geo.countryCode.getD "")) = true ∧
      matcherPasses upper (body rule "region") (upper (geo.regionCode.getD "")) = true ∧
      tripped geo (body rule "abuse") = none := by
  have hvacuous : ∀ (matcher : JsonFields) (value : String),
      (!matcher.isEmpty && !matcherPasses upper matcher value) =
        !matcherPasses upper matcher value := by
    intro matcher value
    cases matcher <;> rfl
  unfold evaluateRule
  rw [hvacuous, hvacuous]
  cases matcherPasses upper (body rule "country") (upper (geo.countryCode.getD "")) with
  | false => simp
  | true =>
    cases matcherPasses upper (body rule "region") (upper (geo.regionCode.getD "")) with
    | false => simp
    | true => simp

theorem Tightens.evaluateRule_of (htightens : Tightens rule stricter)
    (hpasses : evaluateRule upper stricter geo = none) : evaluateRule upper rule geo = none := by
  rw [evaluateRule_eq_none_iff] at hpasses ⊢
  exact ⟨htightens.matcherPasses_of "country" hpasses.1,
    htightens.matcherPasses_of "region" hpasses.2.1, htightens.tripped_of hpasses.2.2⟩

theorem Tightens.ne_nil (htightens : Tightens rule stricter) : stricter ≠ [] := by
  cases htightens <;> simp

end Rule

theorem truthy_obj {fields : JsonFields} (hnonempty : fields ≠ []) :
    (Json.obj fields).truthy = true := by
  simpa [Json.truthy] using hnonempty

theorem Surroundings.isSome_blocks_of (fixed : Surroundings) {level : RuleLevel} {geo : Geo}
    {rule stricter : JsonFields} (htightens : Rule.Tightens rule stricter)
    (hvalid : Rule.validateRule (.obj rule) = true)
    (hblocks : (fixed.blocks level (.obj rule) geo).isSome = true) :
    (fixed.blocks level (.obj stricter) geo).isSome = true := by
  simp only [blocks, truthy_obj htightens.ne_nil, Bool.not_true, Bool.false_eq_true, if_false]
  cases hstill : Rule.validateRule (.obj stricter) with
  | false => rfl
  | true =>
    cases hevaluate : Rule.evaluateRule fixed.upper stricter geo with
    | some reason => rfl
    | none =>
      have hpasses := htightens.evaluateRule_of hevaluate
      simp [blocks, hvalid, hpasses] at hblocks

/-! ### Edits -/

/-- The rules of the system, and of every group, are accepted by `validate_rule`. -/
structure Config.Accepted (config : Config) : Prop where
  system : Rule.validateRule config.settings.systemRules = true
  groups : ∀ id, (config.groups id).rules.truthy = true →
    Rule.validateRule (config.groups id).rules = true

inductive Tightening : Config → Config → Prop
  | strictPosture (config : Config) :
      Tightening config ((Change.setting (.strictPosture true)).apply config)
  | groupStrict (config : Config) (id : Nat) :
      Tightening config
        ((Change.group id { config.groups id with strict := some true }).apply config)
  | failClosed (config : Config) :
      Tightening config ((Change.setting (.failClosed true)).apply config)
  | failClosedScope (config : Config) (front back : List String) (scope : String)
      (hscopes : config.settings.failClosedScopes = front ++ back) :
      Tightening config
        ((Change.setting (.failClosedScopes (front ++ scope :: back))).apply config)
  | forbidPrivate (config : Config) :
      Tightening config ((Change.setting (.allowPrivateIps false)).apply config)
  | removeEntry (config : Config) (front back : List AllowlistEntry) (entry : AllowlistEntry)
      (hentries : config.settings.allowlist = front ++ entry :: back) :
      Tightening config ((Change.setting (.allowlist (front ++ back))).apply config)
  | removeRow (config : Config) (ip : String) :
      Tightening config ((Change.whitelist ip none).apply config)
  | addGroupRule (config : Config) (id : Nat) (rule : Json)
      (hsystem : config.settings.systemRules.truthy = true)
      (habsent : (config.groups id).rules.truthy = false) :
      Tightening config
        ((Change.group id { config.groups id with rules := rule }).apply config)
  | systemRule (config : Config) {rule stricter : JsonFields}
      (hrule : config.settings.systemRules = .obj rule) (hnonempty : rule ≠ [])
      (htightens : Rule.Tightens rule stricter) :
      Tightening config ((Change.setting (.systemRules (.obj stricter))).apply config)
  | groupRule (config : Config) (id : Nat) {rule stricter : JsonFields}
      (hrule : (config.groups id).rules = .obj rule) (hnonempty : rule ≠ [])
      (htightens : Rule.Tightens rule stricter) :
      Tightening config
        ((Change.group id { config.groups id with rules := .obj stricter }).apply config)

/-! ### Denials -/

theorem Surroundings.not_allowed_of_blocks (fixed : Surroundings) {level : RuleLevel}
    {rule : Json} {geo : Geo} {decision : Decision}
    (hblocks : fixed.blocks level rule geo = some decision) : decision.allowed = false := by
  unfold blocks at hblocks
  split at hblocks
  next => cases hblocks
  next =>
    split at hblocks
    next =>
      cases hblocks
      rfl
    next =>
      split at hblocks
      next =>
        obtain ⟨reason, _, rfl⟩ := Option.map_eq_some_iff.mp hblocks
        rfl
      next => cases hblocks

/-- The decision of some level, where one of the levels blocks. -/
def Surroundings.levels (fixed : Surroundings) (system groupRules : Json) (geo : Geo) :
    Option Decision :=
  (fixed.blocks .system system geo).or (fixed.blocks .group groupRules geo)

theorem Surroundings.allowed_levels (fixed : Surroundings) (system groupRules : Json)
    (geo : Geo) : ((fixed.levels system groupRules geo).getD ⟨true, .passed, none⟩).allowed =
      !(fixed.levels system groupRules geo).isSome := by
  unfold levels
  cases hsystem : fixed.blocks .system system geo with
  | some decision => exact fixed.not_allowed_of_blocks hsystem
  | none =>
    cases hgroup : fixed.blocks .group groupRules geo with
    | some decision => exact fixed.not_allowed_of_blocks hgroup
    | none => rfl

namespace Config

variable {fixed : Surroundings} {now : Time} {request : Request} {config tighter : Config}

/-- What an edit that asks for more keeps, for one request. -/
structure Stricter (fixed : Surroundings) (now : Time) (request : Request)
    (config tighter : Config) : Prop where
  enabled : tighter.settings.enabled = config.settings.enabled
  empty : Inputs.bothEmpty tighter.settings.systemRules (tighter.groupRules request.group) =
    Inputs.bothEmpty config.settings.systemRules (config.groupRules request.group)
  strict : config.strict request.group = true → tighter.strict request.group = true
  exempt : tighter.ipAllowlisted now request.ip = true →
    config.ipAllowlisted now request.ip = true
  fails : config.fails request.scope = true → tighter.fails request.scope = true
  allowPrivate : tighter.settings.allowPrivateIps = true →
    config.settings.allowPrivateIps = true
  levels : ∀ geo,
    (fixed.levels config.settings.systemRules (config.groupRules request.group) geo).isSome →
    (fixed.levels tighter.settings.systemRules (tighter.groupRules request.group) geo).isSome

theorem Stricter.evaluate (hstricter : Stricter fixed now request config tighter)
    (hdenied : ((config.inputs now request.ip request.group).evaluate fixed request.ip
      (config.fails request.scope)).allowed = false) :
    ((tighter.inputs now request.ip request.group).evaluate fixed request.ip
      (tighter.fails request.scope)).allowed = false := by
  have hempty : Inputs.bothEmpty (tighter.inputs now request.ip request.group).system
      (tighter.inputs now request.ip request.group).groupRules =
        Inputs.bothEmpty (config.inputs now request.ip request.group).system
          (config.inputs now request.ip request.group).groupRules := hstricter.empty
  unfold Inputs.evaluate at hdenied ⊢
  rw [hempty]
  split
  next => rfl
  next hstays =>
    split at hdenied
    next hstrict =>
      rw [Bool.and_eq_true] at hstrict hstays
      exact absurd ⟨hstricter.strict hstrict.1, hstrict.2⟩ hstays
    next =>
      cases hgeo : fixed.geo request.ip with
      | none =>
        simp only [hgeo, Bool.not_eq_false', Bool.or_eq_true] at hdenied ⊢
        exact hdenied.imp hstricter.fails hstricter.strict
      | some geo =>
        simp only [hgeo] at hdenied ⊢
        split at hdenied
        next hcountry =>
          rw [if_pos hcountry]
          simp only [Bool.and_eq_false_iff, Bool.not_eq_false'] at hdenied ⊢
          refine hdenied.imp (fun hforbids => ?_) hstricter.strict
          exact Bool.eq_false_iff.mpr
            fun hallows => Bool.eq_false_iff.mp hforbids (hstricter.allowPrivate hallows)
        next hcountry =>
          rw [if_neg hcountry]
          change ((fixed.levels _ _ geo).getD _).allowed = false at hdenied
          change ((fixed.levels _ _ geo).getD _).allowed = false
          rw [fixed.allowed_levels, Bool.not_eq_false'] at hdenied ⊢
          exact hstricter.levels geo hdenied

theorem Stricter.denied (hstricter : Stricter fixed now request config tighter)
    (hdenied : (config.decide fixed now request).allowed = false) :
    (tighter.decide fixed now request).allowed = false := by
  unfold Config.decide early at hdenied ⊢
  rw [hstricter.enabled, hstricter.empty]
  split at hdenied
  next => cases hdenied
  next henabled =>
    rw [if_neg henabled]
    split at hdenied
    next => cases hdenied
    next hbypass =>
      rw [if_neg hbypass]
      split at hdenied
      next => cases hdenied
      next hrules =>
        have hstill : ¬ (Inputs.bothEmpty config.settings.systemRules
            (config.groupRules request.group) && !tighter.strict request.group) = true := by
          intro hloose
          refine hrules ?_
          rw [Bool.and_eq_true, Bool.not_eq_true'] at hloose ⊢
          exact ⟨hloose.1, Bool.eq_false_iff.mpr
            fun hstrict => Bool.eq_false_iff.mp hloose.2 (hstricter.strict hstrict)⟩
        rw [if_neg hstill]
        simp only [Option.getD_none, Inputs.decide] at hdenied ⊢
        split at hdenied
        next => cases hdenied
        next hexempt =>
          have hlisted : ¬ (tighter.inputs now request.ip request.group).exempt = true :=
            fun hlisted => hexempt (hstricter.exempt hlisted)
          rw [if_neg hlisted]
          exact hstricter.evaluate hdenied

theorem Stricter.of_fence {group : Nat} {fence : GroupFence}
    (hempty : Inputs.bothEmpty config.settings.systemRules fence.rules =
      Inputs.bothEmpty config.settings.systemRules (config.groups group).rules)
    (hstrict : (config.groups group).strict.getD config.settings.strictPosture = true →
      fence.strict.getD config.settings.strictPosture = true)
    (hlevels : ∀ geo,
      (fixed.levels config.settings.systemRules (config.groups group).rules geo).isSome →
      (fixed.levels config.settings.systemRules fence.rules geo).isSome) :
    Stricter fixed now request config ((Change.group group fence).apply config) := by
  by_cases hgroup : request.group = some group
  · refine ⟨rfl, ?_, ?_, id, id, id, ?_⟩
    all_goals
      simp only [Config.groupRules, Config.strict, Change.apply, hgroup, Function.update_self]
      assumption
  · have hrules : ((Change.group group fence).apply config).groupRules request.group =
        config.groupRules request.group := by
      cases hcase : request.group with
      | none => rfl
      | some other =>
        have hne : other ≠ group := fun heq => hgroup (hcase.trans (congrArg some heq))
        simp only [Config.groupRules, Change.apply, Function.update_of_ne hne]
    have hposture : ((Change.group group fence).apply config).strict request.group =
        config.strict request.group := by
      cases hcase : request.group with
      | none => rfl
      | some other =>
        have hne : other ≠ group := fun heq => hgroup (hcase.trans (congrArg some heq))
        simp only [Config.strict, Change.apply, Function.update_of_ne hne]
    refine ⟨rfl, ?_, ?_, id, id, id, ?_⟩
    · rw [hrules]
      rfl
    · rw [hposture]
      exact id
    · rw [hrules]
      exact fun _ hsome => hsome

end Config

/-- Every edit is stricter for every request. -/
theorem Tightening.stricter {config tighter : Config} (htightening : Tightening config tighter)
    (haccepted : config.Accepted) (fixed : Surroundings) (now : Time) (request : Request) :
    config.Stricter fixed now request tighter := by
  cases htightening with
  | strictPosture =>
    refine ⟨rfl, rfl, ?_, id, id, id, fun _ hsome => hsome⟩
    unfold Config.strict
    cases request.group with
    | none => exact fun _ => rfl
    | some id =>
      cases hoverride : (config.groups id).strict with
      | none =>
        simp only [Change.apply, Settings.write, hoverride]
        exact fun _ => rfl
      | some value =>
        simp only [Change.apply, hoverride]
        exact fun hstrict => hstrict
  | groupStrict id => exact .of_fence rfl (fun _ => rfl) fun _ hsome => hsome
  | failClosed => exact ⟨rfl, rfl, id, id, fun _ => rfl, id, fun _ hsome => hsome⟩
  | failClosedScope front back scope hscopes =>
    refine ⟨rfl, rfl, id, id, fun hfails => ?_, id, fun _ hsome => hsome⟩
    unfold Config.fails at hfails ⊢
    rw [Bool.or_eq_true] at hfails ⊢
    refine hfails.imp_right fun hlisted => ?_
    obtain ⟨wanted, hwanted, hmem⟩ := (Option.any_eq_true _ _).mp hlisted
    refine (Option.any_eq_true _ _).mpr ⟨wanted, hwanted, ?_⟩
    rw [hscopes, Bool.and_eq_true, decide_eq_true_eq, decide_eq_true_eq] at hmem
    rw [Bool.and_eq_true, decide_eq_true_eq, decide_eq_true_eq]
    exact ⟨hmem.1, ((List.sublist_cons_self scope back).append_left front).subset hmem.2⟩
  | forbidPrivate =>
    exact ⟨rfl, rfl, id, id, id, fun hallows => (Bool.false_ne_true hallows).elim,
      fun _ hsome => hsome⟩
  | removeEntry front back entry hentries =>
    refine ⟨rfl, rfl, id, ?_, id, id, fun _ hsome => hsome⟩
    simp only [Config.ipAllowlisted, Change.apply, Settings.write, hentries, Bool.and_eq_true,
      Bool.or_eq_true, List.any_append, List.any_cons]
    exact And.imp_right (Or.imp_left (Or.imp_right .inr))
  | removeRow ip =>
    refine ⟨rfl, rfl, id, ?_, id, id, fun _ hsome => hsome⟩
    simp only [Config.ipAllowlisted, Change.apply, Bool.and_eq_true, Bool.or_eq_true]
    refine And.imp_right (Or.imp_right fun hrow => ?_)
    by_cases hip : request.ip = ip
    · rw [hip, Function.update_self] at hrow
      cases hrow
    · rwa [Function.update_of_ne hip] at hrow
  | addGroupRule id rule hsystem habsent =>
    refine .of_fence ?_ (fun hstrict => hstrict) fun geo hsome => ?_
    · simp only [Inputs.bothEmpty, hsystem, Bool.not_true, Bool.false_and]
    · have hnone : fixed.blocks .group (config.groups id).rules geo = none := by
        simp only [Surroundings.blocks, habsent, Bool.not_false, if_true]
      unfold Surroundings.levels at hsome ⊢
      rw [hnone, Option.or_none] at hsome
      rw [Option.isSome_or, hsome, Bool.true_or]
  | @systemRule rule stricter hrule hnonempty htightens =>
    have hvalid := haccepted.system
    rw [hrule] at hvalid
    refine ⟨rfl, ?_, id, id, id, id, fun geo hsome => ?_⟩
    · simp only [Inputs.bothEmpty, Change.apply, Settings.write, hrule,
        truthy_obj htightens.ne_nil, truthy_obj hnonempty]
      rfl
    · unfold Surroundings.levels at hsome ⊢
      rw [Option.isSome_or, Bool.or_eq_true, hrule] at hsome
      rw [Option.isSome_or, Bool.or_eq_true]
      exact hsome.imp_left (fixed.isSome_blocks_of htightens hvalid)
  | @groupRule id rule stricter hrule hnonempty htightens =>
    have hvalid := haccepted.groups id
    rw [hrule] at hvalid
    have hvalid := hvalid (truthy_obj hnonempty)
    refine .of_fence ?_ (fun hstrict => hstrict) fun geo hsome => ?_
    · rw [hrule, Inputs.bothEmpty, Inputs.bothEmpty, truthy_obj htightens.ne_nil,
        truthy_obj hnonempty]
    · unfold Surroundings.levels at hsome ⊢
      rw [Option.isSome_or, Bool.or_eq_true, hrule] at hsome
      rw [Option.isSome_or, Bool.or_eq_true]
      exact hsome.imp_right (fixed.isSome_blocks_of htightens hvalid)

/-- `simulate`: an explicit record is taken in place of the lookup. -/
def Config.simulate (fixed : Surroundings) (config : Config) (now : Time) (ip : String)
    (geo : Option Geo) (group : Option Nat) (scope : Option String) : Decision :=
  if Inputs.bothEmpty config.settings.systemRules (config.groupRules group) &&
      !config.strict group then
    ⟨true, .noRules, none⟩
  else
    let looked : Surroundings := geo.elim fixed fun geo => { fixed with geo := fun _ => some geo }
    (config.inputs now ip group).decide looked ip (config.fails scope)

theorem Config.simulate_eq {config : Config} {request : Request} {geo : Option Geo}
    (fixed : Surroundings) (now : Time) (henabled : config.settings.enabled = true)
    (hbypass : request.bypass = false) (hgeo : ∀ known ∈ geo, fixed.geo request.ip = some known) :
    config.simulate fixed now request.ip geo request.group request.scope =
      config.decide fixed now request := by
  have hlooked : ∀ inputs : Inputs, ∀ fails : Bool,
      inputs.decide (geo.elim fixed fun geo => { fixed with geo := fun _ => some geo })
        request.ip fails = inputs.decide fixed request.ip fails := by
    intro inputs fails
    cases geo with
    | none => rfl
    | some known =>
      unfold Inputs.decide Inputs.evaluate
      simp only [Option.elim_some, hgeo known rfl]
      rfl
  unfold simulate Config.decide early
  simp only [henabled, hbypass, Bool.not_true, Bool.false_eq_true, if_false, hlooked]
  split <;> rfl

/-- No edit that asks for more lets in whom the rules kept out, and a simulation decides as a
check does. -/
theorem Config.tightening_keepsOut (fixed : Surroundings) {config : Config}
    (haccepted : config.Accepted) (now : Time) (request : Request) :
    (∀ tighter, Tightening config tighter → (config.decide fixed now request).allowed = false →
      (tighter.decide fixed now request).allowed = false) ∧
    (config.settings.enabled = true → request.bypass = false →
      ∀ geo : Option Geo, (∀ known ∈ geo, fixed.geo request.ip = some known) →
        config.simulate fixed now request.ip geo request.group request.scope =
          config.decide fixed now request) :=
  ⟨fun _ htightening => (htightening.stricter haccepted fixed now request).denied,
    fun henabled hbypass _ hgeo => simulate_eq fixed now henabled hbypass hgeo⟩

namespace Tightening

def homeOnly : Config where
  settings :=
    { enabled := true
      systemRules := .obj [("country", .obj [("in", .arr [.str "US"])])]
      allowlist := []
      strictPosture := false
      failClosed := false
      failClosedScopes := []
      allowPrivateIps := true
      cacheTtl := 300 }
  groups := fun _ => ⟨.obj [], none⟩
  whitelist := fun _ => none

def abroad : Surroundings where
  geo := fun _ => some ⟨some "FR", none, false, false, false, false⟩
  upper := String.toUpper

def visit : Request := ⟨"203.0.113.5", none, false, none⟩

theorem homeOnly_accepted : homeOnly.Accepted :=
  ⟨by decide +kernel, fun _ htruthy => (Bool.false_ne_true htruthy).elim⟩

theorem homeOnly_keepsOut :
    (Config.decide abroad ((Change.setting (.strictPosture true)).apply homeOnly) 0
      visit).allowed = false ∧
    homeOnly.simulate abroad 0 visit.ip none visit.group visit.scope =
      homeOnly.decide abroad 0 visit :=
  have hkeepsOut := Config.tightening_keepsOut abroad homeOnly_accepted 0 visit
  ⟨hkeepsOut.1 _ (.strictPosture homeOnly) (by decide +kernel),
    hkeepsOut.2 rfl rfl none fun _ hknown => nomatch hknown⟩

end Tightening

end DjangoMojo.Geofence
