import DjangoMojo.Foundation.Trace
import DjangoMojo.Geofence.DecisionCache

/-! # When cached decisions are current

A cached decision is current if it is what would be decided now. Changes that nothing announces,
the time among them, must leave the inputs of cached decisions alone, and a check must write what
it has decided while its inputs are still those of the moment.
-/

namespace DjangoMojo.Geofence

open Foundation

namespace World

/-! ### Statements -/

/-- Once no edit is under way, a check decides what it would decide without the cache. -/
def Current (fixed : Surroundings) (world : World) : Prop :=
  (∀ id, world.edits.get id = none) →
    ∀ request, world.check fixed request = world.config.decide fixed world.clock request

/-- An invalidation that is still to come removes the decision. -/
def Announced (world : World) (key : Key) : Prop :=
  ∃ id scope before, world.edits.get id = some (.invalidate scope before) ∧ scope.covers key

/-- The cached decisions that have not expired keep their inputs, or are announced to go. -/
def KeepsInputs (world next : World) : Prop :=
  ∀ key, (next.cached key).isSome → next.inputs key = world.inputs key ∨ world.Announced key

/-- Time, the deletion of a setting and the save of a group in code keep the inputs of what is
cached. A check that writes has used the inputs of this moment, unless its decision goes soon. -/
def Undisturbed (world : World) (label : Label) (next : World) : Prop :=
  match label with
  | .tick _ => world.KeepsInputs next
  | .edit id => ∀ change, world.edits.get id = some (.apply change false) →
      world.KeepsInputs next
  | .check id => ∀ check inputs fails ttl, world.checks.get id = some check →
      check.phase = .writing inputs fails ttl →
        inputs = world.inputs ⟨check.request.ip, check.request.group⟩ ∨
          world.Announced ⟨check.request.ip, check.request.group⟩
  | _ => True

/-! ### The invariant -/

variable {fixed : Surroundings} {world after : World}

/-- A cached decision is what the inputs of now decide, for every scope. -/
structure Sound (fixed : Surroundings) (world : World) : Prop where
  fresh : ∀ key decision, world.cached key = some decision →
    (∀ fails, (world.inputs key).decide fixed key.ip fails = decision) ∨ world.Announced key

theorem sound_start (config : Config) (clock : Time) : (start config clock).Sound fixed where
  fresh key decision hcached := by cases hcached

theorem Sound.quiet (hsound : world.Sound fixed) (hconfig : after.config = world.config)
    (hclock : after.clock = world.clock) (hcache : after.cache = world.cache)
    (hedits : ∀ id edit, world.edits.get id = some edit → after.edits.get id = some edit) :
    after.Sound fixed where
  fresh key decision hcached := by
    have hsame : after.cached key = world.cached key := by rw [cached, cached, hcache, hclock]
    rw [hsame] at hcached
    rw [inputs, hconfig, hclock]
    refine (hsound.fresh key decision hcached).imp_right ?_
    rintro ⟨id, scope, before, hedit, hcovers⟩
    exact ⟨id, scope, before, hedits id _ hedit, hcovers⟩

theorem Sound.keeps (hsound : world.Sound fixed) (hkeeps : world.KeepsInputs after)
    (hcached : ∀ key decision, after.cached key = some decision →
      world.cached key = some decision)
    (hannounced : ∀ key, world.Announced key → after.Announced key) : after.Sound fixed where
  fresh key decision hafter := by
    rcases hkeeps key (by rw [hafter]; rfl) with hinputs | hcovered
    · rw [hinputs]
      exact (hsound.fresh key decision (hcached key decision hafter)).imp_right (hannounced key)
    · exact .inr (hannounced key hcovered)

theorem Announced.kept {key : Key} (hannounced : world.Announced key) (id : Nat)
    (hothers : ∀ other, other ≠ id → after.edits.get other = world.edits.get other)
    (hedit : ∀ scope before, world.edits.get id = some (.invalidate scope before) →
      scope.covers key → after.Announced key) : after.Announced key := by
  obtain ⟨other, scope, before, hother, hcovers⟩ := hannounced
  by_cases heq : other = id
  · subst heq
    exact hedit scope before hother hcovers
  · exact ⟨other, scope, before, (hothers other heq).trans hother, hcovers⟩

theorem inputs_of_not_covers (config : Config) (now : Time) {change : Change} {key : Key}
    (hcovers : change.scope.covers key = false) :
    (change.apply config).inputs now key.ip key.group = config.inputs now key.ip key.group := by
  cases change with
  | setting value => cases hcovers
  | group id fence =>
    have hne : key.group ≠ some id := by simpa [Change.scope, Scope.covers] using hcovers
    cases hgroup : key.group with
    | none => rfl
    | some other =>
      have hother : other ≠ id := fun heq => hne (by rw [hgroup, heq])
      simp only [Config.inputs, Config.groupRules, Config.strict, Change.apply,
        Config.ipAllowlisted, Function.update_of_ne hother]
  | whitelist ip row =>
    have hne : key.ip ≠ ip := by simpa [Change.scope, Scope.covers] using hcovers
    simp only [Config.inputs, Change.apply, Config.groupRules, Config.strict,
      Config.ipAllowlisted, Function.update_of_ne hne]

/-! ### Steps -/

theorem cached_store (world : World) (key : Key) (decision : Decision) (ttl : Int) (other : Key) :
    (world.store key decision ttl).cached other =
      if decision.reason ≠ .lookupFailed ∧ 0 < ttl ∧ other = key then some decision
      else world.cached other := by
  unfold store
  by_cases hstored : decision.reason ≠ .lookupFailed ∧ 0 < ttl
  · rw [if_pos hstored]
    by_cases heq : other = key
    · subst heq
      have hlater : world.clock < world.clock + ttl := Int.lt_add_of_pos_right _ hstored.2
      rw [if_pos ⟨hstored.1, hstored.2, rfl⟩]
      simp only [cached, Function.update_self, Option.bind_some, if_pos hlater]
    · simp only [cached, Function.update_of_ne heq]
      rw [if_neg fun hboth => heq hboth.2.2]
  · rw [if_neg hstored, if_neg fun hboth => hstored ⟨hboth.1, hboth.2.1⟩]

theorem config_store (world : World) (key : Key) (decision : Decision) (ttl : Int) :
    (world.store key decision ttl).config = world.config ∧
      (world.store key decision ttl).clock = world.clock ∧
      (world.store key decision ttl).edits = world.edits := by
  unfold store
  split <;> exact ⟨rfl, rfl, rfl⟩

theorem Sound.write (hsound : world.Sound fixed) {key : Key} {inputs : Inputs} {fails : Bool}
    {ttl : Int} (hinputs : inputs = world.inputs key ∨ world.Announced key) :
    (world.store key (inputs.decide fixed key.ip fails) ttl).Sound fixed where
  fresh other decision hcached := by
    obtain ⟨hconfig, hclock, hedits⟩ :=
      config_store world key (inputs.decide fixed key.ip fails) ttl
    have hannounced : world.Announced other →
        (world.store key (inputs.decide fixed key.ip fails) ttl).Announced other := by
      rintro ⟨id, scope, before, hedit, hcovers⟩
      exact ⟨id, scope, before, by rw [hedits]; exact hedit, hcovers⟩
    rw [World.inputs, hconfig, hclock]
    rw [cached_store] at hcached
    split at hcached
    next hstored =>
      obtain ⟨hlookup, _, rfl⟩ := hstored
      cases hcached
      rcases hinputs with rfl | hcovered
      · exact .inl (Inputs.decide_congr hlookup)
      · exact .inr (hannounced hcovered)
    next => exact (hsound.fresh other decision hcached).imp_right hannounced

theorem Sound.proceed (hsound : world.Sound fixed) {id : Nat} {check : Check}
    (hclean : ∀ inputs fails ttl, check.phase = .writing inputs fails ttl →
      inputs = world.inputs ⟨check.request.ip, check.request.group⟩ ∨
        world.Announced ⟨check.request.ip, check.request.group⟩)
    (hnext : world.proceed fixed id check = some after) : after.Sound fixed := by
  have hquiet : ∀ next : Check, (world.setCheck id next).Sound fixed := fun next =>
    hsound.quiet rfl rfl rfl fun _ _ hedit => hedit
  unfold World.proceed at hnext
  cases hphase : check.phase with
  | resolving =>
    simp only [hphase] at hnext
    split at hnext
    all_goals
      cases hnext
      exact hquiet _
  | reading resolved =>
    simp only [hphase] at hnext
    split at hnext
    all_goals
      cases hnext
      exact hquiet _
  | deciding resolved =>
    simp only [hphase] at hnext
    cases hnext
    exact hquiet _
  | writing inputs fails ttl =>
    simp only [hphase] at hnext
    cases hnext
    exact (hsound.write (hclean inputs fails ttl hphase)).quiet rfl rfl rfl
      fun _ _ hedit => hedit
  | finished decision =>
    simp only [hphase] at hnext
    cases hnext

theorem Sound.carryOut (hsound : world.Sound fixed) {id : Nat} {edit : Edit}
    (hedit : world.edits.get id = some edit)
    (hclean : ∀ change, edit = .apply change false → world.KeepsInputs (world.carryOut id edit)) :
    (world.carryOut id edit).Sound fixed := by
  cases edit with
  | apply change announces =>
    -- an edit that is applied next announces nothing yet
    have hothers : ∀ key, ∀ next : World,
        (∀ other, other ≠ id → next.edits.get other = world.edits.get other) →
          world.Announced key → next.Announced key := by
      intro key next hothers hannounced
      refine hannounced.kept id hothers fun scope before hsame _ => ?_
      rw [hedit] at hsame
      cases hsame
    cases announces with
    | false =>
      refine hsound.keeps (hclean change rfl) (fun _ _ hcached => hcached) fun key => ?_
      refine hothers key _ fun other hne => ?_
      exact (Table.get_delete world.edits id other).trans (if_neg hne)
    | true =>
      refine ⟨fun key decision hcached => ?_⟩
      cases hcovers : change.scope.covers key with
      | true =>
        refine .inr ⟨id, change.scope, none, ?_, hcovers⟩
        exact (Table.get_put world.edits id _ id).trans (if_pos rfl)
      | false =>
        rw [World.inputs, World.carryOut, inputs_of_not_covers _ _ hcovers]
        refine (hsound.fresh key decision hcached).imp_right ?_
        refine hothers key _ fun other hne => ?_
        exact (Table.get_put world.edits id _ other).trans (if_neg hne)
  | invalidate scope before =>
    refine ⟨fun key decision hcached => ?_⟩
    have hcovers : scope.covers key = false := by
      cases hcase : scope.covers key with
      | false => rfl
      | true =>
        simp only [cached, World.carryOut, World.invalidate, hcase, if_true] at hcached
        cases hcached
    have hbefore : world.cached key = some decision := by
      simp only [cached, World.carryOut, World.invalidate, hcovers] at hcached
      exact hcached
    refine (hsound.fresh key decision hbefore).imp_right fun hannounced => ?_
    refine hannounced.kept id (fun other hne => ?_) fun other rest hsame hcovered => ?_
    · cases before with
      | none => exact (Table.get_delete world.edits id other).trans (if_neg hne)
      | some change => exact (Table.get_put world.edits id _ other).trans (if_neg hne)
    · rw [hedit] at hsame
      cases hsame
      rw [hcovers] at hcovered
      cases hcovered

theorem Sound.tick (hsound : world.Sound fixed) (elapsed : Nat)
    (hkeeps : world.KeepsInputs { world with clock := world.clock + elapsed }) :
    ({ world with clock := world.clock + elapsed } : World).Sound fixed := by
  refine hsound.keeps hkeeps (fun key decision hcached => ?_) fun _ hannounced => hannounced
  obtain ⟨entry, hentry, hdecision⟩ := Option.bind_eq_some_iff.mp hcached
  split at hdecision
  next hlater =>
    have hnow : world.clock < entry.expires :=
      Int.lt_of_le_of_lt (Int.le_add_of_nonneg_right (Int.natCast_nonneg elapsed)) hlater
    change world.cache key = some entry at hentry
    rw [cached, hentry, Option.bind_some, if_pos hnow]
    exact hdecision
  next => cases hdecision

theorem Sound.step (hsound : world.Sound fixed) {label : Label}
    (hclean : world.Undisturbed label after) (hnext : world.step fixed label = some after) :
    after.Sound fixed := by
  cases label with
  | begin id request =>
    simp only [World.step] at hnext
    split at hnext
    next => cases hnext
    next =>
      cases hnext
      exact hsound.quiet rfl rfl rfl fun _ _ hedit => hedit
  | check id =>
    obtain ⟨check, hcheck, hproceed⟩ := Option.bind_eq_some_iff.mp hnext
    exact hsound.proceed
      (fun inputs fails ttl => hclean check inputs fails ttl hcheck) hproceed
  | beginEdit id operation =>
    simp only [World.step] at hnext
    split at hnext
    next => cases hnext
    next hfree =>
      cases hnext
      refine hsound.quiet rfl rfl rfl fun other edit hedit => ?_
      have hne : other ≠ id := by
        rintro rfl
        rw [hedit] at hfree
        exact hfree rfl
      exact ((Table.get_put world.edits id _ other).trans (if_neg hne)).trans hedit
  | edit id =>
    obtain ⟨edit, hedit, rfl⟩ := Option.map_eq_some_iff.mp hnext
    refine hsound.carryOut hedit fun change heq => hclean change ?_
    rw [hedit, heq]
  | tick elapsed =>
    cases hnext
    exact hsound.tick elapsed hclean

def Decides (fixed : Surroundings) (world : World) (id : Nat) (check : Check)
    (decision : Decision) : Prop :=
  ∃ count last, run (step fixed) (world.setCheck id check) (List.replicate count (.check id)) =
    some last ∧ last.checks.get id = some { check with phase := .finished decision }

theorem get_setCheck (world : World) (id : Nat) (check : Check) :
    (world.setCheck id check).checks.get id = some check :=
  (Table.get_put world.checks id check id).trans (if_pos rfl)

theorem decides_finished (world : World) (id : Nat) (request : Request) (decision : Decision) :
    world.Decides fixed id ⟨request, .finished decision⟩ decision :=
  ⟨0, _, rfl, get_setCheck world id _⟩

theorem Decides.of_next {id : Nat} {request : Request} {phase next : Phase} {decision : Decision}
    (hdecides : after.Decides fixed id ⟨request, next⟩ decision)
    (hnext : (world.setCheck id ⟨request, phase⟩).proceed fixed id ⟨request, phase⟩ =
      some (after.setCheck id ⟨request, next⟩)) :
    world.Decides fixed id ⟨request, phase⟩ decision := by
  obtain ⟨count, last, hrun, hlast⟩ := hdecides
  refine ⟨count + 1, last, ?_, hlast⟩
  rw [List.replicate_succ, run, step, get_setCheck, Option.bind_some, hnext, Option.bind_some]
  exact hrun

theorem decides_writing (world : World) (id : Nat) (request : Request) (inputs : Inputs)
    (fails : Bool) (ttl : Int) :
    world.Decides fixed id ⟨request, .writing inputs fails ttl⟩
      (inputs.decide fixed request.ip fails) :=
  (decides_finished _ id request _).of_next rfl

theorem decides_deciding (world : World) (id : Nat) (request : Request) :
    world.Decides fixed id ⟨request, .deciding (world.resolved request)⟩
      ((world.inputs ⟨request.ip, request.group⟩).decide fixed request.ip
        (world.config.fails request.scope)) :=
  (decides_writing (world.setCheck id _) id request _ _ _).of_next rfl

theorem decides_reading (world : World) (id : Nat) (request : Request) :
    world.Decides fixed id ⟨request, .reading (world.resolved request)⟩
      ((world.cached ⟨request.ip, request.group⟩).getD
        ((world.inputs ⟨request.ip, request.group⟩).decide fixed request.ip
          (world.config.fails request.scope))) := by
  let reading : Check := ⟨request, .reading (world.resolved request)⟩
  have hsame : ∀ check, (world.setCheck id check).cached ⟨request.ip, request.group⟩ =
      world.cached ⟨request.ip, request.group⟩ := fun _ => rfl
  cases hcached : world.cached ⟨request.ip, request.group⟩ with
  | some decision =>
    refine (decides_finished (world.setCheck id reading) id request decision).of_next ?_
    simp only [proceed, hsame, hcached]
    rfl
  | none =>
    refine (decides_deciding (world.setCheck id reading) id request).of_next ?_
    simp only [proceed, hsame, hcached]
    rfl

theorem decides_check (fixed : Surroundings) (world : World) (id : Nat) (request : Request) :
    world.Decides fixed id ⟨request, .resolving⟩ (world.check fixed request) := by
  let resolving : Check := ⟨request, .resolving⟩
  have hsame : ∀ check, (world.setCheck id check).config.early request =
      world.config.early request := fun _ => rfl
  unfold check
  cases hearly : world.config.early request with
  | some decision =>
    refine (decides_finished (world.setCheck id resolving) id request decision).of_next ?_
    simp only [proceed, hsame, hearly]
    rfl
  | none =>
    by_cases hcaching : 0 < world.config.settings.cacheTtl
    · simp only [if_pos hcaching]
      refine (decides_reading (world.setCheck id resolving) id request).of_next ?_
      simp only [proceed, hsame, hearly]
      exact congrArg some (congrArg _ (congrArg _ (if_pos hcaching)))
    · simp only [if_neg hcaching, Option.getD_none]
      refine (decides_deciding (world.setCheck id resolving) id request).of_next ?_
      simp only [proceed, hsame, hearly]
      exact congrArg some (congrArg _ (congrArg _ (if_neg hcaching)))

theorem Sound.current (hsound : world.Sound fixed) : world.Current fixed := by
  intro hnone request
  unfold check Config.decide
  cases hearly : world.config.early request with
  | some decision => rfl
  | none =>
    rw [Option.getD_none]
    by_cases hcaching : 0 < world.config.settings.cacheTtl
    · simp only [if_pos hcaching]
      cases hcached : world.cached ⟨request.ip, request.group⟩ with
      | none => rfl
      | some decision =>
        rcases hsound.fresh _ decision hcached with hfresh | ⟨id, scope, before, hedit, _⟩
        · exact (hfresh (world.config.fails request.scope)).symm
        · rw [hnone id] at hedit
          cases hedit
    · simp only [if_neg hcaching]
      rfl

/-- In a run of undisturbed steps a check that starts while no edit is under way decides what it
would decide without the cache. -/
theorem current_of_undisturbed (fixed : Surroundings) (config : Config) (clock : Time)
    {labels : List Label}
    (hlabels : EachStep (step fixed) Undisturbed (start config clock) labels) :
    Always (step fixed) (Current fixed) (start config clock) labels := by
  have hstep : ∀ world label next, Sound fixed world → world.Undisturbed label next →
      step fixed world label = some next → Sound fixed next :=
    fun _ _ _ hsound hclean hnext => hsound.step hclean hnext
  exact (always_of_eachStep hstep (sound_start config clock) hlabels).imp fun _ => Sound.current

/-! ### Runs with one address -/

section Sample

def france : Surroundings := ⟨fun _ => some ⟨some "FR", none, false, false, false, false⟩, id⟩

/-- Only the United States are let in, and one network is exempt. -/
def exemption : Config where
  settings :=
    { enabled := true
      systemRules := .obj [("country", .obj [("in", .arr [.str "US"])])]
      allowlist := [⟨"203.0.113.0/24", .never⟩]
      strictPosture := false
      failClosed := false
      failClosedScopes := []
      allowPrivateIps := true
      cacheTtl := 300 }
  groups := fun _ => ⟨.obj [], none⟩
  whitelist := fun _ => none

def visit : Request := ⟨"203.0.113.7", none, false, none⟩

/-- A check resolves, finds nothing cached, decides and writes. -/
def checkOnce : List Label := [.begin 0 visit, .check 0, .check 0, .check 0, .check 0]

/-- The allowlist is saved anew after a check, and time goes on. -/
theorem current_saveAfterCheck :
    Always (step france) (Current france) (start exemption 0)
      (checkOnce ++ [.beginEdit 0 (.saveSetting (.allowlist [])), .edit 0, .edit 0, .tick 60]) := by
  refine current_of_undisturbed france exemption 0 ?_
  rintro _ ⟨⟩
  refine ⟨trivial, ?_⟩
  iterate 3
    rintro _ ⟨⟩
    refine ⟨by rintro _ _ _ _ ⟨⟩ ⟨⟩, ?_⟩
  -- the decision is written with the inputs of the moment
  rintro _ ⟨⟩
  refine ⟨by rintro _ _ _ _ ⟨⟩ ⟨⟩; exact .inl rfl, ?_⟩
  rintro _ ⟨⟩
  refine ⟨trivial, ?_⟩
  iterate 2
    rintro _ ⟨⟩
    refine ⟨by rintro _ ⟨⟩, ?_⟩
  rintro _ ⟨⟩
  refine ⟨fun key _ => .inl rfl, ?_⟩
  trivial

/-- The row of the allowlist is deleted: its decisions are removed, a check reads it once more and
caches what it decides, and then the row is gone. -/
theorem not_current_checkWithinDelete :
    ¬ Always (step france) (Current france) (start exemption 0)
      ([.beginEdit 0 (.deleteSetting (.allowlist [])), .edit 0] ++ checkOnce ++ [.edit 0]) := by
  refine not_always_of_run (fun world => !world.edits.keys.isEmpty ||
    decide (world.check france visit = world.config.decide france world.clock visit))
    (fun world hcurrent => ?_) (by decide +kernel)
  cases hedits : world.edits.keys with
  | cons id rest => rfl
  | nil =>
    have hnone : ∀ id, world.edits.get id = none := by
      intro id
      have hkey := world.edits.mem_keys id
      rw [hedits] at hkey
      simpa using hkey
    rw [hcurrent hnone visit]
    simp

end Sample

end World

end DjangoMojo.Geofence
