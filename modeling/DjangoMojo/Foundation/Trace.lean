import Mathlib.Data.List.Basic

/-! # Traces of a labelled transition system

A system is a partial step function: the label carries every choice the
environment makes, so a list of labels determines the states visited. A
disabled label ends the trace. Properties of runs are stated over all label
lists, and are reduced here to obligations about one step.
-/

namespace DjangoMojo.Foundation

universe uState uLabel

variable {State : Type uState} {Label : Type uLabel}
variable (step : State → Label → Option State)

/-- The state after a list of labels, when every label is enabled in turn. -/
def run : State → List Label → Option State
  | state, [] => some state
  | state, label :: rest => (step state label).bind fun next => run next rest

/-- Every state visited along the labels satisfies the predicate. -/
def Always (property : State → Prop) : State → List Label → Prop
  | state, [] => property state
  | state, label :: rest =>
    property state ∧ ∀ next, step state label = some next → Always property next rest

/-- Every step taken along the labels satisfies the predicate, which sees the
state before the step, the label, and the state after it. -/
def EachStep (property : State → Label → State → Prop) : State → List Label → Prop
  | _, [] => True
  | state, label :: rest => ∀ next, step state label = some next →
      property state label next ∧ EachStep property next rest

instance EachStep.decidable (property : State → Label → State → Prop)
    [∀ state label next, Decidable (property state label next)] :
    ∀ state labels, Decidable (EachStep step property state labels)
  | _, [] => isTrue trivial
  | state, label :: rest =>
    match hstep : step state label with
    | none => isTrue fun next hnext => by rw [hstep] at hnext; cases hnext
    | some next =>
      have := EachStep.decidable property next rest
      decidable_of_iff (property state label next ∧ EachStep step property next rest)
        ⟨fun hboth other hother => by
          rw [hstep] at hother
          cases hother
          exact hboth, fun heach => heach next hstep⟩

variable {step}

theorem Always.head {property : State → Prop} {state : State} {labels : List Label}
    (halways : Always step property state labels) : property state := by
  cases labels with
  | nil => exact halways
  | cons label rest => exact halways.1

theorem Always.imp {first second : State → Prop} (himp : ∀ state, first state → second state)
    {state : State} {labels : List Label} (halways : Always step first state labels) :
    Always step second state labels := by
  induction labels generalizing state with
  | nil => exact himp _ halways
  | cons label rest ih =>
    exact ⟨himp _ halways.1, fun next hnext => ih (halways.2 next hnext)⟩

theorem EachStep.imp {first second : State → Label → State → Prop}
    (himp : ∀ state label next, first state label next → second state label next)
    {state : State} {labels : List Label} (heach : EachStep step first state labels) :
    EachStep step second state labels := by
  induction labels generalizing state with
  | nil => trivial
  | cons label rest ih =>
    intro next hnext
    obtain ⟨hhead, htail⟩ := heach next hnext
    exact ⟨himp _ _ _ hhead, ih htail⟩

theorem EachStep.and {first second : State → Label → State → Prop} {state : State}
    {labels : List Label} (hfirst : EachStep step first state labels)
    (hsecond : EachStep step second state labels) :
    EachStep step (fun before label after => first before label after ∧ second before label after)
      state labels := by
  induction labels generalizing state with
  | nil => trivial
  | cons label rest ih =>
    intro next hnext
    obtain ⟨hhead, htail⟩ := hfirst next hnext
    obtain ⟨hother, hothers⟩ := hsecond next hnext
    exact ⟨⟨hhead, hother⟩, ih htail hothers⟩

/-- A relation that is reflexive and transitive and holds across every step holds
across a run. -/
theorem run_relates {relation : State → State → Prop} (hrefl : ∀ state, relation state state)
    (htrans : ∀ {first second third}, relation first second → relation second third →
      relation first third)
    (hstep : ∀ state label next, step state label = some next → relation state next)
    {labels : List Label} {state last : State} (hrun : run step state labels = some last) :
    relation state last := by
  induction labels generalizing state with
  | nil =>
    cases hrun
    exact hrefl _
  | cons label rest ih =>
    obtain ⟨next, hnext, hrest⟩ := Option.bind_eq_some_iff.mp hrun
    exact htrans (hstep state label next hnext) (ih hrest)

theorem exists_run {invariant : State → Prop} {labels : List Label}
    (hstep : ∀ label ∈ labels, ∀ state, invariant state →
      ∃ next, step state label = some next ∧ invariant next)
    {state : State} (hstate : invariant state) :
    ∃ last, run step state labels = some last ∧ invariant last := by
  induction labels generalizing state with
  | nil => exact ⟨state, rfl, hstate⟩
  | cons label rest ih =>
    obtain ⟨next, hnext, hinvariant⟩ := hstep label List.mem_cons_self state hstate
    obtain ⟨last, hlast, hend⟩ :=
      ih (fun other hother => hstep other (List.mem_cons_of_mem _ hother)) hinvariant
    refine ⟨last, ?_, hend⟩
    rw [run, hnext]
    exact hlast

/-- A property of every visited state is a property of the state any prefix
of the labels leads to. -/
theorem always_iff_forall_prefix {property : State → Prop} {state : State}
    {labels : List Label} :
    Always step property state labels ↔
      ∀ count last, run step state (labels.take count) = some last → property last := by
  induction labels generalizing state with
  | nil => simp [Always, run]
  | cons label rest ih =>
    constructor
    · rintro ⟨hhead, htail⟩ count last hrun
      cases count with
      | zero =>
        simp only [List.take_zero, run, Option.some.injEq] at hrun
        exact hrun ▸ hhead
      | succ count =>
        simp only [List.take_succ_cons, run, Option.bind_eq_some_iff] at hrun
        obtain ⟨next, hnext, hrun⟩ := hrun
        exact ih.mp (htail next hnext) count last hrun
    · intro hvisited
      refine ⟨hvisited 0 state rfl, fun next hnext => ih.mpr ?_⟩
      intro count last hrun
      apply hvisited (count + 1) last
      simp only [List.take_succ_cons, run, hnext, Option.bind_some]
      exact hrun

theorem Always.of_run {property : State → Prop} {state last : State} {labels : List Label}
    (halways : Always step property state labels) (hrun : run step state labels = some last) :
    property last :=
  always_iff_forall_prefix.mp halways labels.length last (by rwa [List.take_length])

theorem not_always_of_run {property : State → Prop} (check : State → Bool)
    (hcheck : ∀ state, property state → check state = true) {state : State}
    {labels : List Label}
    (hrun : (run step state labels).any (fun last => !check last) = true) :
    ¬ Always step property state labels := by
  intro halways
  rw [Option.any_eq_true] at hrun
  obtain ⟨last, hlast, hfails⟩ := hrun
  rw [hcheck last (halways.of_run hlast)] at hfails
  cases hfails

/-- The run rule. Along labels whose steps all meet `condition`, a predicate
that holds at the start and that such steps preserve holds in every state. -/
theorem always_of_eachStep {invariant : State → Prop}
    {condition : State → Label → State → Prop}
    (hstep : ∀ state label next, invariant state → condition state label next →
      step state label = some next → invariant next)
    {state : State} {labels : List Label} (hstart : invariant state)
    (hlabels : EachStep step condition state labels) :
    Always step invariant state labels := by
  induction labels generalizing state with
  | nil => exact hstart
  | cons label rest ih =>
    refine ⟨hstart, fun next hnext => ?_⟩
    obtain ⟨hcondition, hrest⟩ := hlabels next hnext
    exact ih (hstep state label next hstart hcondition hnext) hrest

theorem EachStep.of_step {property : State → Label → State → Prop}
    (hstep : ∀ state label next, step state label = some next → property state label next)
    (state : State) (labels : List Label) : EachStep step property state labels := by
  induction labels generalizing state with
  | nil => trivial
  | cons label rest ih => exact fun next hnext => ⟨hstep state label next hnext, ih next⟩

theorem EachStep.of_labels {property : Label → Prop} {labels : List Label}
    (hlabels : ∀ label ∈ labels, property label) (state : State) :
    EachStep step (fun _ label _ => property label) state labels := by
  induction labels generalizing state with
  | nil => trivial
  | cons label rest ih =>
    intro next _
    exact ⟨hlabels label List.mem_cons_self,
      ih (fun other hother => hlabels other (List.mem_cons_of_mem _ hother)) next⟩

/-- The run rule for a property of steps: the invariant, carried by steps that
meet the condition, decides each of them. -/
theorem EachStep.of_invariant {invariant : State → Prop}
    {condition property : State → Label → State → Prop}
    (hstep : ∀ state label next, invariant state → condition state label next →
      step state label = some next → invariant next ∧ property state label next)
    {state : State} {labels : List Label} (hstart : invariant state)
    (hlabels : EachStep step condition state labels) :
    EachStep step property state labels := by
  induction labels generalizing state with
  | nil => trivial
  | cons label rest ih =>
    intro next hnext
    obtain ⟨hcondition, hrest⟩ := hlabels next hnext
    obtain ⟨hinvariant, hproperty⟩ := hstep state label next hstart hcondition hnext
    exact ⟨hproperty, ih hinvariant hrest⟩

theorem always_of_inductive {invariant : State → Prop}
    (hstep : ∀ state label next, invariant state → step state label = some next →
      invariant next)
    {state : State} (hstart : invariant state) (labels : List Label) :
    Always step invariant state labels := by
  induction labels generalizing state with
  | nil => exact hstart
  | cons label rest ih => exact ⟨hstart, fun next hnext => ih (hstep _ _ _ hstart hnext)⟩

/-- Under an invariant two step predicates that agree stepwise agree along
every run. -/
theorem eachStep_congr (invariant : State → Prop)
    {first second : State → Label → State → Prop}
    (hstep : ∀ state label next, invariant state → step state label = some next →
      invariant next ∧ (first state label next ↔ second state label next))
    {state : State} (hstart : invariant state) (labels : List Label) :
    EachStep step first state labels ↔ EachStep step second state labels := by
  induction labels generalizing state with
  | nil => exact Iff.rfl
  | cons label rest ih =>
    refine forall₂_congr fun next hnext => ?_
    obtain ⟨hnextInvariant, hiff⟩ := hstep state label next hstart hnext
    exact and_congr hiff (ih hnextInvariant)

/-- Under an auxiliary invariant, if one step reaches a good state exactly when
it meets the condition, then all visited states are good exactly when all
steps meet the condition. -/
theorem always_iff_eachStep {invariant property : State → Prop}
    {condition : State → Label → State → Prop}
    (hinvariant : ∀ state label next, invariant state → step state label = some next →
      invariant next)
    (hstep : ∀ state label next, invariant state → property state →
      step state label = some next → (property next ↔ condition state label next))
    {state : State} (hstart : invariant state) (hgood : property state) (labels : List Label) :
    Always step property state labels ↔ EachStep step condition state labels := by
  induction labels generalizing state with
  | nil => exact iff_of_true hgood trivial
  | cons label rest ih =>
    constructor
    · rintro ⟨_, htail⟩ next hnext
      have hnextGood := (htail next hnext).head
      exact ⟨(hstep _ _ _ hstart hgood hnext).mp hnextGood,
        (ih (hinvariant _ _ _ hstart hnext) hnextGood).mp (htail next hnext)⟩
    · intro hlabels
      refine ⟨hgood, fun next hnext => ?_⟩
      obtain ⟨hcondition, hrest⟩ := hlabels next hnext
      have hnextGood := (hstep _ _ _ hstart hgood hnext).mpr hcondition
      exact (ih (hinvariant _ _ _ hstart hnext) hnextGood).mpr hrest

end DjangoMojo.Foundation

/-! ## What a state lets follow

A relation between every visited state and every state visited later. It is reduced to one
obligation about a step, which extends the relation from a state by one state more.
-/

namespace DjangoMojo.Foundation

universe uState uLabel

variable {State : Type uState} {Label : Type uLabel}

/-- Every visited state relates to every state that is visited from it on. -/
def Throughout (step : State → Label → Option State) (relation : State → State → Prop) :
    State → List Label → Prop
  | state, [] => Always step (relation state) state []
  | state, label :: rest =>
    Always step (relation state) state (label :: rest) ∧
      ∀ next, step state label = some next → Throughout step relation next rest

variable {step : State → Label → Option State}

theorem Throughout.imp {first second : State → State → Prop}
    (himp : ∀ state later, first state later → second state later) {state : State}
    {labels : List Label} (hfirst : Throughout step first state labels) :
    Throughout step second state labels := by
  induction labels generalizing state with
  | nil => exact Always.imp (himp state) hfirst
  | cons label rest ih =>
    exact ⟨Always.imp (himp state) hfirst.1, fun next hnext => ih (hfirst.2 next hnext)⟩

theorem Throughout.of_runs {relation : State → State → Prop} {state middle last : State}
    {labels more : List Label} (hall : Throughout step relation state (labels ++ more))
    (hmiddle : run step state labels = some middle) (hlast : run step middle more = some last) :
    relation middle last := by
  induction labels generalizing state with
  | nil =>
    cases hmiddle
    cases more with
    | nil => exact Always.of_run hall hlast
    | cons label rest => exact hall.1.of_run hlast
  | cons label rest ih =>
    obtain ⟨next, hnext, hrest⟩ := Option.bind_eq_some_iff.mp hmiddle
    exact ih (hall.2 next hnext) hrest

/-- The run rule. A state that meets the invariant relates to itself, and a step that meets
the condition extends the relation to the state it leads to. -/
theorem throughout_of_eachStep {invariant : State → Prop} {relation : State → State → Prop}
    {condition : State → Label → State → Prop}
    (hinvariant : ∀ state label next, invariant state → condition state label next →
      step state label = some next → invariant next)
    (hrefl : ∀ state, invariant state → relation state state)
    (hextend : ∀ first state label next, invariant state → relation first state →
      condition state label next → step state label = some next → relation first next)
    {state : State} {labels : List Label} (hstart : invariant state)
    (hlabels : EachStep step condition state labels) :
    Throughout step relation state labels := by
  have hhead (first : State) (hfirst : invariant first) {labels : List Label}
      (hlabels : EachStep step condition first labels) :
      Always step (relation first) first labels := by
    have hboth : Always step (fun later => invariant later ∧ relation first later) first labels :=
      always_of_eachStep (fun later label next hlater hcondition hnext =>
        ⟨hinvariant later label next hlater.1 hcondition hnext,
          hextend first later label next hlater.1 hlater.2 hcondition hnext⟩)
      ⟨hfirst, hrefl first hfirst⟩ hlabels
    exact hboth.imp fun later hlater => hlater.2
  induction labels generalizing state with
  | nil => exact hhead state hstart hlabels
  | cons label rest ih =>
    refine ⟨hhead state hstart hlabels, fun next hnext => ?_⟩
    obtain ⟨hcondition, hrest⟩ := hlabels next hnext
    exact ih (hinvariant state label next hstart hcondition hnext) hrest

end DjangoMojo.Foundation
