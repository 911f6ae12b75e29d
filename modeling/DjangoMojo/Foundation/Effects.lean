/-! # Functions that change a state and may raise

What was done before an exception stays done. A triple says what holds after a
function that returns and what is left by one that raises.
-/

namespace DjangoMojo.Foundation

/-- A function that changes a state and returns a value or raises. -/
def Effect (State Error Value : Type) := State → Except Error Value × State

namespace Effect

variable {State Error First Second Item : Type}

instance : Monad (Effect State Error) where
  pure value := fun state => (.ok value, state)
  bind first next := fun state =>
    match first state with
    | (.ok value, after) => next value after
    | (.error error, after) => (.error error, after)

def fail (error : Error) : Effect State Error First := fun state => (.error error, state)

/-- A value that is computed from nothing but its arguments. -/
def lift (result : Except Error First) : Effect State Error First := fun state => (result, state)

def read (view : State → First) : Effect State Error First := fun state => (.ok (view state), state)

def change (next : State → State) : Effect State Error Unit := fun state => (.ok (), next state)

/-- Started in a state before, the function returns in a state after or raises in a
failed one. -/
def Triple (before : State → Prop) (action : Effect State Error First)
    (after : First → State → Prop) (failed : State → Prop) : Prop :=
  ∀ state, before state → match action state with
    | (.ok value, next) => after value next
    | (.error _, next) => failed next

namespace Triple

variable {before : State → Prop} {failed : State → Prop}

theorem pure {after : First → State → Prop} {value : First}
    (hafter : ∀ state, before state → after value state) :
    Triple before (Pure.pure value : Effect State Error First) after failed := hafter

theorem fail {after : First → State → Prop} {error : Error}
    (hfailed : ∀ state, before state → failed state) :
    Triple before (Effect.fail error) after failed := hfailed

theorem lift {after : First → State → Prop} {result : Except Error First}
    (hok : ∀ value, result = .ok value → ∀ state, before state → after value state)
    (herror : ∀ error, result = .error error → ∀ state, before state → failed state) :
    Triple before (Effect.lift result) after failed := by
  intro state hbefore
  cases result with
  | ok value => exact hok value rfl state hbefore
  | error error => exact herror error rfl state hbefore

theorem read {after : First → State → Prop} {view : State → First}
    (hafter : ∀ state, before state → after (view state) state) :
    Triple before (Effect.read view : Effect State Error First) after failed := hafter

theorem change {after : Unit → State → Prop} {next : State → State}
    (hafter : ∀ state, before state → after () (next state)) :
    Triple before (Effect.change next : Effect State Error Unit) after failed := hafter

theorem bind {middle : First → State → Prop} {after : Second → State → Prop}
    {first : Effect State Error First} {next : First → Effect State Error Second}
    (hfirst : Triple before first middle failed)
    (hnext : ∀ value, Triple (middle value) (next value) after failed) :
    Triple before (first >>= next) after failed := by
  intro state hbefore
  have hmiddle := hfirst state hbefore
  change match (match first state with
    | (.ok value, afterFirst) => next value afterFirst
    | (.error error, afterFirst) => (.error error, afterFirst)) with
    | (.ok value, last) => after value last
    | (.error _, last) => failed last
  split at hmiddle
  next value afterFirst _ => exact hnext value afterFirst hmiddle
  next => exact hmiddle

theorem through (middle : First → State → Prop) {after : Second → State → Prop}
    {first : Effect State Error First} {next : First → Effect State Error Second}
    (hfirst : Triple before first middle failed)
    (hnext : ∀ value, Triple (middle value) (next value) after failed) :
    Triple before (first >>= next) after failed :=
  bind hfirst hnext

theorem weaken {weaker : State → Prop} {after stronger : First → State → Prop}
    {left : State → Prop} {action : Effect State Error First}
    (htriple : Triple weaker action stronger left)
    (hbefore : ∀ state, before state → weaker state)
    (hafter : ∀ value state, stronger value state → after value state)
    (hfailed : ∀ state, left state → failed state) : Triple before action after failed := by
  intro state hstate
  have hrun := htriple state (hbefore state hstate)
  split at hrun
  next value next hok => simpa only [hok] using hafter value next hrun
  next error next herror => simpa only [herror] using hfailed next hrun

theorem post {after stronger : First → State → Prop} {action : Effect State Error First}
    (htriple : Triple before action stronger failed)
    (hafter : ∀ value state, stronger value state → after value state) :
    Triple before action after failed :=
  htriple.weaken (fun _ hstate => hstate) hafter fun _ hstate => hstate

theorem and {alongside left : State → Prop} {after other : First → State → Prop}
    {action : Effect State Error First} (hfirst : Triple before action after failed)
    (hsecond : Triple alongside action other left) :
    Triple (fun state => before state ∧ alongside state) action
      (fun value state => after value state ∧ other value state) failed := by
  rintro state ⟨hbefore, halongside⟩
  have hone := hfirst state hbefore
  have htwo := hsecond state halongside
  cases hrun : action state with
  | mk result next =>
    rw [hrun] at hone htwo
    cases result with
    | ok value => exact ⟨hone, htwo⟩
    | error _ => exact hone

theorem given {fact : Prop} {after : First → State → Prop} {action : Effect State Error First}
    (hgiven : fact → Triple before action after failed) :
    Triple (fun state => before state ∧ fact) action after failed :=
  fun state hbefore => hgiven hbefore.2 state hbefore.1

theorem fact {fact : Prop} {action : Effect State Error First} :
    Triple (fun _ => fact) action (fun _ _ => fact) (fun _ => True) := by
  intro state hfact
  split
  next => exact hfact
  next => trivial

theorem of_run {after : First → State → Prop} {action : Effect State Error First} {state next : State}
    {value : First} (htriple : Triple before action after failed) (hbefore : before state)
    (hrun : action state = (.ok value, next)) : after value next := by
  have hafter := htriple state hbefore
  rw [hrun] at hafter
  exact hafter

theorem forM {items : List Item} {step : Item → Effect State Error Unit}
    {after : List Item → State → Prop}
    (hstep : ∀ visited item rest, items = visited ++ item :: rest →
      Triple (after visited) (step item) (fun _ => after (visited ++ [item])) failed) :
    Triple (after []) (items.forM step) (fun _ => after items) failed := by
  suffices hfrom : ∀ rest visited, items = visited ++ rest →
      Triple (after visited) (rest.forM step) (fun _ => after items) failed from
    hfrom items [] rfl
  intro rest
  induction rest with
  | nil =>
    intro visited heq
    rw [List.append_nil] at heq
    exact heq ▸ fun _ hstate => hstate
  | cons item rest ih =>
    intro visited heq
    refine bind (hstep visited item rest heq) fun _ => ?_
    exact ih (visited ++ [item]) (by simpa using heq)

theorem forM_invariant {items : List Item} {step : Item → Effect State Error Unit}
    (hstep : ∀ item ∈ items, Triple before (step item) (fun _ => before) failed) :
    Triple before (items.forM step) (fun _ => before) failed :=
  @forM State Error Item failed items step (fun _ => before) fun visited item _ heq =>
    hstep item (heq ▸ List.mem_append_right visited List.mem_cons_self)

theorem returns {after : First → State → Prop} {action : Effect State Error First} {state : State}
    (htriple : Triple before action after fun _ => False) (hbefore : before state) :
    ∃ value next, action state = (.ok value, next) ∧ after value next := by
  have hrun := htriple state hbefore
  split at hrun
  next value next hok => exact ⟨value, next, hok, hrun⟩
  next => exact hrun.elim

end Triple

/-! ### Runs -/

theorem bind_of_ok {first : Effect State Error First} {next : First → Effect State Error Second}
    {state between : State} {value : First} (hfirst : first state = (.ok value, between)) :
    (first >>= next) state = next value between := by
  change (match first state with
    | (.ok value, between) => next value between
    | (.error error, between) => (.error error, between)) = _
  rw [hfirst]

theorem bind_of_error {first : Effect State Error First} {next : First → Effect State Error Second}
    {state between : State} {error : Error} (hfirst : first state = (.error error, between)) :
    (first >>= next) state = (.error error, between) := by
  change (match first state with
    | (.ok value, between) => next value between
    | (.error error, between) => (.error error, between)) = _
  rw [hfirst]

theorem bind_run_ok {first : Effect State Error First} {next : First → Effect State Error Second}
    {state after : State} {value : Second} :
    (first >>= next) state = (.ok value, after) ↔
      ∃ middle between, first state = (.ok middle, between) ∧
        next middle between = (.ok value, after) := by
  cases hfirst : first state with
  | mk result between =>
    cases result with
    | ok middle =>
      rw [bind_of_ok hfirst]
      constructor
      · exact fun hnext => ⟨middle, between, rfl, hnext⟩
      · rintro ⟨_, _, heq, hnext⟩
        cases heq
        exact hnext
    | error error =>
      rw [bind_of_error hfirst]
      exact iff_of_false (fun heq => nomatch heq) fun ⟨_, _, heq, _⟩ => nomatch heq

end Effect

end DjangoMojo.Foundation
