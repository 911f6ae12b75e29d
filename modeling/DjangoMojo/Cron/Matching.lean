import DjangoMojo.Foundation.Markers
import DjangoMojo.Foundation.PythonText
import Mathlib.Algebra.Order.Ring.Int

/-! # Cron fields

A field of a schedule is a list of terms. The matcher tries the terms in order, and a step
of zero makes it raise, which ends the search for the functions that are due.
-/

namespace DjangoMojo.Cron

open Foundation Markers

inductive Raised where
  | zeroDivision
  deriving DecidableEq, Repr

/-- `value % step` -/
def remainder (value step : Int) : Except Raised Int :=
  if step = 0 then .error .zeroDivision else .ok (value.fmod step)

section

variable (tables : TextTables)

/-- What a step says of a value whose distance from the start is given. -/
def onStep (distance step : Int) : Except Raised Bool :=
  (remainder distance step).map fun rest => rest = 0

/-- One round of the loop over the patterns: `true` returns, `false` goes on. -/
def matchesTerm (pattern : List Char) (actual : Int) : Except Raised Bool :=
  match splitOnce '/' pattern with
  | some (rangePart, step) =>
    match tables.int step with
    | none => .ok false
    | some stepValue =>
      if rangePart = ['*'] then onStep actual stepValue
      else
        match splitOnce '-' rangePart with
        | none => .ok false
        | some (start, stop) =>
          match tables.int start, tables.int stop with
          | some startVal, some endVal =>
            if startVal ≤ actual ∧ actual ≤ endVal then
              onStep (actual - startVal) stepValue
            else .ok false
          | _, _ => .ok false
  | none =>
    match splitOnce '-' pattern with
    | some (start, stop) =>
      match tables.int start, tables.int stop with
      | some startVal, some endVal => .ok (startVal ≤ actual ∧ actual ≤ endVal)
      | _, _ => .ok false
    | none => .ok (tables.int pattern = some actual)

def matchesAny (actual : Int) : List (List Char) → Except Raised Bool
  | [] => .ok false
  | pattern :: rest =>
    match matchesTerm tables pattern actual with
    | .ok true => .ok true
    | .ok false => matchesAny actual rest
    | .error error => .error error

def terms (cronValue : String) : List (List Char) :=
  (cronValue.toList.splitOn ',').map tables.strip

/-- `matches(cron_value, actual_value)` -/
def cronMatches (cronValue : String) (actual : Int) : Except Raised Bool :=
  if cronValue = "*" then .ok true else matchesAny tables actual (terms tables cronValue)

/-! ### The grammar -/

/-- The value is `n`, lies in `a-b`, or lies on a step in `*/s` or `a-b/s`. The first `-` of
a range is its sign, and steps go in either direction. -/
inductive IsNamed (actual : Int) : List Char → Prop
  | number {text : List Char} (hslash : '/' ∉ text) (hsign : '-' ∉ text)
      (hnumber : tables.int text = some actual) : IsNamed actual text
  | range {start stop : List Char} {low high : Int} (hslash : '/' ∉ start ++ '-' :: stop)
      (hsign : '-' ∉ start) (hstart : tables.int start = some low)
      (hstop : tables.int stop = some high) (hlow : low ≤ actual) (hhigh : actual ≤ high) :
      IsNamed actual (start ++ '-' :: stop)
  | step {text : List Char} {every : Int} (hstep : tables.int text = some every)
      (hevery : every ≠ 0) (hon : every ∣ actual) : IsNamed actual ('*' :: '/' :: text)
  | rangeStep {start stop text : List Char} {low high every : Int}
      (hslash : '/' ∉ start ++ '-' :: stop) (hsign : '-' ∉ start)
      (hstart : tables.int start = some low) (hstop : tables.int stop = some high)
      (hstep : tables.int text = some every) (hevery : every ≠ 0) (hlow : low ≤ actual)
      (hhigh : actual ≤ high) (hon : every ∣ actual - low) :
      IsNamed actual (start ++ '-' :: stop ++ '/' :: text)

/-- What a term denotes: everything, or the values that it names. -/
def Denotes (actual : Int) (term : List Char) : Prop := term = ['*'] ∨ IsNamed tables actual term

/-- The step of the term is zero, and the value is one that it is taken for. -/
inductive DividesByZero (actual : Int) : List Char → Prop
  | step {text : List Char} (hstep : tables.int text = some 0) :
      DividesByZero actual ('*' :: '/' :: text)
  | rangeStep {start stop text : List Char} {low high : Int}
      (hslash : '/' ∉ start ++ '-' :: stop) (hsign : '-' ∉ start)
      (hstart : tables.int start = some low) (hstop : tables.int stop = some high)
      (hstep : tables.int text = some 0) (hlow : low ≤ actual) (hhigh : actual ≤ high) :
      DividesByZero actual (start ++ '-' :: stop ++ '/' :: text)

end

section

variable {tables : TextTables} {actual : Int}

theorem onStep_eq_true {distance step : Int} :
    onStep distance step = .ok true ↔ step ≠ 0 ∧ step ∣ distance := by
  unfold onStep remainder
  split
  next hzero => simp [Except.map, hzero]
  next hne => simp [Except.map, hne, Int.dvd_iff_fmod_eq_zero]

theorem onStep_eq_error {distance step : Int} {error : Raised} :
    onStep distance step = .error error ↔ step = 0 := by
  cases error
  unfold onStep remainder
  split
  next hzero => simp [Except.map, hzero]
  next hne => simp [Except.map, hne]

theorem matchesTerm_of_plain {pattern : List Char} (hslash : '/' ∉ pattern) :
    matchesTerm tables pattern actual =
      match splitOnce '-' pattern with
      | some (start, stop) =>
        match tables.int start, tables.int stop with
        | some low, some high => .ok (low ≤ actual ∧ actual ≤ high)
        | _, _ => .ok false
      | none => .ok (tables.int pattern = some actual) := by
  rw [matchesTerm, splitOnce_eq_none_iff.mpr hslash]

theorem matchesTerm_step {text : List Char} {every : Int} (hstep : tables.int text = some every) :
    matchesTerm tables ('*' :: '/' :: text) actual = onStep actual every := by
  have hslash : splitOnce '/' ('*' :: '/' :: text) = some (['*'], text) :=
    splitOnce_eq_some_iff.mpr ⟨rfl, by decide⟩
  rw [matchesTerm, hslash]
  simp only [hstep, if_true]

theorem matchesTerm_rangeStep {start stop text : List Char} {low high every : Int}
    (hslash : '/' ∉ start ++ '-' :: stop) (hsign : '-' ∉ start)
    (hstart : tables.int start = some low) (hstop : tables.int stop = some high)
    (hstep : tables.int text = some every) (hlow : low ≤ actual) (hhigh : actual ≤ high) :
    matchesTerm tables (start ++ '-' :: stop ++ '/' :: text) actual =
      onStep (actual - low) every := by
  have hcut : splitOnce '/' (start ++ '-' :: stop ++ '/' :: text) =
      some (start ++ '-' :: stop, text) := splitOnce_eq_some_iff.mpr ⟨rfl, hslash⟩
  have hstar : start ++ '-' :: stop ≠ ['*'] := by
    intro heq
    have hmem : '-' ∈ ['*'] := by
      rw [← heq]
      exact List.mem_append_right _ List.mem_cons_self
    cases List.mem_singleton.mp hmem
  rw [matchesTerm, hcut]
  simp only [hstep, if_neg hstar, splitOnce_eq_some_iff.mpr ⟨rfl, hsign⟩, hstart, hstop]
  rw [if_pos ⟨hlow, hhigh⟩]

theorem matchesTerm_eq_true {pattern : List Char} :
    matchesTerm tables pattern actual = .ok true ↔ IsNamed tables actual pattern := by
  constructor
  · intro hmatch
    unfold matchesTerm at hmatch
    split at hmatch
    next rangePart step hslash =>
      obtain ⟨rfl, hnone⟩ := splitOnce_eq_some_iff.mp hslash
      split at hmatch
      next => cases hmatch
      next every hstep =>
        split at hmatch
        next hstar =>
          subst hstar
          obtain ⟨hevery, hon⟩ := onStep_eq_true.mp hmatch
          exact .step hstep hevery hon
        next =>
          split at hmatch
          next => cases hmatch
          next start stop hsign =>
            obtain ⟨rfl, hplain⟩ := splitOnce_eq_some_iff.mp hsign
            split at hmatch
            next low high hstart hstop =>
              split at hmatch
              next hrange =>
                obtain ⟨hevery, hon⟩ := onStep_eq_true.mp hmatch
                exact .rangeStep hnone hplain hstart hstop hstep hevery hrange.1
                  hrange.2 hon
              next => cases hmatch
            next => cases hmatch
    next hslash =>
      have hnone := splitOnce_eq_none_iff.mp hslash
      split at hmatch
      next start stop hsign =>
        obtain ⟨rfl, hplain⟩ := splitOnce_eq_some_iff.mp hsign
        split at hmatch
        next low high hstart hstop =>
          have hrange : low ≤ actual ∧ actual ≤ high := by simpa using hmatch
          exact .range hnone hplain hstart hstop hrange.1 hrange.2
        next => cases hmatch
      next hsign =>
        exact .number hnone (splitOnce_eq_none_iff.mp hsign) (by simpa using hmatch)
  · intro hnamed
    cases hnamed with
    | number hslash hsign hnumber =>
      rw [matchesTerm_of_plain hslash, splitOnce_eq_none_iff.mpr hsign]
      simp [hnumber]
    | range hslash hsign hstart hstop hlow hhigh =>
      rw [matchesTerm_of_plain hslash, splitOnce_eq_some_iff.mpr ⟨rfl, hsign⟩]
      simp [hstart, hstop, hlow, hhigh]
    | step hstep hevery hon =>
      rw [matchesTerm_step hstep]
      exact onStep_eq_true.mpr ⟨hevery, hon⟩
    | rangeStep hslash hsign hstart hstop hstep hevery hlow hhigh hon =>
      rw [matchesTerm_rangeStep hslash hsign hstart hstop hstep hlow hhigh]
      exact onStep_eq_true.mpr ⟨hevery, hon⟩

theorem matchesTerm_eq_error {pattern : List Char} (error : Raised) :
    matchesTerm tables pattern actual = .error error ↔ DividesByZero tables actual pattern := by
  constructor
  · intro hmatch
    unfold matchesTerm at hmatch
    split at hmatch
    next rangePart step hslash =>
      obtain ⟨rfl, hnone⟩ := splitOnce_eq_some_iff.mp hslash
      split at hmatch
      next => cases hmatch
      next every hstep =>
        split at hmatch
        next hstar =>
          subst hstar
          obtain rfl := onStep_eq_error.mp hmatch
          exact .step hstep
        next =>
          split at hmatch
          next => cases hmatch
          next start stop hsign =>
            obtain ⟨rfl, hplain⟩ := splitOnce_eq_some_iff.mp hsign
            split at hmatch
            next low high hstart hstop =>
              split at hmatch
              next hrange =>
                obtain rfl := onStep_eq_error.mp hmatch
                exact .rangeStep hnone hplain hstart hstop hstep hrange.1 hrange.2
              next => cases hmatch
            next => cases hmatch
    next hslash =>
      split at hmatch
      next =>
        split at hmatch
        next => cases hmatch
        next => cases hmatch
      next => cases hmatch
  · intro hzero
    cases hzero with
    | step hstep =>
      rw [matchesTerm_step hstep]
      exact onStep_eq_error.mpr rfl
    | rangeStep hslash hsign hstart hstop hstep hlow hhigh =>
      rw [matchesTerm_rangeStep hslash hsign hstart hstop hstep hlow hhigh]
      exact onStep_eq_error.mpr rfl

/-- Some item is `good`, and none before it is `bad`. -/
def Reaches {Item : Type} (good bad : Item → Prop) (items : List Item) : Prop :=
  ∃ before item after, items = before ++ item :: after ∧ good item ∧ ∀ other ∈ before, ¬ bad other

theorem not_reaches_nil {Item : Type} {good bad : Item → Prop} : ¬ Reaches good bad [] := by
  rintro ⟨before, item, after, heq, _⟩
  simp at heq

theorem reaches_cons {Item : Type} {good bad : Item → Prop} {item : Item} {rest : List Item} :
    Reaches good bad (item :: rest) ↔ good item ∨ ¬ bad item ∧ Reaches good bad rest := by
  constructor
  · rintro ⟨before, other, after, heq, hgood, hbefore⟩
    cases before with
    | nil =>
      cases heq
      exact .inl hgood
    | cons first others =>
      cases heq
      refine .inr ⟨hbefore _ List.mem_cons_self, others, other, after, rfl, hgood, ?_⟩
      exact fun earlier hmem => hbefore earlier (List.mem_cons_of_mem _ hmem)
  · rintro (hgood | ⟨hnot, before, other, after, rfl, hgood, hbefore⟩)
    · exact ⟨[], item, rest, rfl, hgood, fun other hmem => nomatch hmem⟩
    · refine ⟨item :: before, other, after, rfl, hgood, fun earlier hmem => ?_⟩
      cases List.mem_cons.mp hmem with
      | inl heq => exact heq ▸ hnot
      | inr hlater => exact hbefore earlier hlater

theorem Reaches.exists_mem {Item : Type} {good bad : Item → Prop} {items : List Item}
    (hreaches : Reaches good bad items) : ∃ item ∈ items, good item := by
  obtain ⟨before, item, after, rfl, hgood, _⟩ := hreaches
  exact ⟨item, List.mem_append_right _ List.mem_cons_self, hgood⟩

theorem reaches_or_reaches {Item : Type} {good bad : Item → Prop} {items : List Item}
    (hsome : ∃ item ∈ items, good item ∨ bad item) :
    Reaches good bad items ∨ Reaches bad good items := by
  induction items with
  | nil =>
    obtain ⟨item, hmem, _⟩ := hsome
    cases hmem
  | cons item rest ih =>
    rw [reaches_cons, reaches_cons]
    by_cases hgood : good item
    · exact .inl (.inl hgood)
    by_cases hbad : bad item
    · exact .inr (.inl hbad)
    obtain ⟨other, hmem, hother⟩ := hsome
    cases List.mem_cons.mp hmem with
    | inl heq => exact absurd (heq ▸ hother) (not_or.mpr ⟨hgood, hbad⟩)
    | inr hlater =>
      cases ih ⟨other, hlater, hother⟩ with
      | inl hfirst => exact .inl (.inr ⟨hbad, hfirst⟩)
      | inr hsecond => exact .inr (.inr ⟨hgood, hsecond⟩)

theorem matchesAny_eq_true {patterns : List (List Char)} :
    matchesAny tables actual patterns = .ok true ↔
      Reaches (IsNamed tables actual) (DividesByZero tables actual) patterns := by
  induction patterns with
  | nil => exact iff_of_false (by simp [matchesAny]) not_reaches_nil
  | cons pattern rest ih =>
    rw [reaches_cons, ← matchesTerm_eq_true, matchesAny]
    split
    next htrue => simp [htrue]
    next hfalse =>
      have hnot : ¬ DividesByZero tables actual pattern := by
        rw [← matchesTerm_eq_error .zeroDivision, hfalse]
        simp
      simp [hfalse, hnot, ih]
    next error herror =>
      have hzero := (matchesTerm_eq_error error).mp herror
      simp [herror, hzero]

theorem matchesAny_eq_error {patterns : List (List Char)} {error : Raised} :
    matchesAny tables actual patterns = .error error ↔
      Reaches (DividesByZero tables actual) (IsNamed tables actual) patterns := by
  induction patterns with
  | nil => exact iff_of_false (by simp [matchesAny]) not_reaches_nil
  | cons pattern rest ih =>
    rw [reaches_cons, ← matchesTerm_eq_error error, ← matchesTerm_eq_true, matchesAny]
    split
    next htrue => simp [htrue]
    next hfalse => simp [hfalse, ih]
    next other herror =>
      cases other
      cases error
      simp [herror]

def FollowsGrammar (tables : TextTables) (cronValue : String) (actual : Int) : Prop :=
  ∃ answer, cronMatches tables cronValue actual = .ok answer ∧
    (answer = true ↔ ∃ term ∈ terms tables cronValue, Denotes tables actual term)

/-- The field is a wildcard; or a term names the value, and no step of zero is taken before
it; or no term is a wildcard and no step of zero is taken. -/
def IsReadable (tables : TextTables) (cronValue : String) (actual : Int) : Prop :=
  cronValue = "*" ∨
    Reaches (IsNamed tables actual) (DividesByZero tables actual) (terms tables cronValue) ∨
    ∀ term ∈ terms tables cronValue, term ≠ ['*'] ∧ ¬ DividesByZero tables actual term

theorem denotes_star (hstar : tables.isSpace '*' = false) :
    ∃ term ∈ terms tables "*", Denotes tables actual term := by
  refine ⟨['*'], ?_, .inl rfl⟩
  have hstrip : tables.strip ['*'] = ['*'] := by simp [TextTables.strip, hstar]
  have hterms : terms tables "*" = [tables.strip ['*']] := rfl
  rw [hterms, hstrip]
  exact List.mem_singleton_self _

theorem followsGrammar_iff (hstar : tables.isSpace '*' = false) (cronValue : String)
    (actual : Int) :
    FollowsGrammar tables cronValue actual ↔ IsReadable tables cronValue actual := by
  unfold FollowsGrammar IsReadable
  by_cases hwildcard : cronValue = "*"
  · subst hwildcard
    refine iff_of_true ⟨true, if_pos rfl, ?_⟩ (.inl rfl)
    exact iff_of_true rfl (denotes_star hstar)
  rw [cronMatches, if_neg hwildcard]
  constructor
  · rintro ⟨answer, hmatch, hiff⟩
    refine .inr ?_
    cases answer with
    | true => exact .inl (matchesAny_eq_true.mp hmatch)
    | false =>
      have hnone : ∀ term ∈ terms tables cronValue, ¬ Denotes tables actual term :=
        fun term hmem hdenotes => Bool.false_ne_true (hiff.mpr ⟨term, hmem, hdenotes⟩)
      refine .inr fun term hmem => ⟨fun heq => hnone term hmem (.inl heq), fun hzero => ?_⟩
      cases reaches_or_reaches ⟨term, hmem, .inr hzero⟩ with
      | inl hnamed =>
        obtain ⟨other, hother, hnames⟩ := Reaches.exists_mem hnamed
        exact hnone other hother (.inr hnames)
      | inr hreached =>
        have herror : matchesAny tables actual (terms tables cronValue) =
            .error .zeroDivision := matchesAny_eq_error.mpr hreached
        rw [herror] at hmatch
        cases hmatch
  · rintro (hstarred | hreached | hplain)
    · exact absurd hstarred hwildcard
    · obtain ⟨term, hmem, hnames⟩ := hreached.exists_mem
      exact ⟨true, matchesAny_eq_true.mpr hreached, iff_of_true rfl ⟨term, hmem, .inr hnames⟩⟩
    · cases hmatch : matchesAny tables actual (terms tables cronValue) with
      | error error =>
        obtain ⟨term, hmem, hzero⟩ := (matchesAny_eq_error.mp hmatch).exists_mem
        exact absurd hzero (hplain term hmem).2
      | ok answer =>
        refine ⟨answer, rfl, ?_⟩
        cases answer with
        | true =>
          obtain ⟨term, hmem, hnames⟩ := (matchesAny_eq_true.mp hmatch).exists_mem
          exact iff_of_true rfl ⟨term, hmem, .inr hnames⟩
        | false =>
          refine iff_of_false Bool.false_ne_true ?_
          rintro ⟨term, hmem, hstarred | hnames⟩
          · exact (hplain term hmem).1 hstarred
          cases reaches_or_reaches ⟨term, hmem, .inl hnames⟩ with
          | inl hreached =>
            rw [matchesAny_eq_true.mpr hreached] at hmatch
            cases hmatch
          | inr hreached =>
            obtain ⟨other, hother, hzero⟩ := Reaches.exists_mem hreached
            exact (hplain other hother).2 hzero

end

/-! ### The functions that are due -/

structure CronSpec (Func : Type) where
  func : Func
  minutes : String := "*"
  hours : String := "*"
  days : String := "*"
  months : String := "*"
  weekdays : String := "*"

structure Moment where
  minute : Int
  hour : Int
  day : Int
  month : Int
  weekday : Int

section

variable {Func : Type}

/-- The fields in the order in which they are compared, with the values of the moment. -/
def CronSpec.fields (spec : CronSpec Func) (now : Moment) : List (String × Int) :=
  [(spec.minutes, now.minute), (spec.hours, now.hour), (spec.days, now.day),
    (spec.months, now.month), (spec.weekdays, now.weekday)]

variable (tables : TextTables)

def matchFields : List (String × Int) → Except Raised Bool
  | [] => .ok true
  | (cronValue, actual) :: rest =>
    match cronMatches tables cronValue actual with
    | .ok true => matchFields rest
    | .ok false => .ok false
    | .error error => .error error

def matchTime (now : Moment) (spec : CronSpec Func) : Except Raised Bool :=
  matchFields tables (spec.fields now)

def findScheduledFunctions (now : Moment) : List (CronSpec Func) → Except Raised (List Func)
  | [] => .ok []
  | spec :: rest => do
      let due ← matchTime tables now spec
      let others ← findScheduledFunctions now rest
      return if due then spec.func :: others else others

instance (actual : Int) (term : List Char) : Decidable (IsNamed tables actual term) :=
  decidable_of_iff _ matchesTerm_eq_true

instance (actual : Int) (term : List Char) : Decidable (Denotes tables actual term) :=
  inferInstanceAs (Decidable (_ ∨ _))

/-- The field matches, without a step of zero before the term that names the value. -/
def FieldMatches (field : String × Int) : Prop :=
  field.1 = "*" ∨
    Reaches (IsNamed tables field.2) (DividesByZero tables field.2) (terms tables field.1)

def FieldAborts (field : String × Int) : Prop :=
  field.1 ≠ "*" ∧
    Reaches (DividesByZero tables field.2) (IsNamed tables field.2) (terms tables field.1)

def Aborts (now : Moment) (spec : CronSpec Func) : Prop :=
  Reaches (FieldAborts tables) (fun field => ¬ FieldMatches tables field) (spec.fields now)

end

section

variable {Func : Type} {tables : TextTables}

theorem cronMatches_eq_true {field : String × Int} :
    cronMatches tables field.1 field.2 = .ok true ↔ FieldMatches tables field := by
  unfold cronMatches FieldMatches
  split
  next hwildcard => exact iff_of_true rfl (.inl hwildcard)
  next hwildcard => rw [matchesAny_eq_true, or_iff_right hwildcard]

theorem cronMatches_eq_error {field : String × Int} {error : Raised} :
    cronMatches tables field.1 field.2 = .error error ↔ FieldAborts tables field := by
  unfold cronMatches FieldAborts
  split
  next hwildcard => exact iff_of_false (fun heq => nomatch heq) fun haborts => haborts.1 hwildcard
  next hwildcard => rw [matchesAny_eq_error, and_iff_right hwildcard]

theorem matchFields_eq_error {fields : List (String × Int)} {error : Raised} :
    matchFields tables fields = .error error ↔
      Reaches (FieldAborts tables) (fun field => ¬ FieldMatches tables field) fields := by
  induction fields with
  | nil => exact iff_of_false (by simp [matchFields]) not_reaches_nil
  | cons field rest ih =>
    have haborts : FieldAborts tables field ↔
        cronMatches tables field.1 field.2 = .error error := cronMatches_eq_error.symm
    rw [reaches_cons, haborts, ← cronMatches_eq_true, matchFields]
    split
    next htrue => simp [htrue, ih]
    next hfalse => simp [hfalse]
    next other herror =>
      cases other
      cases error
      simp [herror]

theorem findScheduledFunctions_isOk {now : Moment} {specs : List (CronSpec Func)} :
    (∃ due, findScheduledFunctions tables now specs = .ok due) ↔
      ∀ spec ∈ specs, ¬ Aborts tables now spec := by
  induction specs with
  | nil => exact iff_of_true ⟨[], rfl⟩ fun spec hmem => nomatch hmem
  | cons spec rest ih =>
    have haborts : Aborts tables now spec ↔
        matchFields tables (spec.fields now) = .error .zeroDivision :=
      matchFields_eq_error.symm
    rw [List.forall_mem_cons, ← ih, haborts, findScheduledFunctions, matchTime]
    cases matchFields tables (spec.fields now) with
    | error error =>
      cases error
      simp [bind, Except.bind]
    | ok due =>
      cases findScheduledFunctions tables now rest with
      | error error => simp [bind, Except.bind]
      | ok others => simp [bind, Except.bind, pure, Except.pure]

/-- One schedule with a step of zero keeps every other one from being found. -/
example : findScheduledFunctions .ascii ⟨5, 0, 1, 1, 0⟩
    [⟨"first", "*", "*", "*", "*", "*"⟩, ⟨"second", "*/0", "*", "*", "*", "*"⟩] =
      .error .zeroDivision := by
  decide +kernel

end

end DjangoMojo.Cron
