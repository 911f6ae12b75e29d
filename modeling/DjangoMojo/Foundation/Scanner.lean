import Mathlib.Data.List.Basic
import Mathlib.Data.List.TakeWhile

/-! # Scanners and substitution

A scanner reads some items at the start of a text and says what remains. A pattern keeps
what one of its scanners reads and drops a run of items that follows it. Substitution
writes a replacement for each run that is dropped, from left to right.
-/

namespace DjangoMojo.Foundation

universe uItem

structure Scanner (Item : Type uItem) where
  scan : List Item → Option (List Item × List Item)
  splits : ∀ {text read rest : List Item}, scan text = some (read, rest) → read ++ rest = text

namespace Scanner

variable {Item : Type uItem}

def done : Scanner Item where
  scan text := some ([], text)
  splits := by
    intro text read rest hscan
    cases hscan
    rfl

def one (accepts : Item → Bool) : Scanner Item where
  scan
    | [] => none
    | item :: rest => if accepts item then some ([item], rest) else none
  splits := by
    intro text read rest hscan
    cases text with
    | nil => cases hscan
    | cons item others =>
      simp only [Option.ite_none_right_eq_some] at hscan
      cases hscan.2
      rfl

def optional (accepts : Item → Bool) : Scanner Item where
  scan
    | [] => some ([], [])
    | item :: rest => if accepts item then some ([item], rest) else some ([], item :: rest)
  splits := by
    intro text read rest hscan
    cases text with
    | nil =>
      cases hscan
      rfl
    | cons item others =>
      dsimp only at hscan
      split at hscan <;> cases hscan <;> rfl

def many (accepts : Item → Bool) : Scanner Item where
  scan text := some (text.takeWhile accepts, text.dropWhile accepts)
  splits := by
    intro text read rest hscan
    cases hscan
    exact List.takeWhile_append_dropWhile

def seq (first second : Scanner Item) : Scanner Item where
  scan text :=
    (first.scan text).bind fun before =>
      (second.scan before.2).map fun after => (before.1 ++ after.1, after.2)
  splits := by
    intro text read rest hscan
    obtain ⟨before, hfirst, hmap⟩ := Option.bind_eq_some_iff.mp hscan
    obtain ⟨after, hsecond, heq⟩ := Option.map_eq_some_iff.mp hmap
    cases heq
    rw [List.append_assoc, second.splits hsecond, first.splits hfirst]

def several (accepts : Item → Bool) : Scanner Item := (one accepts).seq (many accepts)

/-- The letters of a word, each up to `same`. -/
def word (same : Item → Item → Bool) (letters : List Item) : Scanner Item :=
  letters.foldr (fun letter rest => (one (same letter)).seq rest) done

theorem several_reads {accepts : Item → Bool} {text read rest : List Item}
    (hscan : (several accepts).scan text = some (read, rest)) :
    read ≠ [] ∧ ∀ item ∈ read, accepts item = true := by
  obtain ⟨first, hfirst, hmap⟩ := Option.bind_eq_some_iff.mp hscan
  obtain ⟨others, hothers, hpair⟩ := Option.map_eq_some_iff.mp hmap
  cases text with
  | nil => cases hfirst
  | cons head tail =>
    obtain ⟨hhead, hone⟩ := Option.ite_none_right_eq_some.mp hfirst
    cases hone
    cases hothers
    cases hpair
    refine ⟨List.cons_ne_nil _ _, fun item hmem => ?_⟩
    cases List.mem_cons.mp hmem with
    | inl heq => rw [heq, hhead]
    | inr htail => exact List.all_eq_true.mp List.all_takeWhile item htail

end Scanner

/-! ### Substitution -/

/-- At a match, what is kept of it and what follows it. Between the two something is
dropped. -/
structure Pattern (Item : Type uItem) where
  find : List Item → Option (List Item × List Item)
  drops : ∀ {text kept rest : List Item}, find text = some (kept, rest) →
    ∃ dropped, dropped ≠ [] ∧ kept ++ dropped ++ rest = text

namespace Pattern

variable {Item : Type uItem}

/-- What the first of the scanners reads that a run follows, and what follows the run. -/
def beforeRun (scanners : List (Scanner Item)) (accepts : Item → Bool) (text : List Item) :
    Option (List Item × List Item) :=
  scanners.findSome? fun scanner =>
    (scanner.scan text).bind fun kept =>
      ((Scanner.several accepts).scan kept.2).map fun run => (kept.1, run.2)

theorem beforeRun_splits {scanners : List (Scanner Item)} {accepts : Item → Bool}
    {text kept rest : List Item} (hfind : beforeRun scanners accepts text = some (kept, rest)) :
    ∃ run, run ≠ [] ∧ (∀ item ∈ run, accepts item = true) ∧ kept ++ run ++ rest = text := by
  obtain ⟨scanner, _, hbind⟩ := List.exists_of_findSome?_eq_some hfind
  obtain ⟨before, hscan, hmap⟩ := Option.bind_eq_some_iff.mp hbind
  obtain ⟨run, hrun, heq⟩ := Option.map_eq_some_iff.mp hmap
  cases heq
  obtain ⟨hne, haccepts⟩ := Scanner.several_reads hrun
  refine ⟨run.1, hne, haccepts, ?_⟩
  rw [List.append_assoc, (Scanner.several accepts).splits hrun, scanner.splits hscan]

/-- Keep what one of the scanners reads and drop the run that follows it. -/
def keeping (scanners : List (Scanner Item)) (accepts : Item → Bool) : Pattern Item where
  find := beforeRun scanners accepts
  drops hfind := by
    obtain ⟨run, hne, _, heq⟩ := beforeRun_splits hfind
    exact ⟨run, hne, heq⟩

variable (pattern : Pattern Item) (replacement : List Item)

theorem find_nil : pattern.find [] = none := by
  cases hfind : pattern.find [] with
  | none => rfl
  | some found =>
    obtain ⟨dropped, hne, heq⟩ := pattern.drops hfind
    simp only [List.append_eq_nil_iff] at heq
    exact absurd heq.1.2 hne

theorem length_rest {text kept rest : List Item} (hfind : pattern.find text = some (kept, rest)) :
    rest.length < text.length := by
  obtain ⟨dropped, hne, heq⟩ := pattern.drops hfind
  have hlength := List.length_pos_iff.mpr hne
  rw [← heq, List.length_append, List.length_append]
  omega

/-- Substitution in at most `steps` steps. -/
def subUpTo : Nat → List Item → List Item
  | 0, text => text
  | steps + 1, text =>
    match pattern.find text with
    | some (kept, rest) => kept ++ replacement ++ subUpTo steps rest
    | none =>
      match text with
      | [] => []
      | item :: rest => item :: subUpTo steps rest

/-- Each step passes an item, so the length of the text bounds the steps. -/
def sub (text : List Item) : List Item := pattern.subUpTo replacement text.length text

theorem subUpTo_eq_sub {steps : Nat} {text : List Item} (hsteps : text.length ≤ steps) :
    pattern.subUpTo replacement steps text = pattern.sub replacement text := by
  have hagree (fewer more : Nat) (text : List Item) (hfewer : text.length ≤ fewer)
      (hmore : text.length ≤ more) :
      pattern.subUpTo replacement fewer text = pattern.subUpTo replacement more text := by
    induction fewer generalizing more text with
    | zero =>
      cases List.length_eq_zero_iff.mp (Nat.le_zero.mp hfewer)
      cases more with
      | zero => rfl
      | succ more => simp only [subUpTo, find_nil]
    | succ fewer ih =>
      cases more with
      | zero =>
        cases List.length_eq_zero_iff.mp (Nat.le_zero.mp hmore)
        simp only [subUpTo, find_nil]
      | succ more =>
        cases hfind : pattern.find text with
        | some found =>
          have hrest := pattern.length_rest hfind
          simp only [subUpTo, hfind]
          rw [ih more found.2 (by omega) (by omega)]
        | none =>
          cases text with
          | nil => simp only [subUpTo, hfind]
          | cons item rest =>
            rw [List.length_cons] at hfewer hmore
            simp only [subUpTo, hfind]
            rw [ih more rest (by omega) (by omega)]
  exact hagree steps text.length text hsteps (Nat.le_refl _)

theorem sub_found {text kept rest : List Item} (hfind : pattern.find text = some (kept, rest)) :
    pattern.sub replacement text = kept ++ replacement ++ pattern.sub replacement rest := by
  have hrest := pattern.length_rest hfind
  rw [← pattern.subUpTo_eq_sub replacement (Nat.le_succ text.length)]
  simp only [subUpTo, hfind]
  rw [pattern.subUpTo_eq_sub replacement (by omega)]

theorem sub_cons {item : Item} {rest : List Item} (hfind : pattern.find (item :: rest) = none) :
    pattern.sub replacement (item :: rest) = item :: pattern.sub replacement rest := by
  change pattern.subUpTo replacement (rest.length + 1) (item :: rest) = _
  simp only [subUpTo, hfind]
  rw [pattern.subUpTo_eq_sub replacement (Nat.le_refl _)]

theorem sub_induction {motive : List Item → Prop} (nil : motive [])
    (found : ∀ {text kept rest}, pattern.find text = some (kept, rest) → motive rest → motive text)
    (cons : ∀ {item rest}, pattern.find (item :: rest) = none → motive rest →
      motive (item :: rest)) (text : List Item) : motive text := by
  have hbounded (bound : Nat) : ∀ text, text.length ≤ bound → motive text := by
    induction bound with
    | zero =>
      intro text hlength
      cases List.length_eq_zero_iff.mp (Nat.le_zero.mp hlength)
      exact nil
    | succ bound ih =>
      intro text hlength
      cases hfind : pattern.find text with
      | some match_ =>
        have hrest := pattern.length_rest hfind
        exact found hfind (ih match_.2 (by omega))
      | none =>
        cases text with
        | nil => exact nil
        | cons item rest =>
          rw [List.length_cons] at hlength
          exact cons hfind (ih rest (by omega))
  exact hbounded text.length text (Nat.le_refl _)

theorem count_sub [DecidableEq Item] {item : Item} (hreplacement : item ∉ replacement)
    (hkeeps : ∀ {text kept rest}, pattern.find text = some (kept, rest) →
      kept.count item + rest.count item = text.count item) (text : List Item) :
    (pattern.sub replacement text).count item = text.count item := by
  induction text using pattern.sub_induction with
  | nil => rfl
  | found hfind ih =>
    rw [pattern.sub_found replacement hfind, List.count_append, List.count_append, ih,
      List.count_eq_zero.mpr hreplacement, Nat.add_zero]
    exact hkeeps hfind
  | cons hfind ih => rw [pattern.sub_cons replacement hfind, List.count_cons, ih, List.count_cons]

theorem count_sub_keeping [DecidableEq Item] {scanners : List (Scanner Item)}
    {accepts : Item → Bool} {item : Item} (hitem : accepts item = false)
    (hreplacement : item ∉ replacement) (text : List Item) :
    ((keeping scanners accepts).sub replacement text).count item = text.count item := by
  refine count_sub _ replacement hreplacement ?_ text
  intro text kept rest hfind
  obtain ⟨run, _, haccepts, heq⟩ := beforeRun_splits hfind
  have hrun : run.count item = 0 := by
    rw [List.count_eq_zero]
    intro hmem
    rw [haccepts item hmem] at hitem
    cases hitem
  rw [← heq, List.count_append, List.count_append, hrun, Nat.add_zero]

/-! ### Texts in two parts -/

end Pattern

end DjangoMojo.Foundation
