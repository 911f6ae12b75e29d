import Mathlib.Data.List.Infix

/-! # Texts cut at a marker

A text is cut at the first occurrence of a marker, or at every one of them. The cut falls
where the text was joined exactly when no occurrence begins earlier.
-/

namespace DjangoMojo.Foundation

namespace Markers

universe uItem

variable {Item : Type uItem} [DecidableEq Item]

/-- The text before and after the first occurrence of the marker. -/
def breakOn (marker : List Item) : List Item → Option (List Item × List Item)
  | [] => none
  | item :: rest =>
    if marker <+: item :: rest then some ([], (item :: rest).drop marker.length)
    else (breakOn marker rest).map fun parts => (item :: parts.1, parts.2)

/-- The parts between the occurrences, found from the left and without overlap. -/
def splitFrom (marker : List Item) : Nat → List Item → List (List Item)
  | 0, text => [text]
  | fuel + 1, text =>
    match breakOn marker text with
    | none => [text]
    | some (before, after) => before :: splitFrom marker fuel after

def split (marker text : List Item) : List (List Item) := splitFrom marker text.length text

def lastPart (separator : Item) (text : List Item) : List Item :=
  (text.reverse.takeWhile (· ≠ separator)).reverse

theorem lastPart_append {separator : Item} {last : List Item} (hlast : separator ∉ last)
    (first : List Item) : lastPart separator (first ++ separator :: last) = last := by
  have hrest : ∀ item ∈ last.reverse, decide (item ≠ separator) = true := by
    intro item hitem
    refine decide_eq_true fun heq => hlast ?_
    exact heq ▸ List.mem_reverse.mp hitem
  rw [lastPart, List.reverse_append, List.reverse_cons, List.append_assoc,
    List.takeWhile_append_of_pos hrest]
  simp

/-- `text.split(separator, 1)`, or `none` when nothing is split. -/
def splitOnce (separator : Item) : List Item → Option (List Item × List Item)
  | [] => none
  | item :: rest =>
    if item = separator then some ([], rest)
    else (splitOnce separator rest).map fun parts => (item :: parts.1, parts.2)

theorem splitOnce_eq_some_iff {separator : Item} {text before after : List Item} :
    splitOnce separator text = some (before, after) ↔
      text = before ++ separator :: after ∧ separator ∉ before := by
  induction text generalizing before with
  | nil => simp [splitOnce]
  | cons item rest ih =>
    rw [splitOnce]
    split
    next heq =>
      subst heq
      cases before with
      | nil => simp
      | cons first others =>
        simp
        tauto
    next hne =>
      cases before with
      | nil => simp [hne]
      | cons first others =>
        simp only [Option.map_eq_some_iff, Prod.exists, Prod.mk.injEq, List.cons.injEq,
          List.cons_append, List.mem_cons, not_or]
        constructor
        · rintro ⟨front, back, hsplit, ⟨rfl, rfl⟩, rfl⟩
          obtain ⟨heq, hfront⟩ := ih.mp hsplit
          exact ⟨⟨rfl, heq⟩, Ne.symm hne, hfront⟩
        · rintro ⟨⟨rfl, heq⟩, _, hfront⟩
          exact ⟨others, after, ih.mpr ⟨heq, hfront⟩, ⟨rfl, rfl⟩, rfl⟩

theorem splitOnce_eq_none_iff {separator : Item} {text : List Item} :
    splitOnce separator text = none ↔ separator ∉ text := by
  induction text with
  | nil => simp [splitOnce]
  | cons item rest ih =>
    rw [splitOnce]
    split
    next heq => simp [heq]
    next hne => simp [ih, Ne.symm hne]

variable {marker : List Item}

theorem eq_of_breakOn {text before after : List Item}
    (hbreak : breakOn marker text = some (before, after)) : text = before ++ marker ++ after := by
  induction text generalizing before with
  | nil => cases hbreak
  | cons item rest ih =>
    rw [breakOn] at hbreak
    split at hbreak
    next hstarts =>
      cases hbreak
      exact (List.prefix_iff_eq_append.mp hstarts).symm
    next =>
      obtain ⟨⟨first, last⟩, hrest, heq⟩ := Option.map_eq_some_iff.mp hbreak
      cases heq
      rw [ih hrest]
      rfl

theorem breakOn_eq_none_of_not_mem {text : List Item} {item : Item} (hmarker : item ∈ marker)
    (htext : item ∉ text) : breakOn marker text = none := by
  cases hbreak : breakOn marker text with
  | none => rfl
  | some parts =>
    refine absurd ?_ htext
    rw [eq_of_breakOn hbreak]
    exact List.mem_append_left _ (List.mem_append_right _ hmarker)

theorem breakOn_eq_none_iff (hmarker : marker ≠ []) {text : List Item} :
    breakOn marker text = none ↔ ¬ marker <:+: text := by
  induction text with
  | nil => simp [breakOn, List.infix_nil, hmarker]
  | cons item rest ih =>
    rw [breakOn, List.infix_cons_iff, not_or, ← ih]
    by_cases hstarts : marker <+: item :: rest
    · simp [hstarts]
    · simp [hstarts]

omit [DecidableEq Item] in
/-- An occurrence that begins with the first text ends before the last item of the marker
that follows it. -/
theorem prefix_cons_append_iff {item : Item} {first last : List Item} :
    marker <+: item :: (first ++ marker ++ last) ↔
      marker <+: item :: (first ++ marker.dropLast) := by
  have hshort : item :: (first ++ marker.dropLast) <+: item :: (first ++ marker ++ last) := by
    rw [List.cons_prefix_cons, List.append_assoc, List.prefix_append_right_inj]
    exact ⟨rfl, (List.dropLast_prefix marker).trans (List.prefix_append marker last)⟩
  refine ⟨fun hstarts => List.prefix_of_prefix_length_le hstarts hshort ?_,
    fun hstarts => hstarts.trans hshort⟩
  simp only [List.length_cons, List.length_append, List.length_dropLast]
  omega

theorem breakOn_append_iff (hmarker : marker ≠ []) (first last : List Item) :
    breakOn marker (first ++ marker ++ last) = some (first, last) ↔
      ¬ marker <:+: first ++ marker.dropLast := by
  induction first with
  | nil =>
    refine iff_of_true ?_ fun hinfix => ?_
    · cases marker with
      | nil => exact absurd rfl hmarker
      | cons head tail =>
        have hstarts : head :: tail <+: head :: (tail ++ last) := ⟨last, rfl⟩
        simp [breakOn, hstarts]
    · have hlength := hinfix.length_le
      have hpos := List.length_pos_of_ne_nil hmarker
      simp only [List.nil_append, List.length_dropLast] at hlength
      omega
  | cons item rest ih =>
    rw [List.cons_append, List.cons_append, breakOn, List.cons_append, List.infix_cons_iff,
      not_or, ← ih, ← prefix_cons_append_iff]
    constructor
    · intro hbreak
      split at hbreak
      next => cases (Prod.mk.inj (Option.some.inj hbreak)).1
      next hstarts =>
        obtain ⟨⟨before, after⟩, hrest, heq⟩ := Option.map_eq_some_iff.mp hbreak
        have hparts : before = rest ∧ after = last := by simpa using heq
        rw [hparts.1, hparts.2] at hrest
        exact ⟨hstarts, hrest⟩
    · rintro ⟨hearly, hrest⟩
      rw [if_neg hearly, hrest]
      rfl

theorem length_lt_of_breakOn (hmarker : marker ≠ []) {text before after : List Item}
    (hbreak : breakOn marker text = some (before, after)) : after.length < text.length := by
  have hpos := List.length_pos_of_ne_nil hmarker
  rw [eq_of_breakOn hbreak, List.length_append, List.length_append]
  omega

theorem splitFrom_ne_nil (fuel : Nat) (text : List Item) : splitFrom marker fuel text ≠ [] := by
  cases fuel with
  | zero => exact List.cons_ne_nil _ _
  | succ fuel =>
    rw [splitFrom]
    split <;> exact List.cons_ne_nil _ _

theorem splitFrom_eq_singleton_iff {fuel : Nat} {text part : List Item}
    (hfuel : text.length ≤ fuel) :
    splitFrom marker fuel text = [part] ↔ breakOn marker text = none ∧ part = text := by
  cases fuel with
  | zero =>
    cases text with
    | nil => simp [splitFrom, breakOn, eq_comm]
    | cons head tail => simp at hfuel
  | succ fuel =>
    rw [splitFrom]
    split
    next hbreak => simp [hbreak, @eq_comm _ part]
    next before after hbreak => simp [hbreak, splitFrom_ne_nil]

theorem split_eq_pair_iff (hmarker : marker ≠ []) {text before after : List Item} :
    split marker text = [before, after] ↔
      breakOn marker text = some (before, after) ∧ breakOn marker after = none := by
  rw [split]
  cases hlength : text.length with
  | zero =>
    rw [List.length_eq_zero_iff.mp hlength]
    simp [splitFrom, breakOn]
  | succ fuel =>
    rw [splitFrom]
    split
    next hbreak => simp [hbreak]
    next first rest hbreak =>
      have hshort := length_lt_of_breakOn hmarker hbreak
      rw [List.cons.injEq, splitFrom_eq_singleton_iff (by omega), hbreak, Option.some.injEq,
        Prod.mk.injEq]
      constructor
      · rintro ⟨rfl, hnone, rfl⟩
        exact ⟨⟨rfl, rfl⟩, hnone⟩
      · rintro ⟨⟨rfl, rfl⟩, hnone⟩
        exact ⟨rfl, hnone, rfl⟩

end Markers

end DjangoMojo.Foundation
