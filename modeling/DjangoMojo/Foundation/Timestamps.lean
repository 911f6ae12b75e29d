import Mathlib.Data.List.Basic
import Mathlib.Data.Nat.Basic
import Mathlib.Tactic.Ring

/-! # The text of a timestamp

A datetime in UTC is written field by field, with a fraction only when it has one.
Texts are compared character by character and datetimes field by field; the two
orders agree but for a whole second, whose text follows those of its fractions.
-/

namespace DjangoMojo.Foundation

/-! ### Digits -/

def digit (value : Nat) : Char := Char.ofNat (48 + value)

/-- The value in decimal, with leading zeros up to the width. -/
def padded : Nat → Nat → List Char
  | 0, _ => []
  | width + 1, value => digit (value / 10 ^ width) :: padded width (value % 10 ^ width)

theorem digit_lt_iff : ∀ first < 10, ∀ second < 10,
    (digit first < digit second ↔ first < second) ∧
      (digit first = digit second ↔ first = second) := by
  decide

theorem lt_iff_div_mod (first second base : Nat) :
    first < second ↔ first / base < second / base ∨
      first / base = second / base ∧ first % base < second % base := by
  have hfirst := Nat.div_add_mod first base
  have hsecond := Nat.div_add_mod second base
  constructor
  · intro hlt
    rcases Nat.lt_trichotomy (first / base) (second / base) with hquotient | heq | hquotient
    · exact .inl hquotient
    · refine .inr ⟨heq, ?_⟩
      rw [heq] at hfirst
      omega
    · exact absurd (Nat.lt_of_div_lt_div hquotient) (by omega)
  · rintro (hquotient | ⟨heq, hremainder⟩)
    · exact Nat.lt_of_div_lt_div hquotient
    · rw [heq] at hfirst
      omega

theorem eq_iff_div_mod (first second base : Nat) :
    first = second ↔ first / base = second / base ∧ first % base = second % base := by
  constructor
  · rintro rfl
    exact ⟨rfl, rfl⟩
  · rintro ⟨hquotient, hremainder⟩
    rw [← Nat.div_add_mod first base, ← Nat.div_add_mod second base, hquotient, hremainder]

theorem padded_append_lt_iff {width first second : Nat} (hfirst : first < 10 ^ width)
    (hsecond : second < 10 ^ width) (left right : List Char) :
    padded width first ++ left < padded width second ++ right ↔
      first < second ∨ first = second ∧ left < right := by
  induction width generalizing first second with
  | zero =>
    obtain rfl : first = 0 := by simpa using hfirst
    obtain rfl : second = 0 := by simpa using hsecond
    simp [padded]
  | succ width ih =>
    have hpositive : 0 < 10 ^ width := Nat.pow_pos (by decide)
    have hdigit (value : Nat) (hvalue : value < 10 ^ (width + 1)) : value / 10 ^ width < 10 := by
      rw [Nat.div_lt_iff_lt_mul hpositive, Nat.mul_comm, ← Nat.pow_succ]
      exact hvalue
    obtain ⟨hlt, heq⟩ := digit_lt_iff _ (hdigit first hfirst) _ (hdigit second hsecond)
    simp only [padded, List.cons_append, List.cons_lt_cons_iff]
    rw [ih (Nat.mod_lt _ hpositive) (Nat.mod_lt _ hpositive), hlt, heq,
      lt_iff_div_mod first second (10 ^ width), eq_iff_div_mod first second (10 ^ width)]
    tauto

/-! ### Timestamps -/

structure Stamp where
  year : Nat
  month : Nat
  day : Nat
  hour : Nat
  minute : Nat
  second : Nat
  microsecond : Nat
  year_lt : year < 10000 := by decide
  month_le : month ≤ 12 := by decide
  day_le : day ≤ 31 := by decide
  hour_lt : hour < 24 := by decide
  minute_lt : minute < 60 := by decide
  second_lt : second < 60 := by decide
  microsecond_lt : microsecond < 1000000 := by decide

namespace Stamp

/-- The second, as a number that is ordered as the fields are. -/
def wholeSecond (stamp : Stamp) : Nat :=
  ((((stamp.year * 100 + stamp.month) * 100 + stamp.day) * 100 + stamp.hour) * 100 +
    stamp.minute) * 100 + stamp.second

/-- The instant, as a number that is ordered as the fields are. -/
def instant (stamp : Stamp) : Int := stamp.wholeSecond * 1000000 + stamp.microsecond

def ending (stamp : Stamp) : List Char :=
  if stamp.microsecond = 0 then ['Z'] else '.' :: (padded 6 stamp.microsecond ++ ['Z'])

/-- `isoformat`, with `Z` for the zone. -/
def text (stamp : Stamp) : String :=
  String.ofList (padded 4 stamp.year ++ '-' :: (padded 2 stamp.month ++ '-' ::
    (padded 2 stamp.day ++ 'T' :: (padded 2 stamp.hour ++ ':' :: (padded 2 stamp.minute ++
      ':' :: (padded 2 stamp.second ++ stamp.ending))))))

def fractionRank (stamp : Stamp) : Nat :=
  if stamp.microsecond = 0 then 1000000 else stamp.microsecond

theorem ending_lt_iff (first second : Stamp) :
    first.ending < second.ending ↔ first.fractionRank < second.fractionRank := by
  have hfirst := first.microsecond_lt
  have hsecond := second.microsecond_lt
  have hpoint : ('.' < 'Z') = True := by decide
  have hzone : ('Z' < '.') = False := by decide
  by_cases hfirstZero : first.microsecond = 0
  · by_cases hsecondZero : second.microsecond = 0
    · simp [ending, fractionRank, hfirstZero, hsecondZero]
    · simp only [ending, fractionRank, hfirstZero, hsecondZero, if_true, if_false,
        List.cons_lt_cons_iff, hzone, false_or]
      constructor
      · rintro ⟨hchar, _⟩
        exact absurd hchar (by decide)
      · omega
  · by_cases hsecondZero : second.microsecond = 0
    · simp only [ending, fractionRank, hfirstZero, hsecondZero, if_true, if_false,
        List.cons_lt_cons_iff, hpoint, true_or, true_iff]
      exact hfirst
    · simp only [ending, fractionRank, hfirstZero, hsecondZero, if_false]
      rw [List.cons_lt_cons_self, padded_append_lt_iff hfirst hsecond]
      simp

theorem text_lt_iff (first second : Stamp) :
    first.text < second.text ↔ first.wholeSecond < second.wholeSecond ∨
      first.wholeSecond = second.wholeSecond ∧ first.fractionRank < second.fractionRank := by
  rw [String.lt_iff, text, text, String.toList_ofList, String.toList_ofList,
    padded_append_lt_iff first.year_lt second.year_lt, List.cons_lt_cons_self,
    padded_append_lt_iff (by have := first.month_le; omega) (by have := second.month_le; omega),
    List.cons_lt_cons_self,
    padded_append_lt_iff (by have := first.day_le; omega) (by have := second.day_le; omega),
    List.cons_lt_cons_self,
    padded_append_lt_iff (by have := first.hour_lt; omega) (by have := second.hour_lt; omega),
    List.cons_lt_cons_self,
    padded_append_lt_iff (by have := first.minute_lt; omega) (by have := second.minute_lt; omega),
    List.cons_lt_cons_self,
    padded_append_lt_iff (by have := first.second_lt; omega) (by have := second.second_lt; omega),
    ending_lt_iff]
  have := first.month_le
  have := second.month_le
  have := first.day_le
  have := second.day_le
  have := first.hour_lt
  have := second.hour_lt
  have := first.minute_lt
  have := second.minute_lt
  have := first.second_lt
  have := second.second_lt
  simp only [wholeSecond]
  omega

def textRank (stamp : Stamp) : Nat := stamp.wholeSecond * 1000001 + stamp.fractionRank

theorem fractionRank_le (stamp : Stamp) : stamp.fractionRank ≤ 1000000 := by
  have hmicrosecond := stamp.microsecond_lt
  unfold fractionRank
  split <;> omega

theorem text_lt_iff_textRank (first second : Stamp) :
    first.text < second.text ↔ first.textRank < second.textRank := by
  rw [text_lt_iff]
  have hfirst := first.fractionRank_le
  have hsecond := second.fractionRank_le
  unfold textRank
  omega

theorem text_ne_empty (stamp : Stamp) : stamp.text ≠ "" := by
  intro hempty
  have hchars : stamp.text.toList = [] := by
    rw [hempty]
    rfl
  rw [text, String.toList_ofList] at hchars
  simp [padded] at hchars

/-- The order of the texts is that of the instants, but for a whole second and a
fraction of it. -/
theorem instant_le_of_textRank_le {first second : Stamp}
    (hrank : first.textRank ≤ second.textRank)
    (halike : first.wholeSecond = second.wholeSecond → second.microsecond = 0 →
      first.microsecond = 0) : first.instant ≤ second.instant := by
  have hfirst := first.microsecond_lt
  have hsecond := second.microsecond_lt
  have hfirstRank := first.fractionRank_le
  have hsecondRank := second.fractionRank_le
  simp only [textRank, instant, fractionRank] at *
  split at hrank <;> split at hrank <;> omega

theorem microsecond_eq_zero_of_textRank_le {whole last : Stamp} (hwhole : whole.microsecond = 0)
    (hrank : whole.textRank ≤ last.textRank) (hsecond : last.wholeSecond ≤ whole.wholeSecond) :
    last.wholeSecond = whole.wholeSecond ∧ last.microsecond = 0 := by
  have hlast := last.microsecond_lt
  simp only [textRank, fractionRank, hwhole, if_true] at hrank
  split at hrank <;> omega

end Stamp

end DjangoMojo.Foundation
