import Mathlib.Algebra.GroupWithZero.Nat
import Mathlib.Data.List.Basic
import Mathlib.Data.List.Infix

/-! # Prefixes of a text by bytes, and a search for the longest one that fits

A text is cut at a number of bytes of its UTF-8 encoding; a character of which only some
bytes are left is dropped. The number is found by bisection when whatever fits goes on
fitting with fewer bytes.
-/

namespace DjangoMojo.Foundation

/-! ### Cut texts -/

def byteLength (text : List Char) : Nat := (text.map Char.utf8Size).sum

@[simp] theorem byteLength_cons (char : Char) (rest : List Char) :
    byteLength (char :: rest) = char.utf8Size + byteLength rest := List.sum_cons

@[simp] theorem byteLength_append (first last : List Char) :
    byteLength (first ++ last) = byteLength first + byteLength last := by
  rw [byteLength, List.map_append, List.sum_append, byteLength, byteLength]

theorem byteLength_le_of_starts {first text : List Char} (hstarts : first <+: text) :
    byteLength first ≤ byteLength text := by
  obtain ⟨last, rfl⟩ := hstarts
  rw [byteLength_append]
  exact Nat.le_add_right _ _

/-- `raw[:limit].decode("utf-8", errors="ignore")` of the bytes of the text. -/
def takeBytes : Nat → List Char → List Char
  | _, [] => []
  | limit, char :: rest =>
    if char.utf8Size ≤ limit then char :: takeBytes (limit - char.utf8Size) rest else []

theorem takeBytes_starts (limit : Nat) (text : List Char) : takeBytes limit text <+: text := by
  induction text generalizing limit with
  | nil => exact List.prefix_refl []
  | cons char rest ih =>
    rw [takeBytes]
    split
    · exact List.prefix_cons_inj char |>.mpr (ih _)
    · exact List.nil_prefix

theorem byteLength_takeBytes_le (limit : Nat) (text : List Char) :
    byteLength (takeBytes limit text) ≤ limit := by
  induction text generalizing limit with
  | nil => exact Nat.zero_le _
  | cons char rest ih =>
    rw [takeBytes]
    split
    next hfits =>
      have hrest := ih (limit - char.utf8Size)
      rw [byteLength_cons]
      omega
    · exact Nat.zero_le _

theorem starts_takeBytes {first text : List Char} {limit : Nat} (hstarts : first <+: text)
    (hlimit : byteLength first ≤ limit) : first <+: takeBytes limit text := by
  induction text generalizing first limit with
  | nil => exact hstarts
  | cons char rest ih =>
    cases first with
    | nil => exact List.nil_prefix
    | cons head tail =>
      obtain ⟨rfl, htail⟩ := List.cons_prefix_cons.mp hstarts
      rw [byteLength_cons] at hlimit
      rw [takeBytes, if_pos (by omega)]
      exact List.cons_prefix_cons.mpr ⟨rfl, ih htail (by omega)⟩

theorem takeBytes_eq_self {text : List Char} {limit : Nat} (hlimit : byteLength text ≤ limit) :
    takeBytes limit text = text :=
  (takeBytes_starts limit text).eq_of_length_le
    (starts_takeBytes (List.prefix_refl text) hlimit).length_le

theorem takeBytes_mono {limit other : Nat} (hle : limit ≤ other) (text : List Char) :
    takeBytes limit text <+: takeBytes other text :=
  starts_takeBytes (takeBytes_starts limit text) ((byteLength_takeBytes_le limit text).trans hle)

theorem takeBytes_eq_self_iff {text : List Char} {limit : Nat} :
    takeBytes limit text = text ↔ byteLength text ≤ limit := by
  refine ⟨fun heq => ?_, takeBytes_eq_self⟩
  rw [← heq]
  exact byteLength_takeBytes_le limit text

theorem length_le_byteLength (text : List Char) : text.length ≤ byteLength text := by
  induction text with
  | nil => exact Nat.le_refl 0
  | cons char rest ih =>
    have hchar := Char.utf8Size_pos char
    rw [List.length_cons, byteLength_cons]
    omega

theorem eq_of_starts_of_byteLength_le {first text : List Char} (hstarts : first <+: text)
    (hle : byteLength text ≤ byteLength first) : first = text := by
  obtain ⟨last, rfl⟩ := hstarts
  rw [byteLength_append] at hle
  have hlast := length_le_byteLength last
  have hnil : last = [] := List.eq_nil_of_length_eq_zero (by omega)
  rw [hnil, List.append_nil]

theorem takeBytes_byteLength {first text : List Char} (hstarts : first <+: text) :
    takeBytes (byteLength first) text = first :=
  (eq_of_starts_of_byteLength_le (starts_takeBytes hstarts (Nat.le_refl _))
    (byteLength_takeBytes_le _ _)).symm

/-! ### Bisection -/

/-- The search for the largest number below `stop` that fits, between `low` and `stop`; the
fuel bounds the number of turns. -/
def bisect (fits : Nat → Bool) : Nat → Nat → Nat → Option Nat → Option Nat
  | 0, _, _, best => best
  | fuel + 1, low, stop, best =>
    if low < stop then
      let middle := (low + (stop - 1)) / 2
      if fits middle then bisect fits fuel (middle + 1) stop (some middle)
      else bisect fits fuel low middle best
    else best

/-- What the search finds: the largest number that fits, if one does. -/
def IsLargest (fits : Nat → Bool) (stop : Nat) : Option Nat → Prop
  | none => ∀ number < stop, fits number = false
  | some best => best < stop ∧ fits best = true ∧ ∀ number < stop, best < number →
      fits number = false

theorem IsLargest.of_low {fits : Nat → Bool} {low count : Nat} {best : Option Nat}
    (hbest : IsLargest fits low best) (hlow : low ≤ count)
    (habove : ∀ number < count, low ≤ number → fits number = false) :
    IsLargest fits count best := by
  have hall : ∀ number < count, (number < low → fits number = false) → fits number = false := by
    intro number hnumber hbelow
    by_cases hless : number < low
    · exact hbelow hless
    · exact habove number hnumber (by omega)
  cases best with
  | none => exact fun number hnumber => hall number hnumber (hbest number)
  | some best =>
    obtain ⟨hless, hfits, hrest⟩ := hbest
    refine ⟨by omega, hfits, fun number hnumber hmore => hall number hnumber ?_⟩
    exact fun hbelow => hrest number hbelow hmore

theorem isLargest_bisect_from {fits : Nat → Bool} {count : Nat}
    (hmono : ∀ first second, first ≤ second → second < count → fits second = true →
      fits first = true) {fuel low stop : Nat} {best : Option Nat} (hfuel : stop - low ≤ fuel)
    (hlow : low ≤ stop) (hstop : stop ≤ count) (hbest : IsLargest fits low best)
    (habove : ∀ number < count, stop ≤ number → fits number = false) :
    IsLargest fits count (bisect fits fuel low stop best) := by
  induction fuel generalizing low stop best with
  | zero =>
    obtain rfl : low = stop := by omega
    exact hbest.of_low hstop habove
  | succ fuel ih =>
    rw [bisect]
    split
    next hless =>
      simp only
      have hmiddle : low ≤ (low + (stop - 1)) / 2 ∧ (low + (stop - 1)) / 2 < stop := by omega
      generalize (low + (stop - 1)) / 2 = middle at hmiddle ⊢
      split
      next hfits =>
        refine ih (by omega) (by omega) hstop ⟨by omega, hfits, ?_⟩ habove
        intro number hnumber hmore
        omega
      next hnot =>
        refine ih (by omega) (by omega) (by omega) hbest ?_
        intro number hnumber hmore
        cases hfits : fits number with
        | false => rfl
        | true => exact absurd (hmono middle number hmore hnumber hfits) hnot
    next hover =>
      obtain rfl : low = stop := by omega
      exact hbest.of_low hstop habove

theorem isLargest_bisect {fits : Nat → Bool} {count : Nat}
    (hmono : ∀ first second, first ≤ second → second < count → fits second = true →
      fits first = true) : IsLargest fits count (bisect fits count 0 count none) := by
  refine isLargest_bisect_from hmono (by omega) (Nat.zero_le _) (Nat.le_refl _) ?_ ?_
  · exact fun number hnumber => absurd hnumber (Nat.not_lt_zero _)
  · exact fun number hnumber habove => absurd hnumber (by omega)

example : bisect (fun number => decide (number * number ≤ 50)) 100 0 100 none = some 7 := by
  decide

end DjangoMojo.Foundation
