import DjangoMojo.Foundation.NginxDirectives
import Mathlib.Data.List.MinMax
import Mathlib.Data.List.Nodup

/-! # The location of a request

A location for exactly the path of a request comes first. Without one, the longest
location that the path begins with is remembered; when it is final, it is the answer,
and else the first pattern that matches is preferred to it.
-/

namespace DjangoMojo.Foundation

namespace Nginx

inductive Modifier where
  /-- `=` -/
  | exact
  | leading
  /-- `^~` -/
  | final
  | pattern
  deriving DecidableEq, Repr

structure Location (Handler : Type) where
  modifier : Modifier
  path : String
  handler : Handler

variable {Handler : Type}

namespace Location

/-- A location that is found by the first characters of a path. -/
def covers (location : Location Handler) (path : String) : Bool :=
  (location.modifier = .leading || location.modifier = .final) &&
    location.path.toList.isPrefixOf path.toList

end Location

inductive LocationKey where
  | exact (path : String)
  | leading (path : String)
  | pattern (path : String)
  deriving DecidableEq, Repr

def Location.key (location : Location Handler) : LocationKey :=
  match location.modifier with
  | .exact => .exact location.path
  | .leading | .final => .leading location.path
  | .pattern => .pattern location.path

def exactLocation (locations : List (Location Handler)) (path : String) :
    Option (Location Handler) :=
  locations.find? fun location => location.modifier = .exact && location.path = path

def longestLocation (locations : List (Location Handler)) (path : String) :
    Option (Location Handler) :=
  (locations.filter fun location => location.covers path).argmax fun location =>
    location.path.length

/-- `pcre pattern path` is whether the pattern matches the path. -/
def patternLocation (pcre : String → String → Bool) (locations : List (Location Handler))
    (path : String) : Option (Location Handler) :=
  locations.find? fun location => location.modifier = .pattern && pcre location.path path

def inexactLocation (pcre : String → String → Bool) (locations : List (Location Handler))
    (path : String) : Option (Location Handler) :=
  match longestLocation locations path with
  | some location =>
    if location.modifier = .final then some location
    else patternLocation pcre locations path <|> some location
  | none => patternLocation pcre locations path

def selectLocation (pcre : String → String → Bool) (locations : List (Location Handler))
    (path : String) : Option (Location Handler) :=
  exactLocation locations path <|> inexactLocation pcre locations path

/-! ### What is found -/

variable {locations : List (Location Handler)} {location : Location Handler} {path : String}
  {pcre : String → String → Bool}

theorem exactLocation_of_mem (hkeys : (locations.map Location.key).Nodup)
    (hmem : location ∈ locations) (hmodifier : location.modifier = .exact)
    (hpath : location.path = path) : exactLocation locations path = some location := by
  have hfound : (exactLocation locations path).isSome := by
    rw [exactLocation, List.find?_isSome]
    exact ⟨location, hmem, by simp [hmodifier, hpath]⟩
  obtain ⟨other, hother⟩ := Option.isSome_iff_exists.mp hfound
  have hexact := List.find?_some hother
  simp only [Bool.and_eq_true, decide_eq_true_eq] at hexact
  have hkey : other.key = location.key := by
    simp only [Location.key, hexact.1, hmodifier, hexact.2, hpath]
  rw [hother, List.inj_on_of_nodup_map hkeys (List.mem_of_find?_eq_some hother) hmem hkey]

theorem exactLocation_eq_none (hnone : LocationKey.exact path ∉ locations.map Location.key) :
    exactLocation locations path = none := by
  rw [exactLocation, List.find?_eq_none]
  intro other hother hexact
  simp only [Bool.and_eq_true, decide_eq_true_eq] at hexact
  apply hnone
  refine List.mem_map.mpr ⟨other, hother, ?_⟩
  simp only [Location.key, hexact.1, hexact.2]

theorem Location.key_of_covers (hcovers : location.covers path = true) :
    location.key = .leading location.path := by
  simp only [Location.covers, Bool.and_eq_true, Bool.or_eq_true, decide_eq_true_eq] at hcovers
  rcases hcovers.1 with hmodifier | hmodifier
  · simp only [Location.key, hmodifier]
  · simp only [Location.key, hmodifier]

theorem longestLocation_of_mem (hkeys : (locations.map Location.key).Nodup)
    (hmem : location ∈ locations) (hcovers : location.covers path = true)
    (hlongest : ∀ other ∈ locations, other.covers path = true →
      other.path.length ≤ location.path.length) :
    longestLocation locations path = some location := by
  have hcandidate : location ∈ locations.filter fun other => other.covers path :=
    List.mem_filter.mpr ⟨hmem, hcovers⟩
  cases hfound : longestLocation locations path with
  | none =>
    rw [longestLocation, List.argmax_eq_none] at hfound
    rw [hfound] at hcandidate
    cases hcandidate
  | some other =>
    obtain ⟨hother, hothercovers⟩ := List.mem_filter.mp (List.argmax_mem hfound)
    have hle : location.path.length ≤ other.path.length :=
      List.le_of_mem_argmax (f := fun location : Location Handler => location.path.length)
        hcandidate hfound
    -- Two beginnings of one path that are equally long are the same.
    have hsame : other.path = location.path := by
      have hleft := (Bool.and_eq_true_iff.mp hothercovers).2
      have hright := (Bool.and_eq_true_iff.mp hcovers).2
      rw [List.isPrefixOf_iff_prefix] at hleft hright
      have hlength := Nat.le_antisymm (hlongest other hother hothercovers) hle
      rw [← String.length_toList, ← String.length_toList] at hlength
      exact String.toList_injective
        ((List.prefix_of_prefix_length_le hleft hright hlength.le).eq_of_length hlength)
    have hkey : other.key = location.key := by
      rw [Location.key_of_covers hothercovers, Location.key_of_covers hcovers, hsame]
    rw [List.inj_on_of_nodup_map hkeys hother hmem hkey]

theorem inexactLocation_final (hlongest : longestLocation locations path = some location)
    (hfinal : location.modifier = .final) :
    inexactLocation pcre locations path = some location := by
  unfold inexactLocation
  rw [hlongest]
  exact if_pos hfinal

theorem inexactLocation_longest (hlongest : longestLocation locations path = some location)
    (hpatterns : ∀ other ∈ locations, other.modifier ≠ .pattern) :
    inexactLocation pcre locations path = some location := by
  have hnone : patternLocation pcre locations path = none := by
    rw [patternLocation, List.find?_eq_none]
    intro other hother
    simp [hpatterns other hother]
  unfold inexactLocation
  rw [hlongest, hnone]
  exact ite_self _

end Nginx

end DjangoMojo.Foundation
