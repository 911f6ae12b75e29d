import Mathlib.Data.List.Basic

/-! # Keys that are joined from parts

A key is a list of parts with a separator between them. What lies before its first separator, or
after its last one, tells which parts it was joined from.
-/

namespace DjangoMojo.Foundation

namespace JoinedKeys

variable {Item : Type} {separator : Item}

/-- The part before the first separator. -/
theorem first_inj {first second left right : List Item} (hfirst : separator ∉ first)
    (hsecond : separator ∉ second)
    (heq : first ++ separator :: left = second ++ separator :: right) :
    first = second ∧ left = right := by
  induction first generalizing second with
  | nil =>
    cases second with
    | nil => exact ⟨rfl, (List.cons.inj heq).2⟩
    | cons head rest =>
      refine absurd ?_ hsecond
      rw [← (List.cons.inj heq).1]
      exact List.mem_cons_self
  | cons head rest ih =>
    cases second with
    | nil =>
      refine absurd ?_ hfirst
      rw [(List.cons.inj heq).1]
      exact List.mem_cons_self
    | cons other others =>
      obtain ⟨hhead, hrest⟩ := List.cons.inj heq
      obtain ⟨hparts, hafter⟩ := ih (fun hmem => hfirst (List.mem_cons_of_mem _ hmem))
        (fun hmem => hsecond (List.mem_cons_of_mem _ hmem)) hrest
      exact ⟨by rw [hhead, hparts], hafter⟩

theorem last_inj {first second left right : List Item} (hleft : separator ∉ left)
    (hright : separator ∉ right)
    (heq : first ++ separator :: left = second ++ separator :: right) :
    first = second ∧ left = right := by
  have hreverse := congrArg List.reverse heq
  simp only [List.reverse_append, List.reverse_cons, List.append_assoc, List.singleton_append]
    at hreverse
  obtain ⟨hparts, hrest⟩ := first_inj (fun hmem => hleft (List.mem_reverse.mp hmem))
    (fun hmem => hright (List.mem_reverse.mp hmem)) hreverse
  exact ⟨List.reverse_injective hrest, List.reverse_injective hparts⟩

/-! ### Numbers as parts -/

theorem isDigit_of_mem {number : Nat} {char : Char} (hmem : char ∈ (toString number).toList) :
    char.isDigit = true := by
  refine Nat.isDigit_of_mem_toDigits (by decide) (by decide) (?_ : char ∈ Nat.toDigits 10 number)
  rwa [Nat.toString_eq_ofList_toDigits, String.toList_ofList] at hmem

theorem not_mem_number {number : Nat} {char : Char} (hchar : char.isDigit = false) :
    char ∉ (toString number).toList := by
  intro hmem
  rw [isDigit_of_mem hmem] at hchar
  cases hchar

theorem number_inj {first second : Nat}
    (heq : (toString first).toList = (toString second).toList) : first = second := by
  rw [Nat.toString_eq_ofList_toDigits, Nat.toString_eq_ofList_toDigits, String.toList_ofList,
    String.toList_ofList] at heq
  rw [← @Nat.ofDigitChars_ten_toDigits first, heq, Nat.ofDigitChars_ten_toDigits]

end JoinedKeys

end DjangoMojo.Foundation
