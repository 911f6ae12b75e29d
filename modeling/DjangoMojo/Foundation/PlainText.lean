import DjangoMojo.Foundation.IpNetworks

/-! # Texts of plain characters

Numbers, texts that are put together from plain parts, and the address of a network
are plain: a configuration reads each as one word or as a part of one.
-/

namespace DjangoMojo.Foundation

namespace Nginx

def PlainChars (text : List Char) : Prop := ∀ char ∈ text, isPlain char = true

instance (text : List Char) : Decidable (PlainChars text) :=
  decidable_of_iff (text.all isPlain = true) List.all_eq_true

namespace PlainChars

theorem nil : PlainChars [] := fun _ hmem => nomatch hmem

theorem append {first second : List Char} (hfirst : PlainChars first)
    (hsecond : PlainChars second) : PlainChars (first ++ second) := by
  intro char hchar
  cases List.mem_append.mp hchar with
  | inl hmem => exact hfirst char hmem
  | inr hmem => exact hsecond char hmem

theorem text_append {first second : String} (hfirst : PlainChars first.toList)
    (hsecond : PlainChars second.toList) : PlainChars (first ++ second).toList := by
  rw [String.toList_append]
  exact hfirst.append hsecond

theorem of_accepts {accepts : Char → Bool}
    (hnone : (specialChars.all fun char => !accepts char) = true) {text : List Char}
    (haccepts : text.all accepts = true) : PlainChars text := by
  intro char hchar
  exact isPlain_of_accepts hnone (List.all_eq_true.mp haccepts char hchar)

end PlainChars

namespace Plain

theorem chars {text : List Char} (hplain : Plain text) : PlainChars text := hplain.2

theorem append_chars {first second : String} (hfirst : Plain first.toList)
    (hsecond : PlainChars second.toList) : Plain (first ++ second).toList := by
  refine ⟨?_, hfirst.chars.text_append hsecond⟩
  rw [String.toList_append]
  simp [hfirst.1]

end Plain

/-! ### Numbers -/

def isDecimalChar (char : Char) : Bool := char.isDigit || char = '-'

theorem plainChars_digits (number : Nat) : PlainChars (toString number).toList := by
  intro char hchar
  have hdigit : char.isDigit = true := by
    refine Nat.isDigit_of_mem_toDigits (by decide) (by decide) (?_ : char ∈ Nat.toDigits 10 number)
    rwa [Nat.toString_eq_ofList_toDigits, String.toList_ofList] at hchar
  refine isPlain_of_accepts (by decide) (?_ : isDecimalChar char = true)
  rw [isDecimalChar, hdigit, Bool.true_or]

theorem plain_nat (number : Nat) : Plain (toString number).toList := by
  refine ⟨?_, plainChars_digits number⟩
  rw [Nat.toString_eq_ofList_toDigits, String.toList_ofList]
  exact Nat.toDigits_ne_nil

theorem plain_int (number : Int) : Plain (toString number).toList := by
  cases number with
  | ofNat natural => exact plain_nat natural
  | negSucc natural =>
    change Plain ("-" ++ toString (natural + 1)).toList
    have hsign : Plain "-".toList := by decide
    exact hsign.append_chars (plainChars_digits _)

/-! ### Parts -/

theorem mem_intercalate {Item : Type} {separator : List Item} {parts : List (List Item)}
    {item : Item} (hitem : item ∈ List.intercalate separator parts) :
    item ∈ separator ∨ ∃ part ∈ parts, item ∈ part := by
  induction parts with
  | nil => cases hitem
  | cons first rest ih =>
    cases rest with
    | nil =>
      rw [List.intercalate_singleton] at hitem
      exact .inr ⟨first, List.mem_cons_self, hitem⟩
    | cons second rest =>
      rw [List.intercalate_cons_cons, List.append_assoc, List.mem_append,
        List.mem_append] at hitem
      rcases hitem with hfirst | hseparator | hrest
      · exact .inr ⟨first, List.mem_cons_self, hfirst⟩
      · exact .inl hseparator
      · cases ih hrest with
        | inl hseparator => exact .inl hseparator
        | inr hpart =>
          obtain ⟨part, hpart, hmem⟩ := hpart
          exact .inr ⟨part, List.mem_cons_of_mem _ hpart, hmem⟩

theorem PlainChars.intercalate {separator : List Char} {parts : List (List Char)}
    (hseparator : PlainChars separator) (hparts : ∀ part ∈ parts, PlainChars part) :
    PlainChars (List.intercalate separator parts) := by
  intro char hchar
  cases mem_intercalate hchar with
  | inl hmem => exact hseparator char hmem
  | inr hmem =>
    obtain ⟨part, hpart, hchar⟩ := hmem
    exact hparts part hpart char hchar

/-- A text is plain when the parts between its separators are. -/
theorem PlainChars.of_splitOn {separator : Char} {text : List Char}
    (hseparator : isPlain separator = true)
    (hparts : ∀ part ∈ text.splitOn separator, PlainChars part) : PlainChars text := by
  have hjoin : [separator].intercalate (text.splitOn separator) = text :=
    List.intercalate_splitOn separator
  rw [← hjoin]
  refine PlainChars.intercalate ?_ hparts
  intro char hchar
  rw [List.mem_singleton.mp hchar]
  exact hseparator

theorem mem_of_mem_splitOnP {stops : Char → Bool} {text part : List Char}
    (hpart : part ∈ text.splitOnP stops) : ∀ char ∈ part, char ∈ text ∧ stops char = false := by
  induction text generalizing part with
  | nil =>
    rw [List.splitOnP_nil, List.mem_singleton] at hpart
    subst hpart
    exact fun _ hmem => nomatch hmem
  | cons first rest ih =>
    have hlater {other : List Char} (hother : other ∈ rest.splitOnP stops) :
        ∀ char ∈ other, char ∈ first :: rest ∧ stops char = false := by
      intro char hchar
      obtain ⟨hmem, hstops⟩ := ih hother char hchar
      exact ⟨List.mem_cons_of_mem _ hmem, hstops⟩
    rw [List.splitOnP_cons_eq_if_modifyHead] at hpart
    split at hpart
    next =>
      cases List.mem_cons.mp hpart with
      | inl hempty =>
        subst hempty
        exact fun _ hmem => nomatch hmem
      | inr hmem => exact hlater hmem
    next hgoes =>
      cases hparts : rest.splitOnP stops with
      | nil => exact absurd hparts (List.splitOnP_ne_nil stops rest)
      | cons head tail =>
        rw [hparts, List.modifyHead_cons, List.mem_cons] at hpart
        cases hpart with
        | inl heq =>
          subst heq
          intro char hchar
          cases List.mem_cons.mp hchar with
          | inl heq =>
            rw [heq]
            exact ⟨List.mem_cons_self, by simpa using hgoes⟩
          | inr hmem => exact hlater (hparts ▸ List.mem_cons_self) char hmem
        | inr hmem => exact hlater (hparts ▸ List.mem_cons_of_mem _ hmem)

/-- Plain characters leave the reader in the word for what comes next. -/
theorem staysInWord_append {first second : List Char} (hfirst : PlainChars first)
    (hsecond : staysInWord false false second = true) :
    staysInWord false false (first ++ second) = true := by
  induction first with
  | nil => exact hsecond
  | cons char rest ih =>
    have hplain := hfirst char List.mem_cons_self
    have hrest := ih fun other hother => hfirst other (List.mem_cons_of_mem _ hother)
    simp only [isPlain, Bool.not_eq_true', Bool.or_eq_false_iff,
      decide_eq_false_iff_not] at hplain
    obtain ⟨⟨⟨⟨⟨⟨⟨⟨hblank, hsemicolon⟩, hbrace⟩, _⟩, _⟩, _⟩, _⟩, hslash⟩, hdollar⟩ := hplain
    simp [staysInWord, endsWord, hblank, hsemicolon, hbrace, hslash, hdollar, hrest]

/-! ### Lists of words -/

def spaceWords (text : List Char) : List (List Char) := (text.splitOn ' ').filter (· ≠ [])

theorem scan_parts {parts : List (List Char)} (hplain : ∀ part ∈ parts, PlainChars part)
    (hne : parts ≠ []) :
    scan .between (List.intercalate [' '] parts ++ [';', '\n']) =
      (.between, (parts.filter (· ≠ [])).map .word ++ [.semicolon]) := by
  -- What one part adds, before a space or before the semicolon.
  have hone {part : List Char} (hpart : PlainChars part) (stop : Char) (rest : List Char)
      (hstop : endsWord stop = true) :
      scan .between (part ++ stop :: rest) =
        ((scan .between (stop :: rest)).1,
          (if part ≠ [] then [.word part] else []) ++ (scan .between (stop :: rest)).2) := by
    by_cases hempty : part = []
    · subst hempty
      simp
    · rw [scan_append, scan_between_plain ⟨hempty, hpart⟩]
      simp [hempty, scan, next, start, hstop]
  induction parts with
  | nil => exact absurd rfl hne
  | cons part rest ih =>
    have hpart := hplain part List.mem_cons_self
    cases rest with
    | nil =>
      rw [List.intercalate_singleton, hone hpart ';' ['\n'] rfl]
      by_cases hempty : part = []
      · subst hempty
        rfl
      · simp [hempty, scan, next, start, endsWord, punctuation, isBlank]
    | cons second rest =>
      have hrest := ih (fun other hother => hplain other (List.mem_cons_of_mem _ hother))
        (List.cons_ne_nil _ _)
      have hspace (chars : List Char) : scan .between (' ' :: chars) = scan .between chars :=
        rfl
      rw [List.intercalate_cons_cons, List.append_assoc, List.append_assoc,
        List.singleton_append, hone hpart ' ' _ rfl, hspace, hrest]
      generalize second :: rest = parts
      by_cases hempty : part = []
      · simp [hempty]
      · simp [hempty]

/-- A directive whose last value is a list of words. -/
theorem scan_spaceWords {text : List Char}
    (hplain : ∀ char ∈ text, char = ' ' ∨ isPlain char = true) :
    scan .between (text ++ [';', '\n']) =
      (.between, (spaceWords text).map .word ++ [.semicolon]) := by
  have hparts : ∀ part ∈ text.splitOn ' ', PlainChars part := by
    intro part hpart char hchar
    obtain ⟨hmem, hspace⟩ := mem_of_mem_splitOnP hpart char hchar
    cases hplain char hmem with
    | inl heq => simp [heq] at hspace
    | inr hok => exact hok
  have hscan := scan_parts hparts (List.splitOnP_ne_nil _ text)
  rwa [List.intercalate_splitOn] at hscan

end Nginx

/-! ### Networks -/

namespace IpNetwork

open Nginx

theorem plainChars_hexText (number : Nat) : PlainChars (hexText number) := by
  have hdigits : PlainChars "0123456789abcdef".toList := by decide
  have hdigit (digit : Nat) : isPlain ("0123456789abcdef".toList.getD digit '0') = true := by
    rw [List.getD_eq_getElem?_getD]
    cases hfound : "0123456789abcdef".toList[digit]? with
    | none => decide
    | some char => exact hdigits char (List.mem_of_getElem? hfound)
  intro char hchar
  obtain ⟨digit, _, rfl⟩ := List.mem_map.mp hchar
  exact hdigit digit

theorem plainChars_compressed (numbers : List Nat) :
    ∀ part ∈ compressed numbers, PlainChars part := by
  have htexts : ∀ part ∈ numbers.map hexText, PlainChars part := by
    intro part hpart
    obtain ⟨number, _, rfl⟩ := List.mem_map.mp hpart
    exact plainChars_hexText number
  have hempty (condition : Prop) [Decidable condition] :
      ∀ part ∈ (if condition then [[]] else []), PlainChars part := by
    intro part hpart
    split at hpart
    · rw [List.mem_singleton.mp hpart]
      exact .nil
    · cases hpart
  intro part hpart
  unfold compressed at hpart
  simp only at hpart
  split at hpart
  · exact htexts part hpart
  · rw [List.mem_append, List.mem_append, List.mem_append, List.mem_append,
      List.mem_singleton] at hpart
    rcases hpart with (((hfirst | htake) | hskip) | hdrop) | hlast
    · exact hempty _ part hfirst
    · exact htexts part (List.mem_of_mem_take htake)
    · subst hskip
      exact .nil
    · exact htexts part (List.mem_of_mem_drop hdrop)
    · exact hempty _ part hlast

theorem plainChars_addressText (network : IpNetwork) : PlainChars network.addressText := by
  unfold addressText
  split
  · exact PlainChars.intercalate (by decide) (plainChars_compressed _)
  · refine PlainChars.intercalate (by decide) ?_
    intro part hpart
    obtain ⟨octet, _, rfl⟩ := List.mem_map.mp hpart
    exact plainChars_digits octet

theorem plain_head (network : IpNetwork) : Plain network.head.toList := by
  rw [head, String.toList_ofList]
  constructor
  · split <;> simp
  · refine (plainChars_addressText network).append ?_
    split <;> decide

end IpNetwork

end DjangoMojo.Foundation
