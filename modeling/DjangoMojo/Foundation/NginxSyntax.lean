import Mathlib.Data.List.Basic

/-! # The lexical syntax of nginx configuration

The reader of nginx splits a file into words, semicolons and braces. Between
words, white space is skipped, `#` starts a comment, and a quote starts a word
that goes on to the next such quote. A word without quotes ends at white space,
`;` or an opening brace. A backslash takes the next character into the word, and
a brace right after `$` belongs to the word. The text of a word is kept as it is
written, less its quotes.
-/

namespace DjangoMojo.Foundation

namespace Nginx

inductive Token where
  | word (text : List Char)
  | semicolon
  | openBrace
  | closeBrace
  | unexpected (char : Char)
  deriving DecidableEq, Repr

inductive LexState where
  | between
  | comment
  /-- In a word without quotes, after a backslash or after `$`. -/
  | word (text : List Char) (escaped dollar : Bool)
  | quoted (quote : Char) (text : List Char) (escaped : Bool)
  | closed
  deriving DecidableEq, Repr

def isBlank (char : Char) : Bool := char = ' ' || char = '\t' || char = '\r' || char = '\n'

def endsWord (char : Char) : Bool := isBlank char || char = ';' || char = '{'

def punctuation (char : Char) : List Token :=
  if char = ';' then [.semicolon] else if char = '{' then [.openBrace] else []

def start (char : Char) : LexState × List Token :=
  if endsWord char then (.between, punctuation char)
  else if char = '}' then (.between, [.closeBrace])
  else if char = '#' then (.comment, [])
  else if char = '"' || char = '\'' then (.quoted char [] false, [])
  else (.word [char] (char = '\\') (char = '$'), [])

def next : LexState → Char → LexState × List Token
  | .between, char => start char
  | .comment, char => (if char = '\n' then .between else .comment, [])
  | .word text escaped dollar, char =>
    if escaped then (.word (text ++ [char]) false false, [])
    else if char = '{' && dollar then (.word (text ++ [char]) false true, [])
    else if endsWord char then (.between, .word text :: punctuation char)
    else (.word (text ++ [char]) (char = '\\') (char = '$'), [])
  | .quoted quote text escaped, char =>
    if escaped then (.quoted quote (text ++ [char]) false, [])
    else if char = quote then (.closed, [.word text])
    else (.quoted quote (text ++ [char]) (char = '\\'), [])
  | .closed, char =>
    if endsWord char then (.between, punctuation char)
    else if char = ')' then (.word [char] false false, [])
    else (.between, [.unexpected char])

def scan : LexState → List Char → LexState × List Token
  | state, [] => (state, [])
  | state, char :: rest =>
    ((scan (next state char).1 rest).1, (next state char).2 ++ (scan (next state char).1 rest).2)

/-- The tokens of a file; `none` when it ends inside a word. -/
def lex (text : String) : Option (List Token) :=
  if (scan .between text.toList).1 = .between then some (scan .between text.toList).2 else none

theorem scan_append (state : LexState) (first second : List Char) :
    scan state (first ++ second) = ((scan (scan state first).1 second).1,
      (scan state first).2 ++ (scan (scan state first).1 second).2) := by
  induction first generalizing state with
  | nil => rfl
  | cons char rest ih => simp only [List.cons_append, scan, ih, List.append_assoc]

/-! ### Plain words -/

def isPlain (char : Char) : Bool :=
  !(isBlank char || char = ';' || char = '{' || char = '}' || char = '#' || char = '"' ||
    char = '\'' || char = '\\' || char = '$')

def Plain (text : List Char) : Prop := text ≠ [] ∧ ∀ char ∈ text, isPlain char = true

/-- Decided by the characters of the text, not by all that there are. -/
instance (text : List Char) : Decidable (Plain text) :=
  decidable_of_iff (text ≠ [] ∧ text.all isPlain = true) (and_congr_right fun _ => List.all_eq_true)

structure Word where
  text : String
  plain : Plain text.toList

def specialChars : List Char :=
  [' ', '\t', '\r', '\n', ';', '\x7b', '\x7d', '#', '"', '\'', '\\', '$']

theorem isPlain_of_not_mem {char : Char} (hnot : char ∉ specialChars) : isPlain char = true := by
  simp only [specialChars, List.mem_cons, not_or, List.not_mem_nil, not_false_eq_true,
    and_true] at hnot
  simp [isPlain, isBlank, hnot]

theorem isPlain_of_accepts {accepts : Char → Bool}
    (hnone : (specialChars.all fun char => !accepts char) = true) {char : Char}
    (haccepts : accepts char = true) : isPlain char = true := by
  apply isPlain_of_not_mem
  intro hmem
  have hrefused := List.all_eq_true.mp hnone char hmem
  rw [haccepts] at hrefused
  cases hrefused

theorem next_word_plain {char : Char} (hplain : isPlain char = true) (text : List Char)
    (dollar : Bool) :
    next (.word text false dollar) char = (.word (text ++ [char]) false false, []) := by
  simp only [isPlain, Bool.not_eq_true', Bool.or_eq_false_iff, decide_eq_false_iff_not] at hplain
  obtain ⟨⟨⟨⟨⟨⟨⟨⟨hblank, hsemicolon⟩, hbrace⟩, _⟩, _⟩, _⟩, _⟩, hslash⟩, hdollar⟩ := hplain
  simp [next, endsWord, hblank, hsemicolon, hbrace, hslash, hdollar]

theorem next_between_plain {char : Char} (hplain : isPlain char = true) :
    next .between char = (.word [char] false false, []) := by
  simp only [isPlain, Bool.not_eq_true', Bool.or_eq_false_iff, decide_eq_false_iff_not] at hplain
  obtain ⟨⟨⟨⟨⟨⟨⟨⟨hblank, hsemicolon⟩, hbrace⟩, hclose⟩, hsharp⟩, hdouble⟩, hsingle⟩, hslash⟩,
    hdollar⟩ := hplain
  simp [next, start, endsWord, hblank, hsemicolon, hbrace, hclose, hsharp, hdouble, hsingle,
    hslash, hdollar]

theorem scan_word_plain {chars : List Char} (hplain : ∀ char ∈ chars, isPlain char = true)
    (text : List Char) :
    scan (.word text false false) chars = (.word (text ++ chars) false false, []) := by
  induction chars generalizing text with
  | nil => simp [scan]
  | cons char rest ih =>
    have hrest := ih (fun other hother => hplain other (List.mem_cons_of_mem _ hother))
      (text ++ [char])
    simp [scan, next_word_plain (hplain char List.mem_cons_self), hrest]

theorem scan_between_plain {chars : List Char} (hplain : Plain chars) :
    scan .between chars = (.word chars false false, []) := by
  obtain ⟨hne, hall⟩ := hplain
  cases chars with
  | nil => exact absurd rfl hne
  | cons char rest =>
    have hrest := scan_word_plain
      (fun other hother => hall other (List.mem_cons_of_mem _ hother)) [char]
    simp [scan, next_between_plain (hall char List.mem_cons_self), hrest]

theorem scan_quoted_plain {quote : Char} {chars : List Char}
    (hplain : ∀ char ∈ chars, char ≠ quote ∧ char ≠ '\\') (text : List Char) :
    scan (.quoted quote text false) chars = (.quoted quote (text ++ chars) false, []) := by
  induction chars generalizing text with
  | nil => simp [scan]
  | cons char rest ih =>
    obtain ⟨hquote, hslash⟩ := hplain char List.mem_cons_self
    have hrest := ih (fun other hother => hplain other (List.mem_cons_of_mem _ hother))
      (text ++ [char])
    simp [scan, next, hquote, hslash, hrest]

/-! ### Texts that stay within their word -/

/-- The characters keep a word going and leave it in no escape. -/
def staysInWord : (escaped dollar : Bool) → List Char → Bool
  | escaped, _, [] => !escaped
  | true, _, _ :: rest => staysInWord false false rest
  | false, dollar, char :: rest =>
    if char = '{' then dollar && staysInWord false true rest
    else !endsWord char && staysInWord (char = '\\') (char = '$') rest

theorem scan_of_staysInWord {chars : List Char} {escaped dollar : Bool}
    (hstays : staysInWord escaped dollar chars = true) (text : List Char) :
    ∃ final, scan (.word text escaped dollar) chars = (.word (text ++ chars) false final, []) := by
  induction chars generalizing text escaped dollar with
  | nil =>
    cases escaped with
    | true => cases hstays
    | false => exact ⟨dollar, by simp [scan]⟩
  | cons char rest ih =>
    cases escaped with
    | true =>
      obtain ⟨final, hrest⟩ := ih hstays (text ++ [char])
      exact ⟨final, by simp [scan, next, hrest]⟩
    | false =>
      rw [staysInWord] at hstays
      split at hstays
      next hbrace =>
        obtain ⟨hdollar, hrest⟩ := Bool.and_eq_true_iff.mp hstays
        subst hbrace
        obtain ⟨final, hscan⟩ := ih hrest (text ++ ['{'])
        exact ⟨final, by simp [scan, next, hdollar, hscan]⟩
      next hbrace =>
        obtain ⟨hgoes, hrest⟩ := Bool.and_eq_true_iff.mp hstays
        obtain ⟨final, hscan⟩ := ih hrest (text ++ [char])
        have hends : endsWord char = false := by simpa using hgoes
        exact ⟨final, by simp [scan, next, hbrace, hends, hscan]⟩

/-- The first token that is read after the start of a word begins with the word so
far. -/
theorem head_scan_word {chars : List Char} {text : List Char} {escaped dollar : Bool}
    {token : Token} {tokens : List Token}
    (hscan : (scan (.word text escaped dollar) chars).2 = token :: tokens) :
    ∃ more, token = .word (text ++ more) := by
  induction chars generalizing text escaped dollar with
  | nil => cases hscan
  | cons char rest ih =>
    have hgoesOn (other final : Bool) (hnext : next (.word text escaped dollar) char =
        (.word (text ++ [char]) other final, [])) : ∃ more, token = .word (text ++ more) := by
      rw [scan, hnext, List.nil_append] at hscan
      obtain ⟨more, hmore⟩ := ih hscan
      exact ⟨char :: more, by simpa using hmore⟩
    cases escaped with
    | true => exact hgoesOn false false (by simp [next])
    | false =>
      by_cases hbrace : (char = '{' && dollar) = true
      · exact hgoesOn false true (by simp [next, hbrace])
      · cases hends : endsWord char with
        | true =>
          have hnext : next (.word text false dollar) char =
              (.between, .word text :: punctuation char) := by
            simp only [Bool.not_eq_true] at hbrace
            simp [next, hbrace, hends]
          rw [scan, hnext, List.cons_append] at hscan
          exact ⟨[], by simpa using (List.cons.inj hscan).1.symm⟩
        | false =>
          refine hgoesOn (char = '\\') (char = '$') ?_
          simp only [Bool.not_eq_true] at hbrace
          simp [next, hbrace, hends]

/-- A text that does not stay in its word is not read as a word of its own, whatever
follows that would end one. -/
theorem head_ne_of_leaves {chars : List Char} {escaped dollar : Bool}
    (hleaves : staysInWord escaped dollar chars = false) (text : List Char) {stop : Char}
    {rest : List Char} {tokens : List Token}
    (hscan : (scan (.word text escaped dollar) (chars ++ stop :: rest)).2 =
      .word (text ++ chars) :: tokens) : False := by
  induction chars generalizing text escaped dollar with
  | nil =>
    -- The word ends in an escape, which takes the next character in.
    cases escaped with
    | false => cases hleaves
    | true =>
      have hnext : next (.word text true dollar) stop =
          (.word (text ++ [stop]) false false, []) := by simp [next]
      rw [List.nil_append, scan, hnext, List.nil_append] at hscan
      obtain ⟨more, hmore⟩ := head_scan_word hscan
      have hlength := congrArg List.length (Token.word.inj hmore)
      simp at hlength
  | cons char chars ih =>
    have hgoesOn {other final : Bool} (hstays : staysInWord other final chars = false)
        (hnext : next (.word text escaped dollar) char =
          (.word (text ++ [char]) other final, [])) : False := by
      rw [List.cons_append, scan, hnext, List.nil_append] at hscan
      exact ih hstays (text ++ [char]) (by simpa using hscan)
    cases escaped with
    | true => exact hgoesOn hleaves (by simp [next])
    | false =>
      rw [staysInWord] at hleaves
      by_cases hbrace : char = '{'
      · rw [if_pos hbrace] at hleaves
        cases dollar with
        | true => exact hgoesOn (by simpa using hleaves) (by simp [next, hbrace])
        | false =>
          have hnext : next (.word text false false) char =
              (.between, .word text :: punctuation char) := by
            simp [next, hbrace, endsWord, isBlank]
          rw [List.cons_append, scan, hnext, List.cons_append] at hscan
          have hword := Token.word.inj (List.cons.inj hscan).1
          simp at hword
      · rw [if_neg hbrace] at hleaves
        cases hends : endsWord char with
        | true =>
          have hnext : next (.word text false dollar) char =
              (.between, .word text :: punctuation char) := by
            simp [next, hbrace, hends]
          rw [List.cons_append, scan, hnext, List.cons_append] at hscan
          have hword := Token.word.inj (List.cons.inj hscan).1
          simp at hword
        | false =>
          rw [hends] at hleaves
          exact hgoesOn (by simpa using hleaves) (by simp [next, hbrace, hends])

end Nginx

end DjangoMojo.Foundation
