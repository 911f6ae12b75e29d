import DjangoMojo.Foundation.NginxDirectives
import Mathlib.Data.List.Induction

/-! # Lines that spell directives

How the lines of a generated file are read: a line that is written out in the
program, a line with one word that is not fixed, and the lines of a block. The
characters of a literal are stated as a list, on which a scan is evaluated.
-/

namespace DjangoMojo.Foundation

namespace Nginx

/-- The characters of a text that is written out as one literal or as several. -/
inductive Spells : String → List Char → Prop
  | literal (chars : List Char) : Spells (String.ofList chars) chars
  | append {first second : String} {left right : List Char} :
      Spells first left → Spells second right → Spells (first ++ second) (left ++ right)

theorem Spells.toList_eq {text : String} {chars : List Char} (hspells : Spells text chars) :
    text.toList = chars := by
  induction hspells with
  | literal chars => exact String.toList_ofList
  | append _ _ hfirst hsecond => rw [String.toList_append, hfirst, hsecond]

inductive SpellsAll : List String → List (List Char) → Prop
  | nil : SpellsAll [] []
  | cons {text : String} {rest : List String} {chars : List Char} {more : List (List Char)} :
      Spells text chars → SpellsAll rest more → SpellsAll (text :: rest) (chars :: more)

theorem SpellsAll.wordTokens_eq {words : List String} {texts : List (List Char)}
    (hspells : SpellsAll words texts) : wordTokens words = texts.map Token.word := by
  induction hspells with
  | nil => rfl
  | cons htext _ ih =>
    rw [wordTokens, List.map_cons, List.map_cons, htext.toList_eq]
    exact congrArg _ ih

namespace Lexes

/-! ### Fixed lines -/

theorem fixed {line : String} {chars : List Char} {words : List String}
    {texts : List (List Char)} {stop : List Token} (hline : Spells line chars)
    (hwords : SpellsAll words texts)
    (hscan : scan .between (chars ++ ['\n']) = (.between, texts.map .word ++ stop)) :
    Lexes [line] (wordTokens words ++ stop) := by
  have hchars : lineChars [line] = chars ++ ['\n'] := by simp [lineChars, hline.toList_eq]
  rw [Lexes, hchars, hscan, hwords.wordTokens_eq]

theorem simple_cons {line : String} {chars : List Char} {words : List String}
    {texts : List (List Char)} {rest : List String} {directives : List Directive}
    (hline : Spells line chars) (hwords : SpellsAll words texts)
    (hscan : scan .between (chars ++ ['\n']) = (.between, texts.map .word ++ [.semicolon]))
    (hrest : Lexes rest (allTokens directives)) :
    Lexes (line :: rest) (allTokens (.simple words :: directives)) :=
  (fixed hline hwords hscan).append hrest

theorem skip {line : String} {chars : List Char} (hline : Spells line chars)
    (hscan : scan .between (chars ++ ['\n']) = (.between, [])) : Lexes [line] (allTokens []) :=
  fixed hline .nil hscan

theorem skip_cons {line : String} {chars : List Char} {rest : List String}
    {directives : List Directive} (hline : Spells line chars)
    (hscan : scan .between (chars ++ ['\n']) = (.between, []))
    (hrest : Lexes rest (allTokens directives)) : Lexes (line :: rest) (allTokens directives) :=
  (fixed hline .nil hscan).append hrest

theorem blank : Lexes [""] (allTokens []) := skip (.literal []) rfl

/-! ### Lines with a value -/

theorem valued {before word after : String} {chars close : List Char} {left : List String}
    {texts : List (List Char)} {rest : List Token} (hbefore : Spells before chars)
    (hleft : SpellsAll left texts) (hscan : scan .between chars = (.between, texts.map .word))
    (hword : Plain word.toList) (hafter : Spells after close)
    (hclose : ∀ text, scan (.word text false false) (close ++ ['\n']) =
      (.between, .word text :: rest)) :
    Lexes [before ++ word ++ after] (wordTokens left ++ .word word.toList :: rest) := by
  refine line ?_ hword ?_
  · rw [hbefore.toList_eq, hscan, hleft.wordTokens_eq]
  · intro text
    rw [hafter.toList_eq, hclose]

theorem simple_value (left right : List String) {before word after : String}
    {chars close : List Char} {texts more : List (List Char)} (hbefore : Spells before chars)
    (hleft : SpellsAll left texts) (hscan : scan .between chars = (.between, texts.map .word))
    (hword : Plain word.toList) (hafter : Spells after close) (hright : SpellsAll right more)
    (hclose : ∀ text, scan (.word text false false) (close ++ ['\n']) =
      (.between, .word text :: (more.map .word ++ [.semicolon]))) :
    Lexes [before ++ word ++ after] (allTokens [.simple (left ++ word :: right)]) := by
  have hline := valued hbefore hleft hscan hword hafter hclose
  rw [← hright.wordTokens_eq] at hline
  simpa [Directive.tokens, wordTokens] using hline

/-- The first line of a block with one argument that is not fixed, the last one. -/
theorem opening_value (left : List String) {before word after : String} {chars close : List Char}
    {texts : List (List Char)} (hbefore : Spells before chars) (hleft : SpellsAll left texts)
    (hscan : scan .between chars = (.between, texts.map .word)) (hword : Plain word.toList)
    (hafter : Spells after close)
    (hclose : ∀ text, scan (.word text false false) (close ++ ['\n']) =
      (.between, [.word text, .openBrace])) :
    Lexes [before ++ word ++ after] (wordTokens (left ++ [word]) ++ [.openBrace]) := by
  have hline := valued hbefore hleft hscan hword hafter hclose
  simpa [wordTokens] using hline

/-! ### Blocks -/

theorem cons {line : String} {rest : List String} {directive : Directive}
    {directives : List Directive} (hline : Lexes [line] (allTokens [directive]))
    (hrest : Lexes rest (allTokens directives)) :
    Lexes (line :: rest) (allTokens (directive :: directives)) := by
  simpa using hline.append hrest

theorem trees {first second : List String} {left right : List Directive}
    (hfirst : Lexes first (allTokens left)) (hsecond : Lexes second (allTokens right)) :
    Lexes (first ++ second) (allTokens (left ++ right)) := by
  rw [allTokens_append]
  exact hfirst.append hsecond

theorem block {first lines last : List String} {words : List String} {body : List Directive}
    (hfirst : Lexes first (wordTokens words ++ [.openBrace]))
    (hlines : Lexes lines (allTokens body)) (hlast : Lexes last [.closeBrace]) :
    Lexes (first ++ lines ++ last) (allTokens [.block words body]) := by
  have hall := (hfirst.append hlines).append hlast
  simpa [Directive.tokens] using hall

theorem items {Item : Type} {items : List Item} {lines : Item → List String}
    {trees : Item → List Directive}
    (hitems : ∀ item ∈ items, Lexes (lines item) (allTokens (trees item))) :
    Lexes (items.flatMap lines) (allTokens (items.flatMap trees)) := by
  rw [allTokens_flatMap]
  exact flatMap hitems

theorem each {Item : Type} {items : List Item} {lines : Item → List String}
    {tree : Item → Directive} (hitems : ∀ item ∈ items, Lexes (lines item) (allTokens [tree item])) :
    Lexes (items.flatMap lines) (allTokens (items.map tree)) := by
  rw [List.map_eq_flatMap, allTokens_flatMap]
  exact flatMap hitems

/-! ### Directives of several lines -/

theorem simple_of_words {lines words : List String}
    (hlines : Lexes lines (wordTokens words ++ [.semicolon])) :
    Lexes lines (allTokens [.simple words]) := by
  simpa [Directive.tokens] using hlines

theorem words_append (words : List String) {line : String} {chars : List Char}
    {texts : List (List Char)} {rest : List String} {more : List String} {stop : List Token}
    (hline : Spells line chars) (hwords : SpellsAll words texts)
    (hscan : scan .between (chars ++ ['\n']) = (.between, texts.map .word ++ []))
    (hrest : Lexes rest (wordTokens more ++ stop)) :
    Lexes (line :: rest) (wordTokens (words ++ more) ++ stop) := by
  have hall := (fixed hline hwords hscan).append hrest
  simpa [wordTokens] using hall

end Lexes

/-! ### Files -/

/-- The lines of a file: the last one is blank, and those before it spell the
directives. -/
def Reads (lines : List String) (directives : List Directive) : Prop :=
  ∃ before, lines = before ++ [""] ∧ Lexes before (allTokens directives)

namespace Reads

variable {lines : List String} {directives : List Directive}

theorem lexes (hreads : Reads lines directives) : Lexes lines (allTokens directives) := by
  obtain ⟨before, rfl, hlexes⟩ := hreads
  simpa using hlexes.append Lexes.blank

theorem append {first : List String} {left : List Directive}
    (hfirst : Lexes first (allTokens left)) (hreads : Reads lines directives) :
    Reads (first ++ lines) (left ++ directives) := by
  obtain ⟨before, rfl, hlexes⟩ := hreads
  exact ⟨first ++ before, by simp, hfirst.trees hlexes⟩

theorem lex (hreads : Reads lines directives) :
    Nginx.lex (joined lines) = some (allTokens directives) := by
  obtain ⟨before, rfl, hlexes⟩ := hreads
  exact lex_of_lexes hlexes

end Reads

/-! ### Lines that are read as intended under a condition -/

namespace LexesIff

theorem trees {first second : List String} {left right : List Directive} {one other : Prop}
    (hfirst : LexesIff first (allTokens left) one)
    (hsecond : LexesIff second (allTokens right) other) :
    LexesIff (first ++ second) (allTokens (left ++ right)) (one ∧ other) := by
  rw [allTokens_append]
  exact hfirst.append hsecond

theorem after {first second : List String} {left right : List Token} {condition : Prop}
    (hfirst : Lexes first left) (hsecond : LexesIff second right condition) :
    LexesIff (first ++ second) (left ++ right) condition :=
  ((of_lexes hfirst).append hsecond).congr (iff_of_eq (true_and condition))

theorem before {first second : List String} {left right : List Token} {condition : Prop}
    (hfirst : LexesIff first left condition) (hsecond : Lexes second right) :
    LexesIff (first ++ second) (left ++ right) condition :=
  (hfirst.append (of_lexes hsecond)).congr (iff_of_eq (and_true condition))

theorem trees_after {first second : List String} {left right : List Directive} {condition : Prop}
    (hfirst : Lexes first (allTokens left))
    (hsecond : LexesIff second (allTokens right) condition) :
    LexesIff (first ++ second) (allTokens (left ++ right)) condition := by
  rw [allTokens_append]
  exact after hfirst hsecond

theorem trees_before {first second : List String} {left right : List Directive} {condition : Prop}
    (hfirst : LexesIff first (allTokens left) condition)
    (hsecond : Lexes second (allTokens right)) :
    LexesIff (first ++ second) (allTokens (left ++ right)) condition := by
  rw [allTokens_append]
  exact before hfirst hsecond

theorem block {first lines last : List String} {words : List String} {body : List Directive}
    {condition : Prop} (hfirst : Lexes first (wordTokens words ++ [.openBrace]))
    (hlines : LexesIff lines (allTokens body) condition) (hlast : Lexes last [.closeBrace]) :
    LexesIff (first ++ lines ++ last) (allTokens [.block words body]) condition := by
  have hall := before (after hfirst hlines) hlast
  simpa [Directive.tokens] using hall

end LexesIff

/-! ### Quoted words -/

/-- Whether a text inside quotes leaves the reader in an escape. -/
def escapedAfter : Bool → List Char → Bool
  | escaped, [] => escaped
  | escaped, char :: rest => escapedAfter (!escaped && char = '\\') rest

theorem scan_quoted {quote : Char} {chars : List Char} (hquote : quote ∉ chars)
    (text : List Char) (escaped : Bool) :
    scan (.quoted quote text escaped) chars =
      (.quoted quote (text ++ chars) (escapedAfter escaped chars), []) := by
  induction chars generalizing text escaped with
  | nil => simp [scan, escapedAfter]
  | cons char rest ih =>
    rw [List.mem_cons, not_or] at hquote
    have hchar : char ≠ quote := fun heq => hquote.1 heq.symm
    cases escaped with
    | true =>
      have hrest := ih hquote.2 (text ++ [char]) false
      simp [scan, next, escapedAfter, hrest]
    | false =>
      have hrest := ih hquote.2 (text ++ [char]) (char = '\\')
      simp [scan, next, escapedAfter, hchar, hrest]

theorem escapedAfter_append (escaped : Bool) (chars : List Char) (char : Char) :
    escapedAfter escaped (chars ++ [char]) =
      (!escapedAfter escaped chars && char = '\\') := by
  induction chars generalizing escaped with
  | nil => rfl
  | cons first rest ih => exact ih _

theorem escapedAfter_iff (chars : List Char) :
    escapedAfter false chars = true ↔
      (chars.reverse.takeWhile (· = '\\')).length % 2 = 1 := by
  induction chars using List.reverseRecOn with
  | nil => simp [escapedAfter]
  | append_singleton chars char ih =>
    rw [escapedAfter_append, List.reverse_append, List.reverse_singleton,
      List.singleton_append, List.takeWhile_cons]
    by_cases hslash : char = '\\'
    · simp only [hslash, decide_true, Bool.and_true, if_true, List.length_cons,
        Bool.not_eq_true', ← Bool.not_eq_true, ih]
      omega
    · simp [hslash]

end Nginx

end DjangoMojo.Foundation
