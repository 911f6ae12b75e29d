import DjangoMojo.Foundation.NginxSyntax

/-! # Directives and the lines that spell them

A configuration is a list of directives, some of which have a block. A file that
is generated line by line is read line by line as well, as long as no line ends
inside a word: what a list of lines spells is what its parts spell. For a line
that is only sometimes read as intended there is a condition under which it is.
-/

namespace DjangoMojo.Foundation

namespace Nginx

/-- A directive with its name as the first word; in the order of the file. -/
inductive Directive where
  | simple (words : List String)
  | block (words : List String) (body : List Directive)

def wordTokens (words : List String) : List Token := words.map fun word => .word word.toList

mutual

def Directive.tokens : Directive → List Token
  | .simple words => wordTokens words ++ [.semicolon]
  | .block words body => wordTokens words ++ .openBrace :: (allTokens body ++ [.closeBrace])

def allTokens : List Directive → List Token
  | [] => []
  | directive :: rest => directive.tokens ++ allTokens rest

end

@[simp] theorem allTokens_nil : allTokens [] = [] := rfl

@[simp] theorem allTokens_cons (directive : Directive) (rest : List Directive) :
    allTokens (directive :: rest) = directive.tokens ++ allTokens rest := rfl

@[simp] theorem allTokens_append (first second : List Directive) :
    allTokens (first ++ second) = allTokens first ++ allTokens second := by
  induction first with
  | nil => rfl
  | cons directive rest ih => simp [ih]

theorem allTokens_flatMap {Item : Type} (items : List Item) (directives : Item → List Directive) :
    allTokens (items.flatMap directives) = items.flatMap fun item => allTokens (directives item) := by
  induction items with
  | nil => rfl
  | cons item rest ih => simp [ih]

/-! ### Lines -/

/-- `"\n".join(lines)`. -/
def joined (lines : List String) : String := String.intercalate "\n" lines

def lineChars (lines : List String) : List Char := lines.flatMap fun line => line.toList ++ ['\n']

@[simp] theorem lineChars_append (first second : List String) :
    lineChars (first ++ second) = lineChars first ++ lineChars second :=
  List.flatMap_append

theorem toList_joined_append_nil (lines : List String) :
    (joined (lines ++ [""])).toList = lineChars lines := by
  induction lines with
  | nil => rfl
  | cons line rest ih =>
    cases rest with
    | nil => simp [joined, lineChars, String.intercalate_cons_cons]
    | cons second rest =>
      have hjoined : joined (line :: second :: rest ++ [""]) =
          line ++ "\n" ++ joined (second :: rest ++ [""]) := by
        simp [joined, String.intercalate_cons_cons]
      rw [hjoined, String.toList_append, ih]
      simp [lineChars]

/-- The lines spell the tokens: they are read from between two words to between two
words. -/
def Lexes (lines : List String) (tokens : List Token) : Prop :=
  scan .between (lineChars lines) = (.between, tokens)

namespace Lexes

theorem nil : Lexes [] [] := rfl

theorem append {first second : List String} {left right : List Token} (hfirst : Lexes first left)
    (hsecond : Lexes second right) : Lexes (first ++ second) (left ++ right) := by
  unfold Lexes at *
  rw [lineChars_append, scan_append, hfirst]
  simp only [hsecond]

theorem flatMap {Item : Type} {items : List Item} {lines : Item → List String}
    {tokens : Item → List Token} (hitems : ∀ item ∈ items, Lexes (lines item) (tokens item)) :
    Lexes (items.flatMap lines) (items.flatMap tokens) := by
  induction items with
  | nil => exact nil
  | cons item rest ih =>
    exact (hitems item List.mem_cons_self).append
      (ih fun other hother => hitems other (List.mem_cons_of_mem _ hother))

theorem line {before word after : String} {tokens rest : List Token}
    (hbefore : scan .between before.toList = (.between, tokens)) (hword : Plain word.toList)
    (hafter : ∀ text, scan (.word text false false) (after.toList ++ ['\n']) =
      (.between, .word text :: rest)) :
    Lexes [before ++ word ++ after] (tokens ++ .word word.toList :: rest) := by
  have hchars : lineChars [before ++ word ++ after] =
      before.toList ++ (word.toList ++ (after.toList ++ ['\n'])) := by
    simp [lineChars]
  rw [Lexes, hchars, scan_append, hbefore]
  simp only
  rw [scan_append, scan_between_plain hword]
  simp only [hafter, List.nil_append]

end Lexes

theorem lex_of_lexes {lines : List String} {tokens : List Token} (hlexes : Lexes lines tokens) :
    lex (joined (lines ++ [""])) = some tokens := by
  unfold Lexes at hlexes
  rw [lex, toList_joined_append_nil, hlexes]
  simp

/-! ### Lines that are read as intended under a condition -/

/-- Under the condition the lines spell the tokens; without it what is read does not
even begin with them, whatever follows. -/
structure LexesIff (lines : List String) (tokens : List Token) (condition : Prop) : Prop where
  lexes : condition → Lexes lines tokens
  differs : ¬condition → ∀ rest, ¬tokens <+: (scan .between (lineChars lines ++ rest)).2

namespace LexesIff

theorem of_lexes {lines : List String} {tokens : List Token} (hlexes : Lexes lines tokens) :
    LexesIff lines tokens True :=
  ⟨fun _ => hlexes, fun hfalse => absurd trivial hfalse⟩

theorem append {first second : List String} {left right : List Token} {one other : Prop}
    (hfirst : LexesIff first left one) (hsecond : LexesIff second right other) :
    LexesIff (first ++ second) (left ++ right) (one ∧ other) := by
  refine ⟨fun hboth => (hfirst.lexes hboth.1).append (hsecond.lexes hboth.2), fun hnot rest => ?_⟩
  rw [lineChars_append, List.append_assoc]
  by_cases hone : one
  · -- The first lines are read as intended, so the difference is in the second.
    have hother : ¬other := fun hother => hnot ⟨hone, hother⟩
    have hlexes := hfirst.lexes hone
    unfold Lexes at hlexes
    rw [scan_append, hlexes]
    simp only [List.prefix_append_right_inj]
    exact hsecond.differs hother rest
  · intro hprefixed
    exact hfirst.differs hone (lineChars second ++ rest)
      ((List.prefix_append left right).trans hprefixed)

theorem congr {lines : List String} {tokens : List Token} {one other : Prop} (hiff : one ↔ other)
    (hlexes : LexesIff lines tokens one) : LexesIff lines tokens other :=
  propext hiff ▸ hlexes

/-- A line with one word that is not fixed and that is read as a word only when it
stays in it. The word is begun by plain characters. -/
theorem line {before begun word after : String} {tokens rest : List Token} {stop : Char}
    {chars : List Char} (hbefore : scan .between before.toList = (.between, tokens))
    (hbegun : Plain begun.toList) (hstop : after.toList ++ ['\n'] = stop :: chars)
    (hafter : ∀ text dollar, scan (.word text false dollar) (after.toList ++ ['\n']) =
      (.between, .word text :: rest)) :
    LexesIff [before ++ (begun ++ word) ++ after]
      (tokens ++ .word (begun ++ word).toList :: rest)
      (staysInWord false false word.toList = true) := by
  have hchars : lineChars [before ++ (begun ++ word) ++ after] =
      before.toList ++ (begun.toList ++ (word.toList ++ (after.toList ++ ['\n']))) := by
    simp [lineChars]
  constructor
  · intro hstays
    obtain ⟨dollar, hword⟩ := scan_of_staysInWord hstays begun.toList
    rw [Lexes, hchars, scan_append, hbefore]
    simp only
    rw [scan_append, scan_between_plain hbegun]
    simp only [List.nil_append]
    rw [scan_append, hword]
    simp only [hafter, List.nil_append, String.toList_append]
  · intro hleaves more hprefixed
    rw [hchars, List.append_assoc, scan_append, hbefore] at hprefixed
    simp only [List.prefix_append_right_inj] at hprefixed
    rw [List.append_assoc, scan_append, scan_between_plain hbegun] at hprefixed
    obtain ⟨tail, htail⟩ := hprefixed
    rw [List.append_assoc, hstop, List.cons_append] at htail
    simp only [List.nil_append, List.cons_append, String.toList_append] at htail
    exact head_ne_of_leaves (by simpa using hleaves) begun.toList htail.symm

end LexesIff

theorem lex_iff_of_lexesIff {lines : List String} {tokens : List Token} {condition : Prop}
    (hlexes : LexesIff lines tokens condition) :
    lex (joined (lines ++ [""])) = some tokens ↔ condition := by
  constructor
  · intro hlex
    by_contra hnot
    apply hlexes.differs hnot []
    rw [List.append_nil]
    rw [lex, toList_joined_append_nil] at hlex
    split at hlex
    next => exact Option.some.inj hlex ▸ List.prefix_rfl
    next => cases hlex
  · exact fun hcondition => lex_of_lexes (hlexes.lexes hcondition)

end Nginx

/-! ## Reading tokens as directives

The directives of a file are found from its tokens with the blocks that are open at
each point. What a list of directives spells is read back as that list, so no two
lists spell the same tokens.
-/

namespace Nginx

/-- A file that is read up to some token: the words of the directive that is begun, the
directives of its block before it, and the same for each block around it. -/
structure Reader where
  words : List String := []
  before : List Directive := []
  around : List (List String × List Directive) := []

namespace Reader

def read (reader : Reader) : Token → Option Reader
  | .word text => some { reader with words := reader.words ++ [String.ofList text] }
  | .semicolon =>
    some { reader with words := [], before := reader.before ++ [.simple reader.words] }
  | .openBrace => some ⟨[], [], (reader.words, reader.before) :: reader.around⟩
  | .closeBrace =>
    match reader.words, reader.around with
    | [], (words, before) :: around => some ⟨[], before ++ [.block words reader.before], around⟩
    | _, _ => none
  | .unexpected _ => none

def readAll (reader : Reader) : List Token → Option Reader
  | [] => some reader
  | token :: rest => (reader.read token).bind fun next => next.readAll rest

theorem readAll_append (reader : Reader) (first second : List Token) :
    reader.readAll (first ++ second) =
      (reader.readAll first).bind fun next => next.readAll second := by
  induction first generalizing reader with
  | nil => rfl
  | cons token rest ih =>
    rw [List.cons_append, readAll, readAll]
    cases reader.read token with
    | none => rfl
    | some next => exact ih next

theorem readAll_words (reader : Reader) (words : List String) :
    reader.readAll (wordTokens words) = some { reader with words := reader.words ++ words } := by
  induction words generalizing reader with
  | nil => simp [wordTokens, readAll]
  | cons word rest ih =>
    have hrest := ih { reader with words := reader.words ++ [word] }
    simp only [wordTokens, List.map_cons, readAll, read, Option.bind_some,
      String.ofList_toList] at hrest ⊢
    rw [hrest]
    simp

mutual

theorem readAll_tokens (before : List Directive) (around : List (List String × List Directive)) :
    (directive : Directive) →
      readAll ⟨[], before, around⟩ directive.tokens = some ⟨[], before ++ [directive], around⟩
  | .simple words => by
    rw [Directive.tokens, readAll_append, readAll_words]
    simp [readAll, read]
  | .block words body => by
    rw [Directive.tokens, readAll_append, readAll_words]
    simp only [Option.bind_some, readAll, read, List.nil_append]
    rw [readAll_append, readAll_allTokens]
    simp [readAll, read]

theorem readAll_allTokens (before : List Directive)
    (around : List (List String × List Directive)) : (directives : List Directive) →
      readAll ⟨[], before, around⟩ (allTokens directives) =
        some ⟨[], before ++ directives, around⟩
  | [] => by simp [readAll]
  | directive :: rest => by
    rw [allTokens_cons, readAll_append, readAll_tokens before around directive,
      Option.bind_some, readAll_allTokens (before ++ [directive]) around rest]
    simp

end

end Reader

/-- The directives of a file; `none` when its braces do not match or it ends inside a
directive. -/
def parse (text : String) : Option (List Directive) :=
  match (lex text).bind fun tokens => Reader.readAll {} tokens with
  | some ⟨[], directives, []⟩ => some directives
  | _ => none

theorem parse_of_lex {text : String} {directives : List Directive}
    (hlex : lex text = some (allTokens directives)) : parse text = some directives := by
  rw [parse, hlex, Option.bind_some, Reader.readAll_allTokens]
  rfl

theorem allTokens_inj {first second : List Directive} :
    allTokens first = allTokens second ↔ first = second := by
  constructor
  · intro heq
    have hfirst := Reader.readAll_allTokens [] [] first
    rw [heq, Reader.readAll_allTokens] at hfirst
    exact (Reader.mk.inj (Option.some.inj hfirst)).2.1.symm
  · exact congrArg allTokens

end Nginx

end DjangoMojo.Foundation
