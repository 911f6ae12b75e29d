import Mathlib.Data.List.Infix
import Mathlib.Data.List.TakeWhile
import Mathlib.Data.Option.Basic

/-! # Searches of a list

A search is read by one pattern, `"([^"]+)"|(-?)(\w+):(\S+)|(-?)(\S+)`, from left to
right. The terms are the quoted phrases and the words between spaces; a word may start
with a dash, and it may name a field. The terms become one query, which leaves out those
that ask for a value in a field that is not searched.
-/

namespace DjangoMojo.Rest.Search

/-- The characters of `\s`, which `strip` removes, and of `\w`. -/
structure CharClasses where
  isSpace : Char → Bool
  isWord : Char → Bool
  word_visible : ∀ char, isWord char = true → isSpace char = false
  quote_visible : isSpace '"' = false
  colon_plain : isWord ':' = false
  dash_plain : isWord '-' = false
  dash_visible : isSpace '-' = false
  colon_visible : isSpace ':' = false

variable (classes : CharClasses)

namespace CharClasses

/-- `\S`. -/
def isVisible (char : Char) : Bool := !classes.isSpace char

def strip (text : List Char) : List Char :=
  ((text.dropWhile classes.isSpace).reverse.dropWhile classes.isSpace).reverse

def ascii : CharClasses where
  isSpace char := char ∈ [' ', '\t', '\n', '\x0b', '\x0c', '\r']
  isWord char := char.isAlphanum || char = '_'
  word_visible char hword := by
    have hplain : [' ', '\t', '\n', '\x0b', '\x0c', '\r'].all
        (fun space => !(space.isAlphanum || space = '_')) = true := by decide
    refine decide_eq_false fun hspace => ?_
    have hnot := List.all_eq_true.mp hplain char hspace
    rw [hword] at hnot
    cases hnot
  quote_visible := by decide
  colon_plain := by decide
  dash_plain := by decide
  dash_visible := by decide
  colon_visible := by decide

end CharClasses

/-! ### Matches of the pattern -/

/-- The groups of a match, which are empty where they take no part in it. -/
structure Groups where
  quoted : List Char := []
  fieldSign : List Char := []
  fieldName : List Char := []
  fieldValue : List Char := []
  sign : List Char := []
  term : List Char := []

/-- `(-?)`, as long as it is not given back. -/
def dashAt : List Char → List Char × List Char
  | '-' :: rest => (['-'], rest)
  | text => ([], text)

/-- `"([^"]+)"`. -/
def quotedAt : List Char → Option (Groups × List Char)
  | '"' :: text =>
    match text.dropWhile (· ≠ '"') with
    | [] => none
    | _ :: after =>
      if text.takeWhile (· ≠ '"') = [] then none
      else some ({ quoted := text.takeWhile (· ≠ '"') }, after)
  | _ => none

/-- `(\w+):(\S+)`: a colon is no part of a name, so nothing is given back. -/
def fieldBody (sign body : List Char) : Option (Groups × List Char) :=
  match body.dropWhile classes.isWord with
  | ':' :: tail =>
    if body.takeWhile classes.isWord = [] ∨ tail.takeWhile classes.isVisible = [] then none
    else some ({ fieldSign := sign, fieldName := body.takeWhile classes.isWord
                 fieldValue := tail.takeWhile classes.isVisible },
      tail.dropWhile classes.isVisible)
  | _ => none

/-- `(-?)(\w+):(\S+)`: a dash is no part of a name, so it is not given back. -/
def fieldAt (text : List Char) : Option (Groups × List Char) :=
  fieldBody classes (dashAt text).1 (dashAt text).2

/-- `(-?)(\S+)`: a dash that nothing follows is given back. -/
def wordAt (text : List Char) : Option (Groups × List Char) :=
  let body := (dashAt text).2
  if body.takeWhile classes.isVisible ≠ [] then
    some ({ sign := (dashAt text).1, term := body.takeWhile classes.isVisible },
      body.dropWhile classes.isVisible)
  else if text.takeWhile classes.isVisible ≠ [] then
    some ({ term := text.takeWhile classes.isVisible }, text.dropWhile classes.isVisible)
  else none

def matchAt (text : List Char) : Option (Groups × List Char) :=
  quotedAt text <|> (fieldAt classes text <|> wordAt classes text)

variable {classes}

theorem dropWhile_head {accepts : Char → Bool} {text : List Char} {char : Char} {rest : List Char}
    (hdrop : text.dropWhile accepts = char :: rest) : accepts char = false := by
  have hhead := List.head?_dropWhile_not accepts text
  rw [hdrop] at hhead
  exact hhead

theorem quotedAt_some {text after : List Char} {groups : Groups}
    (hmatch : quotedAt text = some (groups, after)) : ∃ phrase, phrase ≠ [] ∧
      groups = { quoted := phrase } ∧ text = '"' :: (phrase ++ '"' :: after) := by
  unfold quotedAt at hmatch
  split at hmatch
  next rest =>
    split at hmatch
    next => cases hmatch
    next char other hdrop =>
      obtain ⟨hphrase, hsame⟩ := Option.ite_none_left_eq_some.mp hmatch
      cases hsame
      refine ⟨_, hphrase, rfl, congrArg _ ?_⟩
      obtain rfl : char = '"' := by simpa using dropWhile_head hdrop
      rw [← hdrop, List.takeWhile_append_dropWhile]
  next => cases hmatch

/-! ### Words -/

inductive Term where
  | phrase (text : List Char)
  | within (negated : Bool) (name value : List Char)
  | bare (negated : Bool) (text : List Char)

def dash (negated : Bool) : List Char := if negated then ['-'] else []

def Term.groups : Term → Groups
  | phrase text => { quoted := text }
  | within negated name value =>
    { fieldSign := dash negated, fieldName := name, fieldValue := value }
  | bare negated text => { sign := dash negated, term := text }

variable (classes)

/-- The field that a word names, and the value after the colon. -/
def splitField (word : List Char) : Option (List Char × List Char) :=
  match word.dropWhile classes.isWord with
  | ':' :: value =>
    if word.takeWhile classes.isWord = [] ∨ value = [] then none
    else some (word.takeWhile classes.isWord, value)
  | _ => none

def signedTerm (negated : Bool) (word : List Char) : Term :=
  match splitField classes word with
  | some (name, value) => .within negated name value
  | none => .bare negated word

/-- The term of a word; a single dash is a word of its own. -/
def termOf : List Char → Term
  | '-' :: char :: rest => signedTerm classes true (char :: rest)
  | word => signedTerm classes false word

structure WordSplit (text word after : List Char) : Prop where
  splits : text = word ++ after
  visible : ∀ char ∈ word, classes.isVisible char = true
  stops : ∀ char ∈ after.head?, classes.isSpace char = true

theorem wordSplit_self (text : List Char) : WordSplit classes text
    (text.takeWhile classes.isVisible) (text.dropWhile classes.isVisible) where
  splits := List.takeWhile_append_dropWhile.symm
  visible _ hmem := List.mem_takeWhile_imp hmem
  stops other hmem := by
    cases hdrop : text.dropWhile classes.isVisible with
    | nil =>
      rw [hdrop] at hmem
      cases hmem
    | cons char rest =>
      rw [hdrop] at hmem
      cases hmem
      simpa [CharClasses.isVisible] using dropWhile_head hdrop

variable {classes}

namespace WordSplit

variable {text word after : List Char} (split : WordSplit classes text word after)
include split

theorem takeWhile_visible : text.takeWhile classes.isVisible = word ∧
    text.dropWhile classes.isVisible = after := by
  have hafter : after.takeWhile classes.isVisible = [] ∧
      after.dropWhile classes.isVisible = after := by
    cases hcase : after with
    | nil => exact ⟨rfl, rfl⟩
    | cons char rest =>
      have hspace := split.stops char (by rw [hcase]; rfl)
      simp [CharClasses.isVisible, hspace]
  rw [split.splits, List.takeWhile_append_of_pos split.visible,
    List.dropWhile_append_of_pos split.visible, hafter.1, hafter.2, List.append_nil]
  exact ⟨rfl, rfl⟩

theorem takeWhile_isWord : text.takeWhile classes.isWord = word.takeWhile classes.isWord ∧
    text.dropWhile classes.isWord = word.dropWhile classes.isWord ++ after := by
  have hafter : after.takeWhile classes.isWord = [] ∧ after.dropWhile classes.isWord = after := by
    cases hcase : after with
    | nil => exact ⟨rfl, rfl⟩
    | cons char rest =>
      have hspace := split.stops char (by rw [hcase]; rfl)
      have hplain : classes.isWord char = false := by
        by_contra hword
        rw [classes.word_visible char (by simpa using hword)] at hspace
        cases hspace
      simp [hplain]
  rw [split.splits, List.takeWhile_append, List.dropWhile_append, hafter.1, hafter.2]
  constructor
  · split
    next hlength =>
      rw [List.append_nil]
      exact ((List.takeWhile_sublist _).eq_of_length hlength).symm
    next => rfl
  · split
    next hempty =>
      rw [List.isEmpty_iff.mp hempty]
      rfl
    next => rfl

end WordSplit

theorem WordSplit.tail {char : Char} {text word after : List Char}
    (split : WordSplit classes (char :: text) (char :: word) after) :
    WordSplit classes text word after where
  splits := List.cons.inj split.splits |>.2
  visible other hmem := split.visible other (List.mem_cons_of_mem _ hmem)
  stops := split.stops

theorem fieldBody_eq {text word after sign : List Char}
    (split : WordSplit classes text word after) :
    fieldBody classes sign text =
      (splitField classes word).map fun field =>
        (({ fieldSign := sign, fieldName := field.1, fieldValue := field.2 } : Groups), after) := by
  obtain ⟨hname, hrest⟩ := split.takeWhile_isWord
  unfold fieldBody splitField
  rw [hname, hrest]
  cases hcase : word.dropWhile classes.isWord with
  | nil =>
    cases hafter : after with
    | nil => rfl
    | cons char rest =>
      have hspace := split.stops char (by rw [hafter]; rfl)
      have hcolon : char ≠ ':' := by
        rintro rfl
        rw [classes.colon_visible] at hspace
        cases hspace
      rw [List.nil_append]
      split
      next heq => exact absurd (List.cons.inj heq).1 hcolon
      next => rfl
  | cons char value =>
    by_cases hcolon : char = ':'
    · subst hcolon
      have hvalue : WordSplit classes (value ++ after) value after := by
        refine ⟨rfl, fun other hmem => split.visible other ?_, split.stops⟩
        apply (List.dropWhile_suffix classes.isWord).subset
        rw [hcase]
        exact List.mem_cons_of_mem _ hmem
      obtain ⟨htake, hdrop⟩ := hvalue.takeWhile_visible
      simp only [List.cons_append, htake, hdrop]
      split
      next => rfl
      next => rfl
    · rw [List.cons_append]
      split
      next heq => exact absurd (List.cons.inj heq).1 hcolon
      next =>
        split
        next heq => exact absurd (List.cons.inj heq).1 hcolon
        next => rfl

theorem signedWord_eq {text word after : List Char} (split : WordSplit classes text word after)
    (hne : word ≠ []) (negated : Bool) {other : Option (Groups × List Char)} :
    (fieldBody classes (dash negated) text <|>
        if text.takeWhile classes.isVisible ≠ [] then
          some ({ sign := dash negated, term := text.takeWhile classes.isVisible },
            text.dropWhile classes.isVisible)
        else other) = some ((signedTerm classes negated word).groups, after) := by
  obtain ⟨htake, hdrop⟩ := split.takeWhile_visible
  rw [fieldBody_eq split, htake, hdrop, if_pos hne, signedTerm]
  cases splitField classes word with
  | none => rfl
  | some field => rfl

theorem splitField_dash : splitField classes ['-'] = none := by
  have hdrop : ['-'].dropWhile classes.isWord = ['-'] := by
    rw [List.dropWhile_cons, classes.dash_plain]
    rfl
  unfold splitField
  rw [hdrop]
  rfl

theorem wordMatch_eq {text word after : List Char} (split : WordSplit classes text word after)
    (hne : word ≠ []) : (fieldAt classes text <|> wordAt classes text) =
      some ((termOf classes word).groups, after) := by
  cases hword : word with
  | nil => exact absurd hword hne
  | cons first rest =>
    rw [hword] at split
    have htext := split.splits
    by_cases hdash : first = '-'
    · subst hdash
      have hsign : dashAt text = (dash true, rest ++ after) := by
        rw [htext]
        rfl
      have htail : WordSplit classes (rest ++ after) rest after := (htext ▸ split).tail
      cases hrest : rest with
      | nil =>
        -- A dash alone is given back, and is then a word without a sign.
        rw [hrest] at split hsign htail
        obtain ⟨htake, hdrop⟩ := htail.takeWhile_visible
        obtain ⟨htakeText, hdropText⟩ := split.takeWhile_visible
        have hnone : splitField classes [] = none := rfl
        rw [fieldAt, wordAt, hsign, fieldBody_eq htail, htake, htakeText, hdropText, hnone]
        rw [termOf, signedTerm, splitField_dash]
        · rfl
        · nofun
      | cons second others =>
        rw [hrest] at hsign htail
        rw [fieldAt, wordAt, hsign]
        exact signedWord_eq htail (List.cons_ne_nil _ _) true
    · have hsign : dashAt text = (dash false, text) := by
        rw [htext, List.cons_append, dashAt]
        · rfl
        · exact fun _ heq => hdash (List.cons.inj heq).1
      have hterm : termOf classes (first :: rest) =
          signedTerm classes false (first :: rest) := by
        rw [termOf]
        exact fun _ _ heq => hdash (List.cons.inj heq).1
      rw [fieldAt, wordAt, hsign, hterm]
      exact signedWord_eq split (List.cons_ne_nil _ _) false

/-! ### Reading a search -/

theorem matchAt_of_space {char : Char} (rest : List Char) (hspace : classes.isSpace char = true) :
    matchAt classes (char :: rest) = none := by
  have hquote : char ≠ '"' := by
    rintro rfl
    exact Bool.false_ne_true (classes.quote_visible.symm.trans hspace)
  have hdash : char ≠ '-' := by
    rintro rfl
    exact Bool.false_ne_true (classes.dash_visible.symm.trans hspace)
  have hquoted : quotedAt (char :: rest) = none := by
    rw [quotedAt]
    exact fun _ heq => hquote (List.cons.inj heq).1
  have hsign : dashAt (char :: rest) = ([], char :: rest) := by
    rw [dashAt]
    exact fun _ heq => hdash (List.cons.inj heq).1
  have hsplit : WordSplit classes (char :: rest) [] (char :: rest) := by
    refine ⟨rfl, nofun, fun other hother => ?_⟩
    cases hother
    exact hspace
  have hnone : splitField classes [] = none := rfl
  have htake := hsplit.takeWhile_visible.1
  rw [matchAt, hquoted, fieldAt, wordAt, hsign, fieldBody_eq hsplit, hnone, htake]
  rfl

theorem takeWhile_ne_nil {char : Char} (rest : List Char)
    (hvisible : ¬classes.isSpace char = true) :
    (char :: rest).takeWhile classes.isVisible ≠ [] := by
  rw [List.takeWhile_cons_of_pos (by simpa [CharClasses.isVisible] using hvisible)]
  exact List.cons_ne_nil _ _

theorem matchAt_of_visible {char : Char} (rest : List Char)
    (hvisible : ¬classes.isSpace char = true) :
    matchAt classes (char :: rest) = (quotedAt (char :: rest) <|>
      some ((termOf classes ((char :: rest).takeWhile classes.isVisible)).groups,
        (char :: rest).dropWhile classes.isVisible)) := by
  rw [matchAt, wordMatch_eq (wordSplit_self _ _) (takeWhile_ne_nil rest hvisible)]

theorem quotedAt_length {text after : List Char} {groups : Groups}
    (hmatch : quotedAt text = some (groups, after)) : after.length < text.length := by
  obtain ⟨phrase, _, _, htext⟩ := quotedAt_some hmatch
  rw [htext]
  simp only [List.length_cons, List.length_append]
  omega

theorem dropWhile_length {char : Char} {rest : List Char}
    (hvisible : ¬classes.isSpace char = true) :
    ((char :: rest).dropWhile classes.isVisible).length < (char :: rest).length := by
  have hsplit := congrArg List.length (wordSplit_self classes (char :: rest)).splits
  have hpos := List.length_pos_iff.mpr (takeWhile_ne_nil rest hvisible)
  rw [List.length_append] at hsplit
  omega

theorem matchAt_length {char : Char} {rest after : List Char} {groups : Groups}
    (hmatch : matchAt classes (char :: rest) = some (groups, after)) :
    after.length < (char :: rest).length := by
  by_cases hspace : classes.isSpace char = true
  · rw [matchAt_of_space rest hspace] at hmatch
    cases hmatch
  · rw [matchAt_of_visible rest hspace] at hmatch
    rcases (Option.orElse_eq_some _ _ _).mp hmatch with hquoted | ⟨_, hword⟩
    · exact quotedAt_length hquoted
    · cases hword
      exact dropWhile_length hspace

variable (classes)

/-- `re.findall(pattern, text)`. -/
def findAll : List Char → List Groups
  | [] => []
  | char :: rest =>
    match _hmatch : matchAt classes (char :: rest) with
    | some (groups, after) => groups :: findAll after
    | none => findAll rest
termination_by text => text.length
decreasing_by
  · exact matchAt_length _hmatch
  · exact Nat.lt_succ_self _

/-- The terms of a search: phrases in quotes where they are closed, and else words. -/
def termsOf : List Char → List Term
  | [] => []
  | char :: rest =>
    if _hspace : classes.isSpace char then termsOf rest
    else
      match _hquoted : quotedAt (char :: rest) with
      | some (groups, after) => .phrase groups.quoted :: termsOf after
      | none =>
        termOf classes ((char :: rest).takeWhile classes.isVisible) ::
          termsOf ((char :: rest).dropWhile classes.isVisible)
termination_by text => text.length
decreasing_by
  · exact Nat.lt_succ_self _
  · exact quotedAt_length _hquoted
  · exact dropWhile_length _hspace

theorem findAll_eq (text : List Char) :
    findAll classes text = (termsOf classes text).map Term.groups := by
  induction text using termsOf.induct classes with
  | case1 => rw [findAll, termsOf, List.map_nil]
  | case2 char rest hspace ih =>
    have hnone := matchAt_of_space rest hspace
    rw [findAll, termsOf, dif_pos hspace]
    split
    next heq => cases hnone.symm.trans heq
    next => exact ih
  | case3 char rest hspace groups after hquoted ih =>
    have hsome : matchAt classes (char :: rest) = some (groups, after) := by
      rw [matchAt, hquoted]
      rfl
    rw [findAll, termsOf, dif_neg hspace]
    split
    next heq =>
      cases hsome.symm.trans heq
      split
      next hother =>
        cases hquoted.symm.trans hother
        obtain ⟨phrase, _, rfl, _⟩ := quotedAt_some hquoted
        rw [ih]
        rfl
      next hother => cases hquoted.symm.trans hother
    next heq => cases hsome.symm.trans heq
  | case4 char rest hspace hquoted ih =>
    have hsome := matchAt_of_visible rest hspace
    rw [hquoted] at hsome
    change _ = some _ at hsome
    rw [findAll, termsOf, dif_neg hspace]
    split
    next heq =>
      cases hsome.symm.trans heq
      split
      next hother => cases hquoted.symm.trans hother
      next =>
        rw [ih]
        rfl
    next heq => cases hsome.symm.trans heq

/-- The parts of a term are not empty, and a word has no spaces. -/
def Term.Proper : Term → Prop
  | phrase text => text ≠ []
  | within _ name value => name ≠ [] ∧ value ≠ []
  | bare _ text => text ≠ [] ∧ ∀ char ∈ text, classes.isSpace char = false

variable {classes}

theorem signedTerm_proper {word : List Char} (negated : Bool) (hne : word ≠ [])
    (hvisible : ∀ char ∈ word, classes.isSpace char = false) :
    (signedTerm classes negated word).Proper classes := by
  unfold signedTerm
  split
  next name value hsplit =>
    unfold splitField at hsplit
    split at hsplit
    next =>
      obtain ⟨hparts, hsame⟩ := Option.ite_none_left_eq_some.mp hsplit
      cases hsame
      exact not_or.mp hparts
    next => cases hsplit
  next => exact ⟨hne, hvisible⟩

theorem termOf_proper {word : List Char} (hne : word ≠ [])
    (hvisible : ∀ char ∈ word, classes.isSpace char = false) :
    (termOf classes word).Proper classes := by
  unfold termOf
  split
  next => exact signedTerm_proper true (List.cons_ne_nil _ _) fun char hmem =>
    hvisible char (List.mem_cons_of_mem _ hmem)
  next => exact signedTerm_proper false hne hvisible

theorem termsOf_proper {text : List Char} :
    ∀ term ∈ termsOf classes text, term.Proper classes := by
  induction text using termsOf.induct classes with
  | case1 =>
    rw [termsOf]
    nofun
  | case2 char rest hspace ih =>
    rw [termsOf, dif_pos hspace]
    exact ih
  | case3 char rest hspace groups after hquoted ih =>
    rw [termsOf, dif_neg hspace]
    split
    next heq =>
      cases hquoted.symm.trans heq
      obtain ⟨phrase, hphrase, rfl, _⟩ := quotedAt_some hquoted
      exact List.forall_mem_cons.mpr ⟨hphrase, ih⟩
    next heq => cases hquoted.symm.trans heq
  | case4 char rest hspace hquoted ih =>
    rw [termsOf, dif_neg hspace]
    split
    next heq => cases hquoted.symm.trans heq
    next =>
      refine List.forall_mem_cons.mpr ⟨termOf_proper (takeWhile_ne_nil rest hspace) ?_, ih⟩
      intro other hmem
      have hvisible := (wordSplit_self classes (char :: rest)).visible other hmem
      simpa [CharClasses.isVisible] using hvisible

/-! ### Queries -/

/-- What a list is searched by: the texts of the fields of its rows, which may be null,
and how the database folds the case of a text. -/
structure Rows (Row : Type) where
  field : Row → String → Option String
  upper : String → String

/-- `Q` objects, where `all` is the empty one. -/
inductive Q where
  | all
  | icontains (field term : String)
  | both (first second : Q)
  | either (first second : Q)
  | without (query : Q)

namespace Q

/-- `first & second`: an empty one leaves the other as it is. -/
def and : Q → Q → Q
  | all, second => second
  | first, all => first
  | first, second => both first second

/-- `first | second`. -/
def or : Q → Q → Q
  | all, second => second
  | first, all => first
  | first, second => either first second

end Q

namespace Rows

variable {Row : Type} (table : Rows Row)

def Has (row : Row) (name term : String) : Prop :=
  ∃ text, table.field row name = some text ∧
    (table.upper term).toList <:+: (table.upper text).toList

instance (row : Row) (name term : String) : Decidable (table.Has row name term) :=
  match hfield : table.field row name with
  | none => .isFalse (by rintro ⟨_, hsome, _⟩; cases hfield.symm.trans hsome)
  | some text =>
    decidable_of_iff ((table.upper term).toList <:+: (table.upper text).toList)
      ⟨fun hhas => ⟨text, hfield, hhas⟩, fun ⟨_, hsome, hhas⟩ => by
        cases hfield.symm.trans hsome
        exact hhas⟩

/-- The row is selected by `filter(query)`; a null field contains nothing. -/
def holds (row : Row) : Q → Bool
  | .all => true
  | .icontains name term => table.Has row name term
  | .both first second => holds row first && holds row second
  | .either first second => holds row first || holds row second
  | .without query => !holds row query

end Rows

/-! ### The search of a list -/

structure Collected where
  searchTerms : List String := []
  excludedTerms : List String := []
  fieldSearches : List (String × String × Bool) := []

section

variable (classes)

def Collected.add (fields : List String) (collected : Collected) (groups : Groups) :
    Collected :=
  if groups.quoted ≠ [] then
    { collected with searchTerms := collected.searchTerms ++ [String.ofList groups.quoted] }
  else if groups.fieldName ≠ [] ∧ groups.fieldValue ≠ [] then
    if String.ofList groups.fieldName ∈ fields then
      { collected with fieldSearches := collected.fieldSearches ++
          [(String.ofList groups.fieldName, String.ofList groups.fieldValue,
            decide (groups.fieldSign = ['-']))] }
    else collected
  else if groups.term ≠ [] then
    let term := classes.strip groups.term
    if term.length < 1 then collected
    else if groups.sign = ['-'] then
      { collected with excludedTerms := collected.excludedTerms ++ [String.ofList term] }
    else { collected with searchTerms := collected.searchTerms ++ [String.ofList term] }
  else collected

def anyField (fields : List String) (term : String) : Q :=
  fields.foldl (fun found name => found.or (.icontains name term)) .all

def fieldQuery (search : String × String × Bool) : Q :=
  if search.2.2 then .without (.icontains search.1 search.2.1)
  else .icontains search.1 search.2.1

def finalQuery (fields : List String) (collected : Collected) : Q :=
  let required := collected.searchTerms.foldl
    (fun found term => found.and (anyField fields term)) .all
  let narrowed := collected.fieldSearches.foldl
    (fun found search => found.and (fieldQuery search)) required
  collected.excludedTerms.foldl
    (fun found term => found.and (.without (anyField fields term))) narrowed

/-- `on_rest_list_search`, for the fields that are searched. -/
def onRestListSearch {Row : Type} (table : Rows Row) (fields : List String) (search : String)
    (queryset : List Row) : List Row :=
  let query := classes.strip search.toList
  if query = [] then queryset
  else if fields = [] then []
  else
    let collected := (findAll classes query).foldl (Collected.add classes fields) {}
    if collected.searchTerms ≠ [] ∨ collected.excludedTerms ≠ [] ∨
        collected.fieldSearches ≠ [] then
      queryset.filter fun row => table.holds row (finalQuery fields collected)
    else queryset

end

/-! ### What a search selects -/

namespace Term

variable {Row : Type} (table : Rows Row) (fields : List String) (row : Row)

def negated : Term → Bool
  | phrase _ => false
  | within negated _ _ => negated
  | bare negated _ => negated

/-- A phrase or a word is in one of the fields, a value in the field it is asked of, which
has to be one of them; with a dash, it is not. -/
def satisfied : Term → Bool
  | phrase text => fields.any fun name => table.Has row name (String.ofList text)
  | within negated name value =>
    (String.ofList name ∈ fields && table.Has row (String.ofList name) (String.ofList value)) !=
      negated
  | bare negated text => (fields.any fun name => table.Has row name (String.ofList text)) != negated

/-- The term asks for nothing in a field that is not searched. -/
def Searchable : Term → Prop
  | within false name _ => String.ofList name ∈ fields
  | _ => True

end Term

section

variable {Row : Type} {table : Rows Row} {fields : List String} {row : Row}

theorem holds_and (first second : Q) :
    table.holds row (first.and second) = (table.holds row first && table.holds row second) := by
  unfold Q.and
  split
  next => rfl
  next => exact (Bool.and_true _).symm
  next => rfl

theorem holds_foldl_and {Item : Type} (query : Item → Q) (items : List Item) (found : Q) :
    table.holds row (items.foldl (fun found item => found.and (query item)) found) =
      (table.holds row found && items.all fun item => table.holds row (query item)) := by
  induction items generalizing found with
  | nil => exact (Bool.and_true _).symm
  | cons item rest ih => rw [List.foldl_cons, ih, holds_and, List.all_cons, Bool.and_assoc]

theorem holds_anyField (hfields : fields ≠ []) (term : String) :
    table.holds row (anyField fields term) = fields.any fun name => table.Has row name term := by
  have hrun (rest : List String) (found : Q) (hfound : found ≠ .all) :
      table.holds row (rest.foldl (fun found name => found.or (.icontains name term)) found) =
        (table.holds row found || rest.any fun name => table.Has row name term) := by
    induction rest generalizing found with
    | nil => exact (Bool.or_false _).symm
    | cons name rest ih =>
      have hor : found.or (.icontains name term) = .either found (.icontains name term) := by
        cases found with
        | all => exact absurd rfl hfound
        | _ => rfl
      rw [List.foldl_cons, ih _ (by rw [hor]; nofun), hor, Rows.holds, Rows.holds,
        List.any_cons, Bool.or_assoc]
  cases fields with
  | nil => exact absurd rfl hfields
  | cons name rest =>
    rw [anyField, List.foldl_cons, List.any_cons]
    exact hrun rest (.icontains name term) nofun

def Collected.keeps (table : Rows Row) (fields : List String) (row : Row)
    (collected : Collected) : Bool :=
  (collected.searchTerms.all fun term => fields.any fun name => table.Has row name term) &&
    (collected.fieldSearches.all fun search =>
      decide (table.Has row search.1 search.2.1) != search.2.2) &&
    collected.excludedTerms.all fun term => !fields.any fun name => table.Has row name term

theorem holds_finalQuery (hfields : fields ≠ []) (collected : Collected) :
    table.holds row (finalQuery fields collected) = collected.keeps table fields row := by
  have hfield (search : String × String × Bool) : table.holds row (fieldQuery search) =
      (decide (table.Has row search.1 search.2.1) != search.2.2) := by
    unfold fieldQuery
    cases search.2.2 with
    | true => exact (Bool.bne_true _).symm
    | false => exact (Bool.bne_false _).symm
  simp only [finalQuery, holds_foldl_and, hfield, Rows.holds, holds_anyField hfields,
    Bool.true_and, Collected.keeps]

theorem strip_visible {text : List Char} (hvisible : ∀ char ∈ text, classes.isSpace char = false) :
    classes.strip text = text := by
  have hkeep {other : List Char} (hother : ∀ char ∈ other, classes.isSpace char = false) :
      other.dropWhile classes.isSpace = other := by
    cases other with
    | nil => rfl
    | cons char rest =>
      exact List.dropWhile_cons_of_neg (by simp [hother char List.mem_cons_self])
  rw [CharClasses.strip, hkeep hvisible, hkeep fun char hmem =>
    hvisible char (List.mem_reverse.mp hmem), List.reverse_reverse]

theorem keeps_add {collected : Collected} {term : Term} (hproper : term.Proper classes) :
    (collected.add classes fields term.groups).keeps table fields row = true ↔
      collected.keeps table fields row = true ∧
        (term.Searchable fields → term.satisfied table fields row = true) := by
  have hdash (negated : Bool) : dash negated = ['-'] ↔ negated = true := by
    cases negated <;> decide
  cases term with
  | phrase text =>
    rw [Collected.add, if_pos (show (Term.phrase text).groups.quoted ≠ [] from hproper)]
    simp only [Collected.keeps, List.all_append, List.all_cons, List.all_nil, Bool.and_true,
      Bool.and_eq_true, Term.Searchable, forall_const, Term.satisfied, Term.groups]
    tauto
  | within negated name value =>
    have hquoted : (Term.within negated name value).groups.quoted = [] := rfl
    rw [Collected.add, if_neg (not_not_intro hquoted),
      if_pos (show (Term.within negated name value).groups.fieldName ≠ [] ∧
        (Term.within negated name value).groups.fieldValue ≠ [] from hproper)]
    split
    next hmem =>
      have hname : decide (String.ofList name ∈ fields) = true := decide_eq_true hmem
      have hsearchable : (Term.within negated name value).Searchable fields := by
        cases negated with
        | true => trivial
        | false => exact hmem
      simp only [hsearchable, forall_const, Collected.keeps, List.all_append, List.all_cons,
        List.all_nil, Bool.and_true, Bool.and_eq_true, Term.satisfied, Term.groups, hdash, hname,
        Bool.decide_eq_true, Bool.true_and]
      tauto
    next hmem =>
      have hname : decide (String.ofList name ∈ fields) = false := decide_eq_false hmem
      refine (and_iff_left fun hsearchable => ?_).symm
      cases negated with
      | true => simp [Term.satisfied, hname]
      | false => exact absurd hsearchable hmem
  | bare negated text =>
    have hquoted : (Term.bare negated text).groups.quoted = [] := rfl
    have hfield : (Term.bare negated text).groups.fieldName = [] := rfl
    have hstrip := strip_visible hproper.2
    have hlength : ¬text.length < 1 := by
      have := List.length_pos_iff.mpr hproper.1
      omega
    rw [Collected.add, if_neg (not_not_intro hquoted), if_neg fun hboth => hboth.1 hfield,
      if_pos (show (Term.bare negated text).groups.term ≠ [] from hproper.1)]
    simp only [Term.groups, hstrip, if_neg hlength]
    cases negated with
    | true =>
      simp only [dash, if_true, Collected.keeps, List.all_append, List.all_cons,
        List.all_nil, Bool.and_true, Bool.and_eq_true, Term.Searchable, forall_const,
        Term.satisfied, Bool.bne_true]
      tauto
    | false =>
      simp only [dash, Bool.false_eq_true, if_false, List.nil_eq, reduceCtorEq,
        Collected.keeps, List.all_append, List.all_cons, List.all_nil, Bool.and_true,
        Bool.and_eq_true, Term.Searchable, forall_const, Term.satisfied, Bool.bne_false]
      tauto

theorem keeps_collected {terms : List Term} (hproper : ∀ term ∈ terms, term.Proper classes)
    (collected : Collected) :
    ((terms.map Term.groups).foldl (Collected.add classes fields) collected).keeps table fields
        row = true ↔
      collected.keeps table fields row = true ∧
        ∀ term ∈ terms, term.Searchable fields → term.satisfied table fields row = true := by
  induction terms generalizing collected with
  | nil => simp
  | cons term rest ih =>
    obtain ⟨hfirst, hrest⟩ := List.forall_mem_cons.mp hproper
    rw [List.map_cons, List.foldl_cons, ih hrest, keeps_add hfirst, and_assoc,
      List.forall_mem_cons]

/-- With fields to search, a search selects the rows that satisfy each term which asks for
nothing in another field. -/
theorem mem_onRestListSearch (hfields : fields ≠ []) {search : String}
    (hquery : classes.strip search.toList ≠ []) (queryset : List Row) :
    onRestListSearch classes table fields search queryset = queryset.filter fun row =>
      ((findAll classes (classes.strip search.toList)).foldl (Collected.add classes fields)
        {}).keeps table fields row := by
  unfold onRestListSearch
  simp only [if_neg hquery, if_neg hfields]
  split
  next => simp only [holds_finalQuery hfields]
  next hempty =>
    symm
    rw [List.filter_eq_self]
    intro row _
    simp only [not_or, not_not] at hempty
    rw [Collected.keeps, hempty.1, hempty.2.1, hempty.2.2]
    rfl

theorem searchable_of_satisfied {term : Term}
    (hsatisfied : term.satisfied table fields row = true) : term.Searchable fields := by
  cases term with
  | within negated name value =>
    cases negated with
    | true => trivial
    | false =>
      rw [Term.satisfied, Bool.bne_false, Bool.and_eq_true] at hsatisfied
      exact @of_decide_eq_true (String.ofList name ∈ fields) _ hsatisfied.1
  | phrase => trivial
  | bare => trivial

/-- A search is the conjunction of its terms if and only if, where there are fields to
search, no row satisfies all terms but for those that ask for a value in another field,
and where there are none, each row fails a term without a dash. -/
theorem search_conjunction_iff {search : String} (hquery : classes.strip search.toList ≠ [])
    (queryset : List Row) :
    onRestListSearch classes table fields search queryset = queryset.filter (fun row =>
        (termsOf classes (classes.strip search.toList)).all fun term =>
          term.satisfied table fields row) ↔
      if fields = [] then
        ∀ row ∈ queryset, ∃ term ∈ termsOf classes (classes.strip search.toList),
          term.negated = false
      else
        ∀ row ∈ queryset,
          (∀ term ∈ termsOf classes (classes.strip search.toList), term.Searchable fields →
            term.satisfied table fields row = true) →
          ∀ term ∈ termsOf classes (classes.strip search.toList), term.Searchable fields := by
  generalize hterms : termsOf classes (classes.strip search.toList) = terms
  split
  next hfields =>
    have hempty : onRestListSearch classes table fields search queryset = [] := by
      unfold onRestListSearch
      simp only [if_neg hquery, if_pos hfields]
    have hsatisfied (term : Term) (row : Row) :
        term.satisfied table fields row = term.negated := by
      rw [hfields]
      cases term <;> simp [Term.satisfied, Term.negated]
    rw [hempty, eq_comm, List.filter_eq_nil_iff]
    simp only [hsatisfied, List.all_eq_true, not_forall, Bool.not_eq_true, exists_prop]
  next hfields =>
    rw [mem_onRestListSearch hfields hquery, findAll_eq, hterms]
    have hkeeps (row : Row) := @keeps_collected classes _ table fields row terms
      (hterms ▸ termsOf_proper) {}
    have hstart (row : Row) : Collected.keeps table fields row {} = true := rfl
    simp only [hstart, true_and] at hkeeps
    constructor
    · intro hsame row hrow hall term hterm
      have hmem : row ∈ queryset.filter fun row => ((terms.map Term.groups).foldl
          (Collected.add classes fields) {}).keeps table fields row :=
        List.mem_filter.mpr ⟨hrow, (hkeeps row).mpr hall⟩
      rw [hsame] at hmem
      have hsatisfied := List.all_eq_true.mp (List.mem_filter.mp hmem).2 term hterm
      exact searchable_of_satisfied hsatisfied
    · intro hsearchable
      refine List.filter_congr fun row hrow => Bool.eq_iff_iff.mpr ?_
      rw [hkeeps, List.all_eq_true]
      constructor
      · intro hall term hterm
        exact hall term hterm (hsearchable row hrow hall term hterm)
      · intro hall term hterm _
        exact hall term hterm

end

/-! ### A value asked of a hidden field -/

def named : Rows String where
  field row name := if name = "name" then some row else none
  upper text := text

theorem termsOf_word {char : Char} {rest : List Char} (hquote : char ≠ '"')
    (hvisible : (char :: rest).all classes.isVisible = true) :
    termsOf classes (char :: rest) = [termOf classes (char :: rest)] := by
  have hword := List.all_eq_true.mp hvisible
  have hfirst : ¬classes.isSpace char = true := by
    simpa [CharClasses.isVisible] using hword char List.mem_cons_self
  have hquoted : quotedAt (char :: rest) = none := by
    rw [quotedAt]
    exact fun _ heq => hquote (List.cons.inj heq).1
  rw [termsOf, dif_neg hfirst]
  split
  next heq => cases hquoted.symm.trans heq
  next =>
    rw [List.takeWhile_eq_self_iff.mpr hword, List.dropWhile_eq_nil_iff.mpr hword, termsOf]

theorem termsOf_tokenSearch :
    termsOf .ascii (CharClasses.ascii.strip "token:abc".toList) =
      [.within false "token".toList "abc".toList] := by
  have hstrip : CharClasses.ascii.strip "token:abc".toList =
      't' :: ['o', 'k', 'e', 'n', ':', 'a', 'b', 'c'] := by decide
  rw [hstrip, termsOf_word (by decide) (by decide)]
  rfl

/-- A search for a value of another field lists all rows. -/
theorem tokenSearch_lists :
    ¬onRestListSearch .ascii named ["name"] "token:abc" ["ann"] =
      ["ann"].filter fun row =>
        (termsOf .ascii (CharClasses.ascii.strip "token:abc".toList)).all fun term =>
          term.satisfied named ["name"] row := by
  have hall : onRestListSearch .ascii named ["name"] "token:abc" ["ann"] = ["ann"] := by
    rw [mem_onRestListSearch (by decide) (by decide), findAll_eq, termsOf_tokenSearch]
    decide
  rw [hall, termsOf_tokenSearch]
  decide

/-- A search for a value of a field that is searched. -/
theorem nameSearch_conjunction :
    onRestListSearch .ascii named ["name"] "name:ann" ["ann", "bob"] =
      ["ann", "bob"].filter fun row =>
        (termsOf .ascii (CharClasses.ascii.strip "name:ann".toList)).all fun term =>
          term.satisfied named ["name"] row := by
  have hstrip : CharClasses.ascii.strip "name:ann".toList =
      'n' :: ['a', 'm', 'e', ':', 'a', 'n', 'n'] := by decide
  refine (search_conjunction_iff (by decide) _).mpr ?_
  rw [if_neg (by decide), hstrip, termsOf_word (by decide) (by decide)]
  intro row _ _ term hterm
  cases List.mem_singleton.mp hterm
  exact List.mem_singleton.mpr rfl

end DjangoMojo.Rest.Search
