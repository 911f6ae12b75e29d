import DjangoMojo.Phonehub.PhoneNumbers

/-! # The canonical form of a phone number

A number is read from its digits and from whether a plus is seen. The plus is looked for at the
first visible character only.
-/

namespace DjangoMojo.Phonehub

open Foundation

namespace PhoneTables

variable (tables : PhoneTables)

def hasPlus (phoneNumber : List Char) : Bool :=
  (tables.cleanInput phoneNumber).head? = some '+'

def plusBefore (phoneNumber : List Char) : Bool :=
  '+' ∈ phoneNumber.takeWhile fun char => !(tables.decimal char).isSome

def takes (plus : Bool) (digits : List Char) : Option String → Bool
  | none =>
    if plus then
      if digits.head? = some '1' then digits.length = 11
      else 7 ≤ digits.length ∧ digits.length ≤ 15
    else (digits.head? = some '1' ∧ digits.length = 11) ∨ digits.length = 10
  | some code =>
    if code = "US" ∨ code = "CA" then
      (digits.head? = some '1' ∧ digits.length = 11) ∨ (plus = false ∧ digits.length = 10)
    else plus ∧ 7 ≤ digits.length ∧ digits.length ≤ 15

def international (plus : Bool) (digits : List Char) : List Char :=
  if plus = false ∧ digits.length = 10 then '+' :: '1' :: digits else '+' :: digits

def reading (plus : Bool) (digits : List Char) (countryCode : Option String) :
    Option (List Char) :=
  if takes plus digits countryCode then some (international plus digits) else none

/-- The digits of a number, with the plus as the only other character. -/
def spelled (plus : Bool) (digits : List Char) : List Char :=
  (if plus then ['+'] else []) ++ digits

variable {tables} {phoneNumber digits : List Char} {countryCode : Option String}

/-! ### Cleaning -/

theorem filter_dropWhile {keeps drops : Char → Bool} (happart : ∀ char, keeps char = true →
    drops char = false) (text : List Char) :
    (text.dropWhile drops).filter keeps = text.filter keeps := by
  induction text with
  | nil => rfl
  | cons char rest ih =>
    cases hdrops : drops char with
    | false => rw [List.dropWhile_cons_of_neg (by simp [hdrops])]
    | true =>
      have hkeeps : ¬ keeps char = true := fun hkeeps => by
        rw [happart char hkeeps] at hdrops
        cases hdrops
      rw [List.dropWhile_cons_of_pos hdrops, List.filter_cons_of_neg hkeeps, ih]

theorem extractDigits_cleanInput (phoneNumber : List Char) :
    tables.extractDigits (tables.cleanInput phoneNumber) = tables.extractDigits phoneNumber := by
  have hspace : ∀ char, (tables.decimal char).isSome = true → tables.isSpace char = false :=
    fun char hdecimal => (tables.decimal_visible char hdecimal).2
  unfold extractDigits cleanInput TextTables.strip
  rw [List.filter_reverse, filter_dropWhile hspace, List.filter_reverse, List.reverse_reverse,
    filter_dropWhile hspace, List.filter_filter]
  refine List.filter_congr fun char _ => ?_
  cases hdecimal : (tables.decimal char).isSome with
  | false => rfl
  | true => rw [(tables.decimal_visible char hdecimal).1]; rfl

theorem cleanInput_of_visible
    (hvisible : ∀ char ∈ phoneNumber, tables.isControl char = false ∧ tables.isSpace char = false) :
    tables.cleanInput phoneNumber = phoneNumber := by
  have hkeep (text : List Char) (hplain : ∀ char ∈ text, tables.isSpace char = false) :
      text.dropWhile tables.isSpace = text := by
    cases text with
    | nil => rfl
    | cons char rest => exact List.dropWhile_cons_of_neg (by simp [hplain char])
  unfold cleanInput TextTables.strip
  rw [List.filter_eq_self.mpr fun char hchar => by rw [(hvisible char hchar).1]; rfl,
    hkeep _ fun char hchar => (hvisible char hchar).2,
    hkeep _ fun char hchar => (hvisible char (List.mem_reverse.mp hchar)).2, List.reverse_reverse]

theorem cleanInput_digits (plus : Bool)
    (hdigits : ∀ char ∈ digits, (tables.decimal char).isSome = true) :
    tables.cleanInput (spelled plus digits) = spelled plus digits := by
  refine cleanInput_of_visible fun char hchar => ?_
  rcases List.mem_append.mp hchar with hplus | hdigit
  · cases plus with
    | false => cases hplus
    | true =>
      rw [List.mem_singleton.mp hplus]
      exact tables.plus_visible
  · exact tables.decimal_visible char (hdigits char hdigit)

theorem extractDigits_digits (plus : Bool)
    (hdigits : ∀ char ∈ digits, (tables.decimal char).isSome = true) :
    tables.extractDigits (spelled plus digits) = digits := by
  have hkept : digits.filter (fun char => (tables.decimal char).isSome) = digits :=
    List.filter_eq_self.mpr hdigits
  unfold extractDigits spelled
  rw [List.filter_append, hkept]
  cases plus with
  | false => rfl
  | true => simp [tables.plus_not_decimal]

theorem decimal_of_mem_extractDigits (phoneNumber : List Char) :
    ∀ char ∈ tables.extractDigits phoneNumber, (tables.decimal char).isSome = true :=
  fun _ hchar => (List.mem_filter.mp hchar).2

/-! ### Reading -/

theorem detectCountryCode_isNanp (phoneNumber : List Char) :
    (tables.detectCountryCode phoneNumber).map CountryInfo.isNanp =
      if tables.extractDigits phoneNumber = [] then none
      else some (decide ((tables.extractDigits phoneNumber).head? = some '1')) := by
  unfold detectCountryCode
  dsimp only
  split
  next => rfl
  next =>
    split
    next hone => simp [hone]
    next hone =>
      simp only [hone, decide_false, Option.map_some, Option.some.injEq]
      cases hknown : [3, 2, 1].findSome? (_ : Nat → Option CountryInfo) with
      | none => rfl
      | some info =>
        obtain ⟨length, _, hinfo⟩ := List.exists_of_findSome?_eq_some hknown
        split at hinfo
        next =>
          obtain ⟨code, _, hcode⟩ := Option.bind_eq_some_iff.mp hinfo
          obtain ⟨names, _, rfl⟩ := Option.map_eq_some_iff.mp hcode
          rfl
        next => cases hinfo

/-- A number with a plus is of the North American plan when it begins with a one. -/
theorem detectCountry_plus (hempty : digits ≠ [])
    (hdigits : ∀ char ∈ digits, (tables.decimal char).isSome = true) :
    (tables.detectCountry ('+' :: digits)).map CountryInfo.isNanp =
      some (decide (digits.head? = some '1')) := by
  have hclean : tables.cleanInput ('+' :: digits) = '+' :: digits := cleanInput_digits true hdigits
  have hextract : tables.extractDigits ('+' :: digits) = digits := extractDigits_digits true hdigits
  simp only [detectCountry, hclean, hextract, hempty, List.head?_cons, true_or, if_true, if_false]
  rw [detectCountryCode_isNanp, hextract, if_neg hempty]

theorem reading_nil (plus : Bool) (countryCode : Option String) :
    reading plus [] countryCode = none := by
  refine if_neg ?_
  cases countryCode with
  | none => cases plus <;> decide
  | some code => simp [takes]

theorem normalize_eq (phoneNumber : List Char) (countryCode : Option String) :
    tables.normalize phoneNumber countryCode =
      reading (tables.hasPlus phoneNumber) (tables.extractDigits phoneNumber) countryCode := by
  have hdigits := @decimal_of_mem_extractDigits tables phoneNumber
  have hplus : decide ((tables.cleanInput phoneNumber).head? = some '+') =
      tables.hasPlus phoneNumber := rfl
  unfold normalize
  dsimp only
  rw [extractDigits_cleanInput, hplus]
  generalize tables.hasPlus phoneNumber = plus
  generalize tables.extractDigits phoneNumber = digits at hdigits ⊢
  split
  next hempty => rw [hempty, reading_nil]
  next hempty =>
    cases countryCode with
    | none =>
      cases plus with
      | false =>
        simp only [reading, takes, international]
        grind
      | true =>
        have hnanp := detectCountry_plus hempty hdigits
        obtain ⟨info, hinfo, hone⟩ := Option.map_eq_some_iff.mp hnanp
        simp only [reading, takes, international, hinfo, hone]
        grind
    | some code =>
      simp only [reading, takes, international]
      grind

theorem hasPlus_spelled (plus : Bool)
    (hdigits : ∀ char ∈ digits, (tables.decimal char).isSome = true) :
    tables.hasPlus (spelled plus digits) = plus := by
  unfold hasPlus
  rw [cleanInput_digits plus hdigits]
  cases plus with
  | true => rfl
  | false =>
    refine decide_eq_false fun hhead => ?_
    have hplus := hdigits '+' (List.mem_of_mem_head? hhead)
    rw [tables.plus_not_decimal] at hplus
    cases hplus

theorem normalize_spelled (plus : Bool) (countryCode : Option String)
    (hdigits : ∀ char ∈ digits, (tables.decimal char).isSome = true) :
    tables.normalize (spelled plus digits) countryCode = reading plus digits countryCode := by
  rw [normalize_eq, hasPlus_spelled plus hdigits, extractDigits_digits plus hdigits]

/-- The plus that is seen stands before the first digit. -/
theorem plusBefore_of_hasPlus (hplus : tables.hasPlus phoneNumber = true) :
    tables.plusBefore phoneNumber = true := by
  refine decide_eq_true ?_
  let visible := (phoneNumber.filter fun char => !tables.isControl char).dropWhile tables.isSpace
  have hprefix : tables.cleanInput phoneNumber <+: visible := by
    have hsuffix := List.dropWhile_suffix tables.isSpace (l := visible.reverse)
    rw [← List.reverse_prefix, List.reverse_reverse] at hsuffix
    exact hsuffix
  have hhead : visible.head? = some '+' := by
    obtain ⟨rest, hrest⟩ := hprefix
    rw [← hrest, List.head?_append, of_decide_eq_true hplus, Option.some_or]
  clear hprefix hplus
  induction phoneNumber with
  | nil => cases hhead
  | cons char rest ih =>
    cases hdecimal : (tables.decimal char).isSome with
    | false =>
      rw [List.takeWhile_cons_of_pos (by rw [hdecimal]; rfl)]
      by_cases hchar : char = '+'
      · rw [hchar]
        exact List.mem_cons_self
      · refine List.mem_cons_of_mem _ (ih ?_)
        cases hcontrol : tables.isControl char with
        | true => simpa [visible, hcontrol] using hhead
        | false =>
          cases hspace : tables.isSpace char with
          | true => simpa [visible, hcontrol, hspace] using hhead
          | false => exact absurd (by simpa [visible, hcontrol, hspace] using hhead) hchar
    | true =>
      obtain ⟨hcontrol, hspace⟩ := tables.decimal_visible char hdecimal
      have hchar : char = '+' := by simpa [visible, hcontrol, hspace] using hhead
      rw [hchar, tables.plus_not_decimal] at hdecimal
      cases hdecimal

theorem reading_false_eq_true_iff :
    reading false digits countryCode = reading true digits countryCode ↔
      (takes false digits countryCode = true ∨ takes true digits countryCode = true →
        digits.head? = some '1' ∧ digits.length = 11 ∧ takes false digits countryCode = true) := by
  cases countryCode with
  | none =>
    simp only [reading, takes, international]
    grind
  | some code =>
    simp only [reading, takes, international]
    grind

/-- A number that is read is read again as itself. -/
theorem normalize_of_reading {plus : Bool} {normalized : List Char}
    (hdigits : ∀ char ∈ digits, (tables.decimal char).isSome = true)
    (hreading : reading plus digits countryCode = some normalized) :
    tables.normalize normalized countryCode = some normalized := by
  have hone : (tables.decimal '1').isSome = true := tables.digit_decimal '1' rfl
  unfold reading at hreading
  split at hreading
  next htakes =>
    cases hreading
    unfold international
    split
    next hten =>
      have hall : ∀ char ∈ '1' :: digits, (tables.decimal char).isSome = true :=
        List.forall_mem_cons.mpr ⟨hone, hdigits⟩
      change tables.normalize (spelled true ('1' :: digits)) countryCode = _
      rw [normalize_spelled true countryCode hall]
      cases countryCode with
      | none => simp [reading, takes, international, hten.2]
      | some code =>
        simp only [reading, takes, international] at htakes ⊢
        grind
    next hten =>
      change tables.normalize (spelled true digits) countryCode = _
      rw [normalize_spelled true countryCode hdigits]
      cases countryCode with
      | none =>
        simp only [reading, takes, international] at htakes ⊢
        grind
      | some code =>
        simp only [reading, takes, international] at htakes ⊢
        grind
  next => cases hreading

theorem reading_form {plus : Bool} {normalized : List Char}
    (hreading : reading plus digits countryCode = some normalized) :
    ∃ read, normalized = '+' :: read ∧ 7 ≤ read.length ∧ read.length ≤ 15 ∧
      (read = digits ∨ read = '1' :: digits) := by
  unfold reading international at hreading
  cases countryCode with
  | none =>
    simp only [takes] at hreading
    grind
  | some code =>
    simp only [takes] at hreading
    grind

/-! ### Judging -/

theorem refusal_not_valid (phoneNumber : List Char) (countryCode : Option String) :
    (tables.refusal phoneNumber countryCode).valid = false := by
  unfold refusal
  split
  next => rfl
  next =>
    split
    next => split <;> rfl
    next => rfl

theorem judge_normalized (normalized : List Char) :
    (tables.judge normalized).normalized = some normalized := by
  unfold judge
  dsimp only
  repeat' split
  all_goals rfl

theorem nanp_of_judge (hdigits : ∀ char ∈ digits, (tables.decimal char).isSome = true)
    (hvalid : (tables.judge ('+' :: digits)).valid = true) (hone : digits.head? = some '1') :
    digits.length = 11 := by
  by_contra hlength
  have hnonempty : digits ≠ [] := fun hempty => by rw [hempty] at hone; cases hone
  have hextract : tables.extractDigits ('+' :: digits) = digits := extractDigits_digits true hdigits
  have hnanp := @detectCountryCode_isNanp tables ('+' :: digits)
  rw [hextract, if_neg hnonempty, hone] at hnanp
  obtain ⟨info, hinfo, hplan⟩ := Option.map_eq_some_iff.mp hnanp
  have hplan : info.isNanp = true := hplan.trans (decide_eq_true rfl)
  simp [judge, hlength, hinfo, hplan] at hvalid

theorem parsed_verdict (phoneNumber : List Char) (countryCode : Option String) :
    (tables.parse phoneNumber countryCode).valid =
        (tables.validation phoneNumber countryCode).valid ∧
      (tables.parse phoneNumber countryCode).normalized =
        (tables.validation phoneNumber countryCode).normalized := by
  unfold parse Parsed.withLine
  dsimp only
  repeat' split
  all_goals exact ⟨rfl, rfl⟩

theorem normalize_of_judge {plus : Bool} {normalized : List Char}
    (hdigits : ∀ char ∈ digits, (tables.decimal char).isSome = true)
    (hreading : reading plus digits countryCode = some normalized)
    (hvalid : (tables.judge normalized).valid = true) :
    tables.normalize normalized none = some normalized := by
  obtain ⟨read, rfl, hleast, hmost, hread⟩ := reading_form hreading
  have hall : ∀ char ∈ read, (tables.decimal char).isSome = true := by
    rcases hread with rfl | rfl
    · exact hdigits
    · exact List.forall_mem_cons.mpr ⟨tables.digit_decimal '1' rfl, hdigits⟩
  have hnanp := nanp_of_judge hall hvalid
  change tables.normalize (spelled true read) none = _
  rw [normalize_spelled true none hall]
  simp only [reading, takes, international]
  grind

/-! ### The canonical form -/

variable (tables) in
/-- What a canonical form owes to a text and a hint: the form itself, that it is kept, that only
the digits and the plus count, and that what is valid stays so. -/
structure Canonical (phoneNumber : List Char) (countryCode : Option String) : Prop where
  form : ∀ normalized ∈ tables.normalize phoneNumber countryCode, ∃ digits,
    normalized = '+' :: digits ∧ 7 ≤ digits.length ∧ digits.length ≤ 15 ∧
      ∀ char ∈ digits, char.isDigit = true
  kept : ∀ normalized ∈ tables.normalize phoneNumber countryCode,
    tables.normalize normalized countryCode = some normalized
  spelling : tables.normalize phoneNumber countryCode =
    tables.normalize
      (spelled (tables.plusBefore phoneNumber) (tables.extractDigits phoneNumber)) countryCode
  valid : tables.validate phoneNumber countryCode = true → ∃ normalized,
    tables.normalize phoneNumber countryCode = some normalized ∧
    tables.validate normalized none = true ∧
    (tables.validation normalized none).normalized = some normalized ∧
    (tables.parse phoneNumber countryCode).valid = true ∧
    (tables.parse phoneNumber countryCode).normalized = some normalized

variable (tables) in
/-- A plus before the first digit is not seen, and the hint reads the digits differently with
and without it. -/
def Misread (phoneNumber : List Char) (countryCode : Option String) : Prop :=
  let digits := tables.extractDigits phoneNumber
  tables.plusBefore phoneNumber = true ∧ tables.hasPlus phoneNumber = false ∧
    (takes false digits countryCode = true ∨ takes true digits countryCode = true) ∧
    ¬ (digits.head? = some '1' ∧ digits.length = 11 ∧ takes false digits countryCode = true)

theorem spelling_iff : tables.normalize phoneNumber countryCode = tables.normalize
      (spelled (tables.plusBefore phoneNumber) (tables.extractDigits phoneNumber)) countryCode ↔
    ¬ tables.Misread phoneNumber countryCode := by
  rw [normalize_spelled _ _ (decimal_of_mem_extractDigits phoneNumber), normalize_eq]
  unfold Misread
  cases hplus : tables.hasPlus phoneNumber with
  | true => simp [plusBefore_of_hasPlus hplus]
  | false =>
    cases hbefore : tables.plusBefore phoneNumber with
    | false => simp
    | true =>
      rw [reading_false_eq_true_iff]
      tauto

theorem valid_canonical (hvalid : tables.validate phoneNumber countryCode = true) :
    ∃ normalized, tables.normalize phoneNumber countryCode = some normalized ∧
      tables.validate normalized none = true ∧
      (tables.validation normalized none).normalized = some normalized ∧
      (tables.parse phoneNumber countryCode).valid = true ∧
      (tables.parse phoneNumber countryCode).normalized = some normalized := by
  obtain ⟨hverdict, hnumber⟩ := @parsed_verdict tables phoneNumber countryCode
  have hdigits := @decimal_of_mem_extractDigits tables phoneNumber
  cases hnormalize : tables.normalize phoneNumber countryCode with
  | none =>
    simp only [validate, validation, hnormalize, refusal_not_valid] at hvalid
    cases hvalid
  | some normalized =>
    have hjudged : tables.validation phoneNumber countryCode = tables.judge normalized := by
      rw [validation, hnormalize]
    rw [validate, hjudged] at hvalid
    have hagain : tables.validation normalized none = tables.judge normalized := by
      rw [normalize_eq] at hnormalize
      rw [validation, normalize_of_judge hdigits hnormalize hvalid]
    refine ⟨normalized, rfl, ?_⟩
    rw [hverdict, hnumber, validate, hagain, hjudged]
    exact ⟨hvalid, judge_normalized normalized, hvalid, judge_normalized normalized⟩

def ascii : PhoneTables where
  toTextTables := .ascii
  isControl char := char.toNat < 32 || char.toNat = 127
  codes := fun _ => none
  validCode := fun _ => false
  areaCodeInfo := fun npa => ⟨false, npa, "invalid", "Not a valid NANP area code", none⟩
  internationalType := fun _ _ => none
  digit_decimal char hdigit := by
    simp [TextTables.ascii, hdigit]
  decimal_visible char hdecimal := by
    have hdigit : char.isDigit = true := by
      by_contra hnot
      simp [TextTables.ascii, hnot] at hdecimal
    have hplain : [' ', '\t', '\n', '\x0b', '\x0c', '\r'].all (fun space => !space.isDigit) = true :=
      by decide
    refine ⟨?_, decide_eq_false fun hspace => ?_⟩
    · simp only [Char.isDigit, Bool.and_eq_true, decide_eq_true_eq] at hdigit
      have hleast : 48 ≤ char.toNat := hdigit.1
      have hmost : char.toNat ≤ 57 := hdigit.2
      simp only [Bool.or_eq_false_iff, decide_eq_false_iff_not]
      omega
    · have hnot := List.all_eq_true.mp hplain char hspace
      rw [hdigit] at hnot
      cases hnot
  plus_visible := by decide
  plus_not_decimal := by decide

end PhoneTables

end DjangoMojo.Phonehub
