import Mathlib.Data.List.Dedup
import DjangoMojo.Foundation.PythonText

/-! # Phone numbers

How a text is read as a phone number, with a country as a hint, and what is told about it.
-/

namespace DjangoMojo.Phonehub

open Foundation

structure CountryInfo where
  countryCode : String
  country : String
  region : String
  isNanp : Bool

structure Location where
  state : Option String
  region : Option String
  country : Option String

structure AreaCodeInfo where
  valid : Bool
  areaCode : List Char
  type : String
  description : String
  location : Option Location

/-- The Unicode tables, `INTERNATIONAL_CODES`, `ALL_VALID_CODES` and what is told from the area
codes and from the prefixes of the national numbers. -/
structure PhoneTables extends TextTables where
  isControl : Char → Bool
  codes : Int → Option (String × String)
  validCode : Int → Bool
  areaCodeInfo : List Char → AreaCodeInfo
  internationalType : String → List Char → Option String
  digit_decimal : ∀ char, char.isDigit = true → (decimal char).isSome = true
  decimal_visible : ∀ char, (decimal char).isSome = true →
    isControl char = false ∧ isSpace char = false
  plus_visible : isControl '+' = false ∧ isSpace '+' = false
  plus_not_decimal : (decimal '+').isSome = false

namespace PhoneTables

variable (tables : PhoneTables)

def cleanInput (phoneNumber : List Char) : List Char :=
  tables.strip (phoneNumber.filter fun char => !tables.isControl char)

def extractDigits (phoneNumber : List Char) : List Char :=
  phoneNumber.filter fun char => (tables.decimal char).isSome

def detectCountryCode (phoneNumber : List Char) : Option CountryInfo :=
  let digits := tables.extractDigits phoneNumber
  if digits = [] then none
  else if digits.head? = some '1' then
    some ⟨"1", "USA/Canada/Caribbean (NANP)", "North America/Caribbean", true⟩
  else
    let known := [3, 2, 1].findSome? fun length =>
      if length ≤ digits.length then
        (tables.int (digits.take length)).bind fun code =>
          (tables.codes code).map fun info => ⟨toString code, info.1, info.2, false⟩
      else none
    some (known.getD ⟨"unknown", "Unknown", "Unknown", false⟩)

def detectCountry (phoneNumber : List Char) : Option CountryInfo :=
  let phone := tables.cleanInput phoneNumber
  let digits := tables.extractDigits phone
  if digits = [] then none
  else if phone.head? = some '+' ∨ 7 ≤ digits.length then
    tables.detectCountryCode ('+' :: digits)
  else none

def normalize (phoneNumber : List Char) (countryCode : Option String) : Option (List Char) :=
  let phone := tables.cleanInput phoneNumber
  let hasPlus : Bool := phone.head? = some '+'
  let digits := tables.extractDigits phone
  let one : Bool := digits.head? = some '1'
  if digits = [] then none
  else
    match countryCode with
    | none =>
      if !hasPlus then
        if one && digits.length = 11 then some ('+' :: digits)
        else if digits.length = 10 then some ('+' :: '1' :: digits)
        else none
      else
        match tables.detectCountry ('+' :: digits) with
        | none => if 7 ≤ digits.length ∧ digits.length ≤ 15 then some ('+' :: digits) else none
        | some info =>
          if info.isNanp then
            if one && digits.length = 11 then some ('+' :: digits) else none
          else if 7 ≤ digits.length ∧ digits.length ≤ 15 then some ('+' :: digits)
          else none
    | some code =>
      if code = "US" ∨ code = "CA" then
        if hasPlus then
          if one && digits.length = 11 then some ('+' :: digits) else none
        else if one && digits.length = 11 then some ('+' :: digits)
        else if digits.length = 10 then some ('+' :: '1' :: digits)
        else none
      else if hasPlus ∧ 7 ≤ digits.length ∧ digits.length ≤ 15 then some ('+' :: digits)
      else none

structure Validation where
  valid : Bool
  normalized : Option (List Char)
  error : Option String
  areaCode : Option (List Char) := none
  areaCodeInfo : Option AreaCodeInfo := none
  countryInfo : Option CountryInfo := none

/-- `_validate` where `normalize` fails. -/
def refusal (phoneNumber : List Char) : Option String → Validation
  | none => ⟨false, none, some "Invalid phone number format", none, none, none⟩
  | some code =>
    match (tables.normalize phoneNumber none).bind tables.detectCountryCode with
    | some info =>
      if info.isNanp then
        ⟨false, none, some ("Invalid " ++ code ++ " phone number format"), none, none, none⟩
      else
        ⟨false, none, some ("International number detected: " ++ info.country ++ " (+" ++
          info.countryCode ++ ") - expected " ++ code ++ " number"), none, none, some info⟩
    | none => ⟨false, none, some ("Invalid " ++ code ++ " phone number format"), none, none, none⟩

/-- `_validate` of a normalized number. -/
def judge (normalized : List Char) : Validation :=
  let digits := if normalized.head? = some '+' then normalized.tail else normalized
  if digits.head? ≠ some '1' ∨ digits.length ≠ 11 then
    match tables.detectCountryCode normalized with
    | some info =>
      if info.isNanp then ⟨false, some normalized, some "Not a valid phone number", none, none, none⟩
      else ⟨true, some normalized, none, none, none, some info⟩
    | none => ⟨false, some normalized, some "Not a valid phone number", none, none, none⟩
  else
    let npa := (digits.drop 1).take 3
    let nxx := (digits.drop 4).take 3
    let invalid (part : String) (code : List Char) (why : String) (info : Option AreaCodeInfo) :
        Validation :=
      ⟨false, some normalized,
        some ("Invalid " ++ part ++ ": " ++ String.ofList code ++ " (" ++ why ++ ")"), none, info,
        none⟩
    if !(tables.int npa).any tables.validCode then
      invalid "area code" npa "not assigned in NANP" (some (tables.areaCodeInfo npa))
    else if npa.head? = some '0' ∨ npa.head? = some '1' then
      invalid "area code" npa "cannot start with 0 or 1" none
    else if nxx.head? = some '0' ∨ nxx.head? = some '1' then
      invalid "exchange" nxx "cannot start with 0 or 1" none
    else if npa.drop 1 = ['1', '1'] then
      invalid "area code" npa "N11 codes not allowed" none
    else if nxx.drop 1 = ['1', '1'] then
      invalid "exchange" nxx "N11 service codes not allowed" none
    else if (digits.drop 1).dedup.length = 1 then
      ⟨false, some normalized, some "Invalid number (all same digits)", none, none, none⟩
    else ⟨true, some normalized, none, some npa, some (tables.areaCodeInfo npa), none⟩

/-- `_validate` -/
def validation (phoneNumber : List Char) (countryCode : Option String) : Validation :=
  match tables.normalize phoneNumber countryCode with
  | none => tables.refusal phoneNumber countryCode
  | some normalized => tables.judge normalized

def validate (phoneNumber : List Char) (countryCode : Option String) : Bool :=
  (tables.validation phoneNumber countryCode).valid

structure Parsed where
  original : List Char
  normalized : Option (List Char)
  valid : Bool
  error : Option String
  countryCode : Option String := none
  country : Option String := none
  region : Option String := none
  isNanp : Bool := false
  areaCode : Option (List Char) := none
  validAreaCode : Bool := false
  type : Option String := none
  description : Option String := none
  location : Option Location := none

def Parsed.withCountry (parsed : Parsed) (info : CountryInfo) : Parsed :=
  { parsed with
    countryCode := some info.countryCode
    country := some info.country
    region := some info.region
    isNanp := info.isNanp }

def Parsed.withArea (parsed : Parsed) (areaCode : List Char) (info : AreaCodeInfo) : Parsed :=
  { parsed with
    areaCode := some areaCode
    validAreaCode := info.valid
    type := some info.type
    description := some info.description
    location := info.location }

def Parsed.withLine (parsed : Parsed) (normalized : List Char) : Parsed :=
  let digits := tables.extractDigits normalized
  if parsed.isNanp then
    if digits.length = 11 then
      let npa := (digits.drop 1).take 3
      parsed.withArea npa (tables.areaCodeInfo npa)
    else parsed
  else
    match parsed.countryCode with
    | none => parsed
    | some code =>
      match tables.internationalType code (digits.drop code.length) with
      | none => parsed
      | some lineType =>
        { parsed with
          type := some lineType
          description := some (parsed.country.getD "None" ++ " " ++ lineType ++ " number") }

def parse (phoneNumber : List Char) (countryCode : Option String) : Parsed :=
  let validation := tables.validation phoneNumber countryCode
  let result : Parsed :=
    { original := phoneNumber
      normalized := validation.normalized
      valid := validation.valid
      error := validation.error }
  match validation.normalized with
  | none => result
  | some normalized =>
    let result :=
      match (tables.detectCountry normalized).or validation.countryInfo with
      | some info => result.withCountry info
      | none => result
    match validation.areaCodeInfo with
    | some info => result.withArea (validation.areaCode.getD info.areaCode) info
    | none => result.withLine tables normalized

end PhoneTables

end DjangoMojo.Phonehub
