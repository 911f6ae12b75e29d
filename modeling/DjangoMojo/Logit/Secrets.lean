import DjangoMojo.Logit.StoredLog

/-! # Secrets in stored logs

A secret is a value under a sensitive key. Sanitizing removes every secret, whatever it
is. Masking a text removes no comma, so a secret with enough commas shows in the text of
any object that has a place for it.
-/

namespace DjangoMojo.Logit

open DjangoMojo.Foundation

/-! ### Values that differ in secrets -/

mutual

/-- The values are equal but for what they hold under sensitive keys. -/
inductive SameButSecrets : Json → Json → Prop
  | same (value : Json) : SameButSecrets value value
  | arr {items others : List Json} (hitems : SameItems items others) :
      SameButSecrets (.arr items) (.arr others)
  | obj {fields others : JsonFields} (hfields : SameFields fields others) :
      SameButSecrets (.obj fields) (.obj others)

inductive SameItems : List Json → List Json → Prop
  | nil : SameItems [] []
  | cons {item other : Json} {items others : List Json} (hitem : SameButSecrets item other)
      (hitems : SameItems items others) : SameItems (item :: items) (other :: others)

inductive SameFields : List (String × Json) → List (String × Json) → Prop
  | nil : SameFields [] []
  | secret {key : String} (value other : Json) {fields others : List (String × Json)}
      (hkey : isSensitive key = true) (hfields : SameFields fields others) :
      SameFields ((key, value) :: fields) ((key, other) :: others)
  | cons (key : String) {value other : Json} {fields others : List (String × Json)}
      (hvalue : SameButSecrets value other) (hfields : SameFields fields others) :
      SameFields ((key, value) :: fields) ((key, other) :: others)

end

mutual

def hasSecret : Json → Bool
  | .arr items => itemsHaveSecret items
  | .obj fields => fieldsHaveSecret fields
  | _ => false

def itemsHaveSecret : List Json → Bool
  | [] => false
  | item :: rest => hasSecret item || itemsHaveSecret rest

def fieldsHaveSecret : List (String × Json) → Bool
  | [] => false
  | (key, value) :: rest => isSensitive key || hasSecret value || fieldsHaveSecret rest

end

mutual

theorem eq_of_no_secret {value other : Json} (hnone : hasSecret value = false) :
    SameButSecrets value other → value = other
  | .same _ => rfl
  | .arr hitems => by rw [items_eq_of_no_secret hnone hitems]
  | .obj hfields => by rw [fields_eq_of_no_secret hnone hfields]

theorem items_eq_of_no_secret {items others : List Json} (hnone : itemsHaveSecret items = false) :
    SameItems items others → items = others
  | .nil => rfl
  | .cons hitem hitems => by
    obtain ⟨hfirst, hrest⟩ := Bool.or_eq_false_iff.mp hnone
    rw [eq_of_no_secret hfirst hitem, items_eq_of_no_secret hrest hitems]

theorem fields_eq_of_no_secret {fields others : List (String × Json)}
    (hnone : fieldsHaveSecret fields = false) : SameFields fields others → fields = others
  | .nil => rfl
  | .secret _ _ hkey _ => by
    simp [fieldsHaveSecret, hkey] at hnone
  | .cons key hvalue hfields => by
    obtain ⟨hfirst, hrest⟩ := Bool.or_eq_false_iff.mp hnone
    rw [eq_of_no_secret (Bool.or_eq_false_iff.mp hfirst).2 hvalue,
      fields_eq_of_no_secret hrest hfields]

end

/-! ### Secrets of many commas -/

/-- A text of `count` commas. -/
def commaText (count : Nat) : String := String.ofList (List.replicate count ',')

mutual

/-- The value with a text of `count` commas for each secret. -/
def fill (count : Nat) : Json → Json
  | .arr items => .arr (fillItems count items)
  | .obj fields => .obj (fillFields count fields)
  | value => value

def fillItems (count : Nat) : List Json → List Json
  | [] => []
  | item :: rest => fill count item :: fillItems count rest

def fillFields (count : Nat) : List (String × Json) → List (String × Json)
  | [] => []
  | (key, value) :: rest =>
    (key, if isSensitive key then .str (commaText count) else fill count value) ::
      fillFields count rest

end

mutual

theorem sameButSecrets_fill (count : Nat) : (value : Json) →
    SameButSecrets value (fill count value)
  | .arr items => .arr (sameItems_fill count items)
  | .obj fields => .obj (sameFields_fill count fields)
  | .null | .bool _ | .int _ | .float _ | .str _ => .same _

theorem sameItems_fill (count : Nat) : (items : List Json) →
    SameItems items (fillItems count items)
  | [] => .nil
  | item :: rest => .cons (sameButSecrets_fill count item) (sameItems_fill count rest)

theorem sameFields_fill (count : Nat) : (fields : List (String × Json)) →
    SameFields fields (fillFields count fields)
  | [] => .nil
  | (key, value) :: rest => by
    rw [fillFields]
    split
    next hkey => exact .secret value _ hkey (sameFields_fill count rest)
    next => exact .cons key (sameButSecrets_fill count value) (sameFields_fill count rest)

end

theorem le_count_quoted (count : Nat) :
    count ≤ (Json.quoted (commaText count)).count ',' := by
  have hescape : Json.escape ',' = [','] := by decide
  have hmany : Json.escaped (commaText count) = List.replicate count ',' := by
    unfold Json.escaped commaText
    rw [String.toList_ofList]
    induction count with
    | zero => rfl
    | succ count ih =>
      rw [List.replicate_succ, List.flatMap_cons, ih, hescape]
      rfl
  rw [Json.quoted, List.count_cons, List.count_append, hmany, List.count_replicate_self]
  omega

theorem le_count_value {count : Nat} {key : String} {value : Json}
    (hvalue : hasSecret value = true → count ≤ (fill count value).dumps.count ',')
    (hsecret : (isSensitive key || hasSecret value) = true) :
    count ≤ (Json.dumps (if isSensitive key then .str (commaText count)
      else fill count value)).count ',' := by
  split
  next =>
    rw [Json.dumps]
    exact le_count_quoted count
  next hkey =>
    rw [Bool.not_eq_true] at hkey
    rw [hkey, Bool.false_or] at hsecret
    exact hvalue hsecret

mutual

theorem le_count_dumps (count : Nat) : (value : Json) → hasSecret value = true →
    count ≤ (fill count value).dumps.count ','
  | .arr [], hsecret => nomatch hsecret
  | .arr (item :: rest), hsecret => by
    rw [fill, fillItems, Json.dumps, List.count_cons, List.count_append, List.count_append]
    cases Bool.or_eq_true_iff.mp hsecret with
    | inl hitem =>
      have hcount := le_count_dumps count item hitem
      omega
    | inr hrest =>
      have hcount := le_count_dumpsItems count rest hrest
      omega
  | .obj [], hsecret => nomatch hsecret
  | .obj ((key, value) :: rest), hsecret => by
    rw [fill, fillFields, Json.dumps, List.count_cons, List.count_append, List.count_append,
      List.count_append]
    cases Bool.or_eq_true_iff.mp hsecret with
    | inl hfirst =>
      have hcount := le_count_value (le_count_dumps count value) hfirst
      omega
    | inr hrest =>
      have hcount := le_count_dumpsFields count rest hrest
      omega
  | .null, hsecret | .bool _, hsecret | .int _, hsecret | .float _, hsecret
  | .str _, hsecret => nomatch hsecret

theorem le_count_dumpsItems (count : Nat) : (items : List Json) → itemsHaveSecret items = true →
    count ≤ (Json.dumpsItems (fillItems count items)).count ','
  | [], hsecret => nomatch hsecret
  | item :: rest, hsecret => by
    rw [fillItems, Json.dumpsItems, List.count_append, List.count_append]
    cases Bool.or_eq_true_iff.mp hsecret with
    | inl hitem =>
      have hcount := le_count_dumps count item hitem
      omega
    | inr hrest =>
      have hcount := le_count_dumpsItems count rest hrest
      omega

theorem le_count_dumpsFields (count : Nat) : (fields : List (String × Json)) →
    fieldsHaveSecret fields = true →
    count ≤ (Json.dumpsFields (fillFields count fields)).count ','
  | [], hsecret => nomatch hsecret
  | (key, value) :: rest, hsecret => by
    rw [fillFields, Json.dumpsFields, List.count_append, List.count_append]
    cases Bool.or_eq_true_iff.mp hsecret with
    | inl hfirst =>
      have hcount := le_count_value (le_count_dumps count value) hfirst
      omega
    | inr hrest =>
      have hcount := le_count_dumpsFields count rest hrest
      omega

end

/-! ### What is stored of an object -/

/-- The ways to hand an object over: as what is logged or as the payload, as a dictionary
or as JSON text. -/
inductive Handing where
  | dict
  | text
  | payloadDict
  | payloadText
  deriving DecidableEq

/-- `json.dumps(fields)` -/
def jsonText (fields : JsonFields) : String := String.ofList (Json.obj fields).dumps

def Call.withPayload (call : Call) (payload : Json) : Call :=
  { call with kwargs := { call.kwargs with payload := payload } }

/-- Log an object; one that is the payload comes with something else that is logged. -/
def handOver (writers : Writers) (call : Call) (log : Logged) (fields : JsonFields) :
    Handing → Option Log
  | .dict => logit writers call (.dict fields)
  | .text => logit writers call (.text (jsonText fields))
  | .payloadDict => logit writers (call.withPayload (.obj fields)) log
  | .payloadText => logit writers (call.withPayload (.str (jsonText fields))) log

def Log.texts (log : Log) : String × Option String := (log.log, log.payload)

/-- What is stored of the object is stored of each object that differs only in secrets. -/
def HidesSecrets (writers : Writers) (fields : JsonFields) : Prop :=
  ∀ others, SameFields fields others → ∀ call log handing,
    (handOver writers call log fields handing).map Log.texts =
      (handOver writers call log others handing).map Log.texts

theorem logged_jsonText (writers : Writers) (call : Call) (log : Logged) (fields : JsonFields) :
    ((handOver writers call log fields .text).map Log.texts).map (·.1.toList) =
      some (maskChars (Json.obj fields).dumps) := by
  simp [handOver, logit, logText, Log.texts, maskSensitiveData, jsonText]

theorem HidesSecrets.maskChars_eq {writers : Writers} {fields others : JsonFields}
    (hhides : HidesSecrets writers fields) (hsame : SameFields fields others) :
    maskChars (Json.obj fields).dumps = maskChars (Json.obj others).dumps := by
  have hstored := congrArg (fun texts => texts.map (·.1.toList))
    (hhides others hsame {} (.text "") .text)
  simpa only [logged_jsonText, Option.some.injEq] using hstored

end DjangoMojo.Logit
