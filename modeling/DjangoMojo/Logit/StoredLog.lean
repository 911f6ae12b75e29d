import DjangoMojo.Foundation.Json
import DjangoMojo.Foundation.Scanner

/-! # Masking

Two maskers share the sensitive keys. One replaces values in a dictionary, the other one
replaces what follows a key in a text, up to the next quote, comma or blank.
-/

namespace DjangoMojo.Logit

open DjangoMojo.Foundation

def SENSITIVE_KEYS : List String :=
  ["access_token", "api_key", "api_secret", "auth_token", "authorization", "bearer_token",
    "card_number", "confirm_token", "credit_card", "current_password", "cvv",
    "forced_password_token", "id_token", "mfa_code", "mojo_deploy_key", "new_password", "otp",
    "password", "pin", "private_key", "private_key_pem", "pwd", "refresh_token",
    "rotated_token", "secret", "ssn", "temporary_password", "token"]

/-! ### Texts -/

/-- Letters that are equal up to case. Besides the two cases of a letter these are the
Kelvin sign, the long s, the capital I with a dot and the small i without one. -/
def sameLetter (letter char : Char) : Bool :=
  char.toLower = letter || letter = 'k' && char = '\u212a' || letter = 's' && char = '\u017f' ||
    letter = 'i' && (char = '\u0130' || char = '\u0131')

/-- `\s` -/
def isSpace (char : Char) : Bool :=
  let code := char.toNat
  9 ≤ code && code ≤ 13 || 28 ≤ code && code ≤ 32 || code = 0x85 || code = 0xa0 ||
    code = 0x1680 || 0x2000 ≤ code && code ≤ 0x200a || code = 0x2028 || code = 0x2029 ||
    code = 0x202f || code = 0x205f || code = 0x3000

/-- `[^",\s]` -/
def isMasked (char : Char) : Bool := char ≠ '"' && char ≠ ',' && !isSpace char

def isQuote (char : Char) : Bool := char = '"'

def isSign (char : Char) : Bool := char = ':' || char = '='

/-- `"?\s*[:=]\s*"?` -/
def signScanner : Scanner Char :=
  (Scanner.optional isQuote).seq <| (Scanner.many isSpace).seq <| (Scanner.one isSign).seq <|
    (Scanner.many isSpace).seq (Scanner.optional isQuote)

/-- `"?key"?\s*[:=]\s*"?`. No part can begin with what the part before it takes, so no part
ever gives anything back. -/
def keyScanner (key : String) : Scanner Char :=
  (Scanner.optional isQuote).seq ((Scanner.word sameLetter key.toList).seq signScanner)

/-- `_SENSITIVE_KEY_PATTERN` -/
def sensitiveKeyPattern : Pattern Char := .keeping (SENSITIVE_KEYS.map keyScanner) isMasked

def mask : List Char := ['*', '*', '*', '*', '*']

def maskChars (text : List Char) : List Char := sensitiveKeyPattern.sub mask text

def maskSensitiveData (text : String) : String := String.ofList (maskChars text.toList)

example : maskSensitiveData "Token = abc, user=bob" = "Token = *****, user=bob" := by
  decide +kernel

theorem count_comma_maskChars (text : List Char) :
    (maskChars text).count ',' = text.count ',' :=
  Pattern.count_sub_keeping mask (by decide) (by decide) text

/-! ### Dictionaries -/

/-- `key.lower()`, as far as it decides whether the key is sensitive: the Kelvin sign is the
only character outside the ASCII range whose lower case is an ASCII text. -/
def lower (key : String) : String :=
  String.ofList (key.toList.map fun char => if char = '\u212a' then 'k' else char.toLower)

def isSensitive (key : String) : Bool := SENSITIVE_KEYS.contains (lower key)

mutual

def sanitizeDict : Json → Json
  | .arr items => .arr (sanitizeItems items)
  | .obj fields => .obj (sanitizeFields fields)
  | value => value

def sanitizeItems : List Json → List Json
  | [] => []
  | item :: rest => sanitizeDict item :: sanitizeItems rest

def sanitizeFields : List (String × Json) → List (String × Json)
  | [] => []
  | (key, value) :: rest =>
    (key, if isSensitive key then .str (String.ofList mask) else sanitizeDict value) ::
      sanitizeFields rest

end

example :
    (sanitizeDict (.obj [("PIN", .int 1), ("user", .obj [("id", .int 7), ("Otp", .null)])])).dumps =
      "\x7b\"PIN\": \"*****\", \"user\": \x7b\"id\": 7, \"Otp\": \"*****\"\x7d\x7d".toList := by
  decide +kernel

/-! ## Stored logs

A dictionary that is logged is written as text and masked as text; a dictionary that is
the payload is sanitized first. Texts are masked in both places.
-/

structure Writers where
  /-- `str(value)` of a value that is no text. -/
  pyStr : Json → String
  /-- `ujson.encode(fields, indent=4)` -/
  ujson : JsonFields → String

structure User where
  pk : Int
  username : String

structure Request where
  user : Option User
  path : Option String
  duid : Option String
  ip : Option String
  method : Option String
  userAgent : Option String
  /-- The identifier of `request.group`, if there is a group. -/
  group : Option Int

/-- The keyword arguments that are read. A text may be given as `None`. -/
structure Kwargs where
  ipAddress : Option String := none
  userAgent : Option String := none
  path : Option (Option String) := none
  method : Option (Option String) := none
  duid : Option (Option String) := none
  gid : Int := 0
  payload : Json := .null

/-- What is logged: a dictionary, a text, bytes, or a value of some other type. -/
inductive Logged where
  | dict (fields : JsonFields)
  | text (value : String)
  | bytes (content : ByteArray)
  | other (typeName : String)

structure Call where
  request : Option Request := none
  kind : Option String := some "log"
  modelName : Option String := none
  modelId : Int := 0
  level : String := "info"
  kwargs : Kwargs := {}

structure Log where
  level : String
  kind : Option String
  method : Option String
  path : Option String
  payload : Option String
  ip : Option String
  uid : Int
  gid : Int
  duid : Option String
  username : Option String
  log : String
  userAgent : Option String
  modelName : Option String
  modelId : Int

section

variable (writers : Writers)

/-- `convert_value`. No value of a JSON object is of bytes or has an `isoformat`. -/
def convertValue : Json → Json
  | .str value => .str value
  | value => .str (writers.pyStr value)

/-- What becomes of a value of the dictionary that is logged. -/
def convertEntry : Json → Json
  | .obj fields => .obj (fields.map fun field => (field.1, convertValue writers field.2))
  | .arr items => .arr (items.map (convertValue writers))
  | value => convertValue writers value

/-- The text before it is masked, or `none` for bytes that do not decode. -/
def logText : Logged → Option String
  | .dict fields =>
    some (writers.ujson (fields.map fun field => (field.1, convertEntry writers field.2)))
  | .text value => some value
  | .bytes content => String.fromUTF8? content
  | .other typeName => some ("INVALID LOG TYPE: attempting to log type: " ++ typeName)

def storedPayload (payload : Json) : Option String :=
  match payload with
  | .null => none
  | .str value => some (if payload.truthy then maskSensitiveData value else value)
  | .obj fields =>
    some (writers.pyStr (if payload.truthy then sanitizeDict (.obj fields) else payload))
  | value => some (writers.pyStr value)

/-- `Log.logit` -/
def logit (call : Call) (log : Logged) : Option Log :=
  (logText writers log).map fun text =>
    let request := call.request
    let user := request.bind (·.user)
    let given := call.kwargs
    { level := call.level
      kind := call.kind
      method := given.method.getD (request.bind (·.method))
      path := given.path.getD (request.bind (·.path))
      payload := storedPayload writers given.payload
      ip := match request with
        | some request => request.ip
        | none => given.ipAddress
      uid := (user.map (·.pk)).getD 0
      gid := if given.gid = 0 then ((request.bind (·.group)).getD 0) else given.gid
      duid := given.duid.getD (request.bind (·.duid))
      username := user.map (·.username)
      log := maskSensitiveData text
      userAgent := match request with
        | some request => request.userAgent
        | none => given.userAgent
      modelName := call.modelName
      modelId := call.modelId }

end

end DjangoMojo.Logit
