import DjangoMojo.Foundation.IpNetworks
import DjangoMojo.Foundation.Markers

/-! # The guard of outbound fetches

The verdict on a host name, from the addresses that a resolver gives for it,
and the host that the transport reads in a URL. The parsers of URLs are given.
-/

namespace DjangoMojo.Fetch

open Foundation IpNetwork

def blockedNetworks : List IpNetwork :=
  [v4 0 0 0 0 8, v4 10 0 0 0 8, v4 100 64 0 0 10, v4 127 0 0 0 8, v4 169 254 0 0 16,
    v4 172 16 0 0 12, v4 192 168 0 0 16, v4 240 0 0 0 4, v6 [0, 0, 0, 0, 0, 0, 0, 1] 128,
    v6 [0xfc00] 7, v6 [0xfe80] 10, v6 [0x2002] 16]

def isBlockedIp (ip : IpAddress) : Bool :=
  let check := ip.unmapped
  check.isPrivate || check.isLoopback || check.isLinkLocal || check.isReserved ||
    check.isMulticast || check.isIn blockedNetworks

theorem isBlockedIp_of_isOffLimits {ip : IpAddress} (hoff : ip.IsOffLimits) :
    isBlockedIp ip = true := by
  have hspecial := IpAddress.isSpecial_of_isOffLimits hoff
  rw [IpAddress.isSpecial] at hspecial
  rw [isBlockedIp]
  simp only [hspecial, Bool.true_or]

example : (IpAddress.parse "64:ff9b::7f00:1").any isBlockedIp = true ∧
    (IpAddress.parse "93.184.216.34").any isBlockedIp = false := by decide +kernel

/-- What a resolver may put in its list: a text, an address, or a value on which
`is_blocked_ip` raises. -/
inductive Answer where
  | text (word : String)
  | address (ip : IpAddress)
  | other
  deriving DecidableEq

namespace Answer

def ip? : Answer → Option IpAddress
  | .text word => IpAddress.parse word
  | .address ip => some ip
  | .other => none

/-- `is_blocked_ip` on an answer, `none` where it raises. -/
def isBlocked : Answer → Option Bool
  | .text word => some ((IpAddress.parse word).all isBlockedIp)
  | .address ip => some (isBlockedIp ip)
  | .other => none

theorem ip_of_isBlocked {answer : Answer} (hopen : answer.isBlocked = some false) :
    ∃ ip, answer.ip? = some ip ∧ isBlockedIp ip = false := by
  cases answer with
  | text word =>
    rw [isBlocked, Option.some.injEq] at hopen
    rw [ip?]
    cases hparse : IpAddress.parse word with
    | none =>
      rw [hparse] at hopen
      cases hopen
    | some ip =>
      rw [hparse] at hopen
      exact ⟨ip, rfl, hopen⟩
  | address ip => exact ⟨ip, rfl, Option.some.inj hopen⟩
  | other => cases hopen

end Answer

inductive Verdict where
  | acceptable | isPrivate | unresolvable
  deriving DecidableEq

/-- The loop over the addresses, `none` where it raises. -/
def judge : List Answer → Option Verdict
  | [] => some .acceptable
  | address :: rest =>
    match address.isBlocked with
    | none => none
    | some true => some .isPrivate
    | some false => judge rest

/-- `_host_verdict`; `none` where it raises, as when the resolver does. -/
def hostVerdict (resolve : String → Option (List Answer)) (hostname : String) : Option Verdict :=
  match IpAddress.parse hostname with
  | some literal => some (if isBlockedIp literal then .isPrivate else .acceptable)
  | none =>
    match resolve hostname with
    | none => none
    | some [] => some .unresolvable
    | some addresses => judge addresses

def safeVerdict (resolve : String → Option (List Answer)) (hostname : String) : Verdict :=
  (hostVerdict resolve hostname).getD .unresolvable

/-- What a verdict rests on: the literal, or what the resolver said. -/
inductive Evidence where
  | literal (ip : IpAddress)
  | resolved (answers : Option (List Answer))
  deriving DecidableEq

def evidence (resolve : String → Option (List Answer)) (hostname : String) : Evidence :=
  match IpAddress.parse hostname with
  | some literal => .literal literal
  | none => .resolved (resolve hostname)

/-- Evidence that a host may be contacted: an address literal, or a list of addresses that is
not empty, and no address of it off limits. -/
def Evidence.Clears (hostname : String) : Evidence → Prop
  | .literal ip => IpAddress.parse hostname = some ip ∧ ¬ ip.IsOffLimits
  | .resolved answers => ∃ addresses, answers = some addresses ∧ addresses ≠ [] ∧
      ∀ answer ∈ addresses, ∃ ip, answer.ip? = some ip ∧ ¬ ip.IsOffLimits

theorem judge_acceptable {addresses : List Answer} (hjudge : judge addresses = some .acceptable) :
    ∀ answer ∈ addresses, ∃ ip, answer.ip? = some ip ∧ ¬ ip.IsOffLimits := by
  induction addresses with
  | nil => simp
  | cons address rest ih =>
    rw [judge] at hjudge
    split at hjudge
    next => cases hjudge
    next => cases hjudge
    next hopen =>
      intro answer hanswer
      obtain rfl | hrest := List.mem_cons.mp hanswer
      · obtain ⟨ip, hip, hblocked⟩ := Answer.ip_of_isBlocked hopen
        refine ⟨ip, hip, fun hoff => ?_⟩
        rw [isBlockedIp_of_isOffLimits hoff] at hblocked
        cases hblocked
      · exact ih hjudge answer hrest

theorem clears_of_safeVerdict {resolve : String → Option (List Answer)} {hostname : String}
    (hverdict : safeVerdict resolve hostname = .acceptable) :
    (evidence resolve hostname).Clears hostname := by
  have hhost : hostVerdict resolve hostname = some .acceptable := by
    rw [safeVerdict] at hverdict
    cases hhost : hostVerdict resolve hostname with
    | none =>
      rw [hhost] at hverdict
      cases hverdict
    | some verdict =>
      rw [hhost] at hverdict
      exact congrArg some hverdict
  rw [evidence]
  rw [hostVerdict] at hhost
  cases hparse : IpAddress.parse hostname with
  | some literal =>
    rw [hparse] at hhost
    refine ⟨hparse, fun hoff => ?_⟩
    simp [isBlockedIp_of_isOffLimits hoff] at hhost
  | none =>
    rw [hparse] at hhost
    cases hresolve : resolve hostname with
    | none =>
      rw [hresolve] at hhost
      cases hhost
    | some addresses =>
      rw [hresolve] at hhost
      cases addresses with
      | nil => cases hhost
      | cons first rest => exact ⟨first :: rest, rfl, nofun, judge_acceptable hhost⟩

/-! ### The host of a URL -/

/-- What `parse_url` of the transport finds in a URL. -/
structure ParsedUrl where
  scheme : Option String
  host : Option String
  port : Option Nat
  deriving DecidableEq

/-- The parsers: `urlparse(url).scheme` and `urljoin`, `none` for a ValueError, `parse_url`,
`none` for a LocationParseError, and `str.lower`. -/
structure UrlParsers where
  scheme : String → Option String
  join : String → String → Option String
  parseUrl : String → Option ParsedUrl
  lower : String → String

/-- `_authority`. -/
def authority (url : String) : List Char :=
  let rest := match Markers.breakOn "://".toList url.toList with
    | some (_, after) => after
    | none => url.toList
  ((rest.takeWhile (· ≠ '/')).takeWhile (· ≠ '?')).takeWhile (· ≠ '#')

def unbracketed (host : String) : String :=
  match host.toList with
  | '[' :: rest => if rest.getLast? = some ']' then String.ofList rest.dropLast else host
  | _ => host

/-- `_transport_host`; an empty answer is as good as none to its callers. -/
def transportHost (parsers : UrlParsers) (url : String) : Option String :=
  if '\\' ∈ authority url then none
  else
    match parsers.parseUrl url with
    | none => none
    | some parts =>
      match parts.host with
      | none | some "" => none
      | some host =>
        let hostname := parsers.lower (unbracketed host)
        if hostname = "" then none else some hostname

/-- `_origin`. -/
def origin (parsers : UrlParsers) (url : String) :
    Option (Option String × String × Option Nat) :=
  (parsers.parseUrl url).map fun parts =>
    (parts.scheme, parsers.lower (parts.host.getD ""), parts.port)

end DjangoMojo.Fetch

/-! ## One outbound fetch

`safe_fetch` with its hop loop. The resolver and the transport are given by
their answers, which may differ from hop to hop; a run yields what the call
returns, or that it raises, and the judgements and requests that it made.
-/

namespace DjangoMojo.Fetch

open Foundation

abbrev Headers := List (String × String)

/-- The families of exceptions of `requests` that the code tells apart. -/
inductive Failure where
  | connection | timeout | request
  deriving DecidableEq

/-- An exception of `requests`, or another one. -/
inductive Raised where
  | requests (failure : Failure)
  | other
  deriving DecidableEq

/-- A response: `location` is its header, `body` what `iter_content` yields chunk by chunk,
`closes` the exception of `close`, and `text` its decoding of the content that is set. -/
structure Response where
  isRedirect : Bool
  location : Option String
  closes : Option Failure
  statusCode : Int
  headers : Headers
  body : List (Except Failure (List UInt8))
  text : List UInt8 → Except Raised String

structure Net where
  resolve : Nat → String → Option (List Answer)
  get : Nat → String → Headers → Except Failure Response

structure FetchResult where
  url : String
  statusCode : Int
  headers : Headers
  content : List UInt8
  text : String
  truncated : Bool
  deriving DecidableEq

inductive Outcome where
  | returned (result : Option FetchResult) (error : Option String)
  | raised
  deriving DecidableEq

namespace Outcome

def ok (result : FetchResult) : Outcome := .returned (some result) none

def failed (error : String) : Outcome := .returned none (some error)

end Outcome

inductive Event where
  | judged (hostname : String) (evidence : Evidence)
  | requested (url : String) (headers : Headers)
  deriving DecidableEq

inductive Schemes where
  | bare (scheme : String)
  | many (schemes : List String)

def Schemes.toList : Schemes → List String
  | .bare scheme => [scheme]
  | .many schemes => schemes

/-- The arguments of a call; `timeout` is its text. -/
structure Call where
  url : String
  timeout : String := "10"
  maxBytes : Nat := 1048576
  maxRedirects : Nat := 3
  headers : Headers := []
  allowHosts : List String := []
  schemes : Schemes := .many ["http", "https"]

def credentialHeaders : List String := ["authorization", "cookie", "proxy-authorization"]

/-- `headers[name] = value`. -/
def setHeader (headers : Headers) (name value : String) : Headers :=
  if headers.any (·.1 = name) then
    headers.map fun entry => if entry.1 = name then (name, value) else entry
  else headers ++ [(name, value)]

namespace Call

variable (parsers : UrlParsers) (net : Net) (call : Call)

def allowedHosts : List String := call.allowHosts.map parsers.lower

def sendHeaders : Headers :=
  call.headers.foldl (fun headers entry => setHeader headers entry.1 entry.2)
    [("User-Agent", "django-mojo/1.0")]

def isCredential (name : String) : Bool := parsers.lower name ∈ credentialHeaders

/-- The headers of the hop to `target`. -/
def hopHeaders (current target : String) (headers : Headers) : Headers :=
  if origin parsers target ≠ origin parsers current then
    headers.filter fun entry => !isCredential parsers entry.1
  else headers

/-- The handlers of the exceptions of `requests`. -/
def failureText (hostname : String) : Failure → String
  | .connection => "Could not connect to " ++ hostname
  | .timeout => "Request timed out after " ++ call.timeout ++ "s"
  | .request => "Request failed"

/-- The loop over `iter_content`. -/
def readBody (raw : List UInt8) : List (Except Failure (List UInt8)) → Except Failure (List UInt8)
  | [] => .ok raw
  | .error failure :: _ => .error failure
  | .ok chunk :: rest =>
    if call.maxBytes < (raw ++ chunk).length then .ok (raw ++ chunk)
    else readBody (raw ++ chunk) rest

def readResponse (hostname url : String) (resp : Response) : Outcome :=
  match call.readBody [] resp.body with
  | .error failure => .failed (call.failureText hostname failure)
  | .ok raw =>
    match resp.closes with
    | some failure => .failed (call.failureText hostname failure)
    | none =>
      match resp.text (raw.take call.maxBytes) with
      | .error (.requests failure) => .failed (call.failureText hostname failure)
      | .error .other => .raised
      | .ok text => .ok
          { url, statusCode := resp.statusCode, headers := resp.headers,
            content := raw.take call.maxBytes, text,
            truncated := decide (call.maxBytes < raw.length) }

/-- `resp.is_redirect and "location" in resp.headers`. -/
def redirect (resp : Response) : Option String :=
  if resp.isRedirect then resp.location else none

/-- The check of a redirect: its target or the error, and the judgement if there was one. -/
def checkHop (hop : Nat) (current location : String) : Except String String × List Event :=
  match parsers.join current location with
  | none => (.error "Redirect target is not a valid URL", [])
  | some target =>
    match parsers.scheme target with
    | none => (.error "Redirect target is not a valid URL", [])
    | some hopScheme =>
      match transportHost parsers target with
      | none => (.error "Redirect target is not a valid URL", [])
      | some hopHostname =>
        if hopScheme ∉ call.schemes.toList then
          (.error ("Redirect to unsupported scheme '" ++ hopScheme ++ "'"), [])
        else
          let judged := [Event.judged hopHostname (evidence (net.resolve hop) hopHostname)]
          match safeVerdict (net.resolve hop) hopHostname with
          | .isPrivate =>
            (.error "Redirect target is a private or internal address", judged)
          | .unresolvable => (.error ("Could not connect to " ++ hopHostname), judged)
          | .acceptable => (.ok target, judged)

/-- The loop over the hops, with the number of requests that are left. -/
def hops (hostname : String) : Nat → Nat → String → Headers → Outcome × List Event
  | 0, _, _, _ =>
    (.failed ("Too many redirects (max " ++ toString call.maxRedirects ++ ")"), [])
  | left + 1, hop, url, headers =>
    let sent := Event.requested url headers
    match net.get hop url headers with
    | .error failure => (.failed (call.failureText hostname failure), [sent])
    | .ok resp =>
      match redirect resp with
      | none => (call.readResponse hostname url resp, [sent])
      | some location =>
        match resp.closes with
        | some failure => (.failed (call.failureText hostname failure), [sent])
        | none =>
          match checkHop parsers net call (hop + 1) url location with
          | (.error error, judged) => (.failed error, sent :: judged)
          | (.ok target, judged) =>
            let rest := hops hostname left (hop + 1) target
              (hopHeaders parsers url target headers)
            (rest.1, sent :: judged ++ rest.2)

/-- `safe_fetch`: what it returns and what it did. -/
def safeFetch : Outcome × List Event :=
  match parsers.scheme call.url with
  | none => (.failed "Invalid URL — no hostname found", [])
  | some scheme =>
    if scheme ∉ call.schemes.toList then
      (.failed ("Unsupported scheme '" ++ scheme ++ "'. Only " ++
        String.intercalate " and " call.schemes.toList ++ " are allowed."), [])
    else
      match transportHost parsers call.url with
      | none => (.failed "Invalid URL — no hostname found", [])
      | some hostname =>
        let run := hops parsers net call hostname (call.maxRedirects + 1) 0 call.url
          call.sendHeaders
        if hostname ∈ call.allowedHosts parsers then run
        else
          let judged := [Event.judged hostname (evidence (net.resolve 0) hostname)]
          match safeVerdict (net.resolve 0) hostname with
          | .isPrivate => (.failed "Cannot fetch private or internal addresses", judged)
          | .unresolvable => (.failed ("Could not connect to " ++ hostname), judged)
          | .acceptable => (run.1, judged ++ run.2)

end Call

end DjangoMojo.Fetch
