import DjangoMojo.Edge.Rows
import DjangoMojo.Foundation.IpNetworks
import Mathlib.Data.List.Sort

/-! # Validators of the edge

Each value that can reach a generated file is matched against a whitelist, and the
rows are checked as a whole when they are saved. The renderer runs the same checks
on the values it writes.
-/

namespace DjangoMojo.Edge

open Foundation

/-! ### Whitelists -/

def isLower (char : Char) : Bool := 'a' ≤ char ∧ char ≤ 'z'
def isUpper (char : Char) : Bool := 'A' ≤ char ∧ char ≤ 'Z'
def isDigit (char : Char) : Bool := '0' ≤ char ∧ char ≤ '9'
def isLowerAlnum (char : Char) : Bool := isLower char || isDigit char
def isAlnum (char : Char) : Bool := isLowerAlnum char || isUpper char

/-- `^edge(inner{0,n}edge)?\Z` for a text of at most `most` characters. -/
def bounded (edge inner : Char → Bool) (most : Nat) (text : List Char) : Bool :=
  text.length ≤ most && text.all inner && (text.head?.any edge) && (text.getLast?.any edge)

/-- `LABEL_RE`. -/
def labelRe (text : List Char) : Bool :=
  bounded isLowerAlnum (fun char => isLowerAlnum char || char = '-') 63 text

/-- `UPSTREAM_HOST_RE`. -/
def upstreamHostRe (text : List Char) : Bool :=
  bounded isLowerAlnum (fun char => isLowerAlnum char || char ∈ ['.', '-']) 253 text

/-- `NAME_RE`. -/
def nameRe (text : List Char) : Bool :=
  match text with
  | [] => false
  | first :: rest =>
    isLowerAlnum first && rest.length ≤ 63 &&
      rest.all fun char => isLowerAlnum char || char ∈ ['_', '-']

def isPathChar (char : Char) : Bool := isAlnum char || char ∈ ['.', '_', '/', '-']

/-- `QUIET_PATH_RE`. -/
def quietPathRe (text : List Char) : Bool :=
  match text with
  | '/' :: rest => rest.length ≤ 127 && rest.all isPathChar
  | _ => false

def isTlsChar (char : Char) : Bool := isAlnum char || char ∈ [' ', '.', ':', '+', '!', '_', '-']

/-- `TLS_VALUE_RE`. -/
def tlsValueRe (text : List Char) : Bool :=
  1 ≤ text.length && text.length ≤ 1024 && text.all isTlsChar

def isUaChar (char : Char) : Bool :=
  isAlnum char ||
    char ∈ ['(', ')', '[', ']', '|', '?', '^', '.', '*', '+', '\\', '/', '_', '-']

/-- `UA_PATTERN_RE`. -/
def uaPatternRe (text : List Char) : Bool :=
  1 ≤ text.length && text.length ≤ 256 && text.all isUaChar

/-! ### Server names -/

def validateLabel (label : String) : Checked String :=
  if label = "" || label = "*" || labelRe label.toList then .ok label
  else .error ⟨"label must be empty (apex), '*', or a single DNS label of letters, digits and " ++
    "hyphens", none⟩

def serverNameFor (domainName label : String) : Checked String :=
  if domainName = "" then .error ⟨"a vhost requires a domain", none⟩
  else if label = "" then .ok domainName
  else .ok (label ++ "." ++ domainName)

/-- A name without the `*.` of a wildcard. -/
def withoutWildcard : List Char → List Char
  | '*' :: '.' :: rest => rest
  | text => text

def validateServerName (serverName : String) : Checked String := do
  check (serverName ≠ "") ⟨"a vhost requires a server name", none⟩
  check (serverName.length ≤ 253) ⟨"server name is too long", none⟩
  let parts := (withoutWildcard serverName.toList).splitOn '.'
  check (2 ≤ parts.length) ⟨serverName ++ " is not a fully qualified domain name", none⟩
  check (parts.all labelRe) ⟨serverName ++ " is not a valid server name", none⟩
  return serverName

/-! ### Upstreams -/

/-- `is_link_local` of an IPv4 address. -/
def isLinkLocal (address : Nat) : Bool := address / 65536 = 169 * 256 + 254

/-- A host that matches the whitelist has no colon, so it is no IPv6 address. -/
def validateUpstreamHost (host : String) : Checked String := do
  check (upstreamHostRe host.toList) ⟨"upstream host must be a hostname or IPv4 address " ++
    "(letters, digits, dots and hyphens only)", none⟩
  check (!(IpNetwork.parseV4 host.toList).any isLinkLocal)
    ⟨"link-local addresses cannot be an upstream", none⟩
  return host

def validateUpstreamPort (port : Option Int) : Checked Int := do
  match port with
  | none => .error ⟨"upstream port must be an integer", none⟩
  | some number =>
    check (1 ≤ number ∧ number ≤ 65535) ⟨"upstream port must be between 1 and 65535", none⟩
    return number

def pathNames (path : String) : List (List Char) :=
  (path.toList.splitOn '/').filter fun name => name ≠ [] ∧ name ≠ ['.']

def commonNames : List (List Char) → List (List Char) → List (List Char)
  | first :: rest, second :: others =>
    if first = second then first :: commonNames rest others else []
  | _, _ => []

/-- `os.path.commonpath` of two absolute paths. -/
def commonPath (first second : String) : String :=
  String.ofList ('/' :: List.intercalate ['/'] (commonNames (pathNames first) (pathNames second)))

def containedUnder (settings : Settings) (base candidate : String) : Bool :=
  commonPath (settings.realpath base) (settings.realpath candidate) = settings.realpath base

def validateSocketPath (settings : Settings) (path : String) : Checked String := do
  check (path ≠ "") ⟨"a unix upstream requires a socket path", none⟩
  check (path.toList.all fun char => char ∉ ['\n', '\r', ';', '\x00'])
    ⟨"socket path contains an illegal character", none⟩
  check (containedUnder settings settings.socketBase path)
    ⟨"socket path must resolve under " ++ settings.socketBase, none⟩
  return path

/-! ### JSON columns -/

/-- The items of a value in a `for` loop. -/
def iterated : Json → Checked (List Json)
  | .arr items => .ok items
  | .obj fields => .ok (fields.map fun field => .str field.1)
  | .str value => .ok (value.toList.map fun char => .str (String.singleton char))
  | _ => .error ⟨"object is not iterable", none⟩

/-- The items of `value or []`. -/
def iteratedOrEmpty (value : Json) : Checked (List Json) :=
  if value.truthy then iterated value else .ok []

/-! ### Certificates -/

def certificateCovers (settings : Settings) (certificate : Certificate) (serverName : String) :
    Checked Bool := do
  let sans ← iteratedOrEmpty certificate.sans
  let names := (if certificate.commonName ≠ "" then [certificate.commonName] else []) ++
    sans.filterMap fun
      | .str san => some san
      | _ => none
  let target := (settings.lower serverName).toList
  return names.any fun name =>
    let candidate := (settings.lower name).toList
    candidate = target ||
      match candidate with
      | '*' :: '.' :: rest =>
        let suffix := '.' :: rest
        let remainder := target.take (target.length - suffix.length)
        suffix.isSuffixOf target && remainder ≠ [] && '.' ∉ remainder
      | _ => false

def validateCertificateCovers (settings : Settings) (certificate : Certificate) (domain : Nat)
    (serverName : String) : Checked Unit := do
  check (certificate.domain = domain)
    ⟨"the certificate must belong to this vhost's domain", none⟩
  let covers ← certificateCovers settings certificate serverName
  check covers
    ⟨"certificate " ++ certificate.commonName ++ " does not cover " ++ serverName, none⟩

/-! ### The security policy -/

inductive Family where
  | adminTools | phpRuntime | secretFiles | wordpress
  deriving DecidableEq, Repr

def Family.text : Family → String
  | .adminTools => "admin_tools"
  | .phpRuntime => "php_runtime"
  | .secretFiles => "secret_files"
  | .wordpress => "wordpress"

/-- `MOJOSEC_IMPOSSIBLE_PATH_FAMILIES`, in alphabetical order. -/
def Family.all : List Family := [.adminTools, .phpRuntime, .secretFiles, .wordpress]

inductive ResponseClass where
  | reverseProxy | spaFallback | staticSite | siteApi | redirect
  deriving DecidableEq, Repr

def ResponseClass.text : ResponseClass → String
  | .reverseProxy => "reverse_proxy"
  | .spaFallback => "spa_fallback"
  | .staticSite => "static_site"
  | .siteApi => "site_api"
  | .redirect => "redirect"

/-- `MOJOSEC_RESPONSE_CLASSES`. -/
def ResponseClass.all : List ResponseClass :=
  [.reverseProxy, .spaFallback, .staticSite, .siteApi, .redirect]

structure Policy where
  version : Int
  families : List Family
  responseClass : ResponseClass

def policyKeys : List String := ["version", "impossible_path_families", "response_class"]

def Policy.toJson (policy : Policy) : Json :=
  .obj [("version", .int policy.version),
    ("impossible_path_families", .arr (policy.families.map fun family => .str family.text)),
    ("response_class", .str policy.responseClass.text)]

def familyOf (value : Json) : Option Family := Family.all.find? fun family => value.isText family.text

def responseClassOf (value : Json) : Option ResponseClass :=
  ResponseClass.all.find? fun responseClass => value.isText responseClass.text

def familiesOf (value : Option Json) : Option (List Family) :=
  match value with
  | some (.arr items) =>
    (items.mapM familyOf).bind fun families =>
      if families.length ≤ 4 ∧ families.Nodup then
        some (Family.all.filter fun family => family ∈ families)
      else none
  | _ => none

/-- `none` for the empty policy. -/
def validateMojosecPolicy (value : Json) : Checked (Option Policy) := do
  match value with
  | .null | .obj [] => return none
  | .obj fields =>
    check (fields.all (fun field => field.1 ∈ policyKeys) &&
        policyKeys.all fun key => (JsonFields.field fields key).isSome)
      ⟨"mojosec_policy requires version, impossible_path_families, and response_class only",
        none⟩
    match JsonFields.field fields "version" with
    | some (.int version) =>
      check (1 ≤ version ∧ version ≤ 65535) ⟨"mojosec_policy version must be 1-65535", none⟩
      match familiesOf (JsonFields.field fields "impossible_path_families") with
      | none =>
        .error ⟨"mojosec_policy impossible_path_families contains an unknown or duplicate " ++
          "family", none⟩
      | some families =>
        match (JsonFields.field fields "response_class").bind responseClassOf with
        | none => .error ⟨"mojosec_policy response_class is not registered", none⟩
        | some responseClass => return some ⟨version, families, responseClass⟩
    | _ => .error ⟨"mojosec_policy version must be 1-65535", none⟩
  | _ => .error ⟨"mojosec_policy must be an object", none⟩

/-! ### Paths -/

def hasDoubleSlash : List Char → Bool
  | '/' :: '/' :: _ => true
  | _ :: rest => hasDoubleSlash rest
  | [] => false

/-- `_validate_request_path`. -/
def validateRequestPath (path : Json) (what : String) : Checked String := do
  match path with
  | .str text =>
    check (quietPathRe text.toList) ⟨what ++ " must start with '/' and use only letters, " ++
      "digits, '.', '_', '-' and '/' (max 128 characters)", none⟩
    check (!hasDoubleSlash text.toList) ⟨what ++ " may not contain '//'", none⟩
    check ((text.toList.splitOn '/').all fun part => part ≠ ['.', '.'])
      ⟨what ++ " may not contain a '..' segment", none⟩
    return text
  | _ => .error ⟨what ++ " must start with '/' and use only letters, digits, '.', '_', '-' " ++
      "and '/' (max 128 characters)", none⟩

def validateQuietPath (path : Json) : Checked String := validateRequestPath path "a quiet path"

def validateRoutePrefix (pathPrefix : String) : Checked String := do
  let path ← validateRequestPath (.str pathPrefix) "a route prefix"
  check (path ≠ "/")
    ⟨"a route prefix cannot be '/' — use kind=api for a whole-host proxy", none⟩
  return path

def validateRedirectTarget (target : Option String) : Checked String := do
  match target with
  | none => .error ⟨"a redirect vhost requires redirect_to", none⟩
  | some host =>
    check (host ≠ "") ⟨"a redirect vhost requires redirect_to", none⟩
    check (!"*.".toList.isPrefixOf host.toList) ⟨"a redirect target cannot be a wildcard", none⟩
    validateServerName host

/-! ### Whole rows -/

def validateBodySizeMb (value : Int) : Checked Int := do
  check (1 ≤ value ∧ value ≤ 4096) ⟨"body_size_mb must be between 1 and 4096", none⟩
  return value

def validatePool (settings : Settings) (pool : String) : Checked String := do
  check (nameRe pool.toList) ⟨"pool must be lowercase letters, digits, '-' or '_'", none⟩
  check (pool ∈ settings.declaredPools) ⟨pool ++ " is not a declared pool (" ++ String.intercalate
    ", " (settings.declaredPools.insertionSort (· ≤ ·)) ++ ")", none⟩
  return pool

def validateRoute (vhost : Vhost) (route : Route) : Checked Unit := do
  let _ ← validateRoutePrefix route.pathPrefix
  check (vhost.kind = .siteApi)
    ⟨"routes belong to site_api vhosts, not " ++ vhost.kind.text, none⟩
  check (route.upstream.group = none || route.upstream.group = vhost.domain.group)
    ⟨"the upstream must be a shared one or belong to this vhost's group", none⟩

/-- `_group_at_or_below`: the group of the app or one of the eight above it. -/
def groupAtOrBelow (groups : List Nat) (owner : Option Nat) : Bool :=
  owner.any fun group => group ∈ groups.take 9

def validateVhostAlias (vhost : Vhost) : Checked Unit := do
  match vhost.aliasOf with
  | none => return ()
  | some webApp =>
    check (vhost.kind = .site || vhost.kind = .siteApi)
      ⟨"a WebApp alias address must be a site or site_api vhost, not " ++ vhost.kind.text, none⟩
    check (vhost.pk = 0 || vhost.webApp.isNone)
      ⟨"a vhost cannot be both a WebApp's primary address and an alias", none⟩
    check (groupAtOrBelow webApp.groups vhost.domain.group)
      ⟨"an alias address must use a domain owned by this web app's group or a parent of it", none⟩
    match webApp.primary with
    | none => return ()
    | some (pk, pool) =>
      check (pk = vhost.pk || pool = vhost.pool)
        ⟨"an alias address must serve from the app's own pool (" ++ pool ++ ")", none⟩

def expectedClass (vhost : Vhost) : Option ResponseClass :=
  match vhost.kind with
  | .api => some .reverseProxy
  | .site => some (if vhost.spa then .spaFallback else .staticSite)
  | .siteApi => some .siteApi
  | .redirect => some .redirect
  | .other _ => none

def validateKindMatrix (vhost : Vhost) : Checked Unit := do
  if vhost.kind = .api then
    check vhost.upstream.isSome ⟨"an api vhost requires an upstream", none⟩
  else
    check vhost.upstream.isNone ⟨"a " ++ vhost.kind.text ++ " vhost has no whole-host upstream " ++
      "(site_api proxies per-route)", none⟩
  if vhost.kind = .redirect then
    let _ ← validateRedirectTarget vhost.redirectTo
  else
    check (vhost.redirectTo.all fun target => target = "")
      ⟨"a " ++ vhost.kind.text ++ " vhost has no redirect target", none⟩
  check (!vhost.spa || vhost.kind = .site || vhost.kind = .siteApi)
    ⟨"spa applies to site and site_api vhosts, not " ++ vhost.kind.text, none⟩
  check (!vhost.serveStatic || vhost.kind = .api || vhost.kind = .siteApi)
    ⟨"serve_static applies to api and site_api vhosts, not " ++ vhost.kind.text, none⟩

/-- The quiet paths of a vhost, each validated and no two the same. -/
def validateQuietPaths (vhost : Vhost) : Checked (List String) := do
  match vhost.quietPaths.truthy, vhost.quietPaths with
  | false, _ => return []
  | true, .arr items =>
    check (items.isEmpty || vhost.kind = .api || vhost.kind = .siteApi)
      ⟨"quiet_paths applies to api and site_api vhosts, not " ++ vhost.kind.text, none⟩
    let paths ← items.mapM validateQuietPath
    check (decide paths.Nodup) ⟨"quiet_paths contains a duplicate", none⟩
    return paths
  | true, _ => .error ⟨"quiet_paths must be a list of paths", none⟩

/-- Quiet paths of a `site_api` are under a route; other kinds have no routes. -/
def validateCoverage (vhost : Vhost) (paths : List String) : Checked Unit := do
  if vhost.kind = .siteApi then
    let prefixes := if vhost.pk = 0 then [] else vhost.routes.map Route.pathPrefix
    let declared := if prefixes.isEmpty then "none declared" else
      String.intercalate ", " (prefixes.insertionSort (· ≤ ·))
    paths.forM fun path =>
      check (prefixes.any fun pathPrefix => pathPrefix.toList.isPrefixOf path.toList)
        ⟨"quiet path " ++ path ++ " is not under any route prefix (" ++ declared ++ ")", none⟩
  else
    check (vhost.pk = 0 || vhost.routes.isEmpty) ⟨"a " ++ vhost.kind.text ++
      " vhost cannot carry routes — delete them before changing kind", none⟩

def validateVhost (settings : Settings) (vhost : Vhost) : Checked Vhost := do
  let _ ← validateLabel vhost.label
  let _ ← validatePool settings vhost.pool
  let _ ← validateBodySizeMb vhost.bodySizeMb
  let policy ← validateMojosecPolicy vhost.mojosecPolicy
  match expectedClass vhost with
  | none => .error ⟨"unknown vhost kind", some (.str vhost.kind.text)⟩
  | some expected =>
    check (policy.all fun found => found.responseClass = expected)
      ⟨"mojosec_policy response_class for " ++ vhost.kind.text ++ " must be " ++ expected.text,
        none⟩
    validateKindMatrix vhost
    let paths ← validateQuietPaths vhost
    validateCoverage vhost paths
    validateVhostAlias vhost
    let serverName ← serverNameFor vhost.domain.name vhost.label
    let _ ← validateServerName serverName
    if vhost.isEnabled then
      validateCertificateCovers settings vhost.certificate vhost.domain.pk serverName
    return { vhost with mojosecPolicy := policy.elim (.obj []) Policy.toJson }

end DjangoMojo.Edge
