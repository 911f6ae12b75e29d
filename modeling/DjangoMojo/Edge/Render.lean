import DjangoMojo.Edge.Validators

/-! # The renderer of virtual hosts

Each builder returns the lines of a block, or refuses a value that does not match
its whitelist. The text of a file is its lines, joined.
-/

namespace DjangoMojo.Edge

open Foundation

variable (settings : Settings) (knobs : Knobs)

/-- `MOJOSEC_RECEIVER_PATH`. -/
def receiverPath : String := "/api/incident/mojosec/batch"

/-- `MOJOSEC_BODY_LIMIT`. -/
def receiverBodyLimit : String := "512k"

/-! ### Paths -/

def generationDir (generation : Nginx.Word) : String :=
  settings.edgeRoot.text ++ "/generations/" ++ generation.text

def certDir (generation : Nginx.Word) (certificate : Nat) : String :=
  generationDir settings generation ++ "/certs/" ++ toString certificate

def wwwDir (generation : Nginx.Word) (vhost : Nat) : String :=
  generationDir settings generation ++ "/www/" ++ toString vhost

/-! ### Checked values -/

/-- `_safe`. -/
def safe (value : Json) (pattern : List Char → Bool) (what : String) : Checked String :=
  match value with
  | .str text =>
    if pattern text.toList then .ok text
    else .error ⟨"edge renderer refused an unsafe " ++ what, some value⟩
  | _ => .error ⟨"edge renderer refused an unsafe " ++ what, some value⟩

/-- `_safe_server_name`. -/
def safeServerName (serverName : String) : Checked String := do
  let _ ← ((withoutWildcard serverName.toList).splitOn '.').mapM fun part =>
    safe (.str (String.ofList part)) labelRe "server name label"
  return serverName

/-- `_safe_upstream_target`. -/
def safeUpstreamTarget (upstream : Upstream) : Checked String := do
  match upstream.kind with
  | .unix =>
    let path ← validateSocketPath settings (upstream.socketPath.getD "")
    return "unix:" ++ path
  | _ =>
    let host ← validateUpstreamHost (upstream.host.getD "")
    let port ← validateUpstreamPort upstream.port
    return host ++ ":" ++ toString port

/-! ### Blocks -/

/-- `_tls_block`. -/
def tlsBlock (generation : Nginx.Word) (certificate : Nat) : Checked (List String) := do
  let certs := certDir settings generation certificate
  let protocols ← safe knobs.tlsProtocols tlsValueRe "TLS protocols"
  let ciphers ← safe knobs.tlsCiphers tlsValueRe "TLS ciphers"
  return [
    "    ssl_certificate     " ++ (certs ++ "/fullchain.pem") ++ ";",
    "    ssl_certificate_key " ++ (certs ++ "/privkey.pem") ++ ";",
    "    ssl_protocols " ++ protocols ++ ";",
    "    ssl_ciphers " ++ ciphers ++ ";",
    "    ssl_prefer_server_ciphers off;",
    "    ssl_session_timeout 1d;",
    "    ssl_session_cache shared:EdgeSSL:10m;",
    "    ssl_stapling on;",
    "    ssl_stapling_verify on;"]

/-- `_header_block`. -/
def headerBlock (indent : String) : List String :=
  [indent ++ "add_header X-Content-Type-Options nosniff always;",
    indent ++ "add_header X-Frame-Options DENY always;",
    indent ++ "add_header Referrer-Policy strict-origin-when-cross-origin always;",
    indent ++ "add_header Strict-Transport-Security " ++
      "\"max-age=31536000; includeSubDomains\" always;",
    indent ++ "add_header Permissions-Policy " ++
      "\"camera=(), microphone=(), geolocation=()\" always;"]

/-- `_open`. -/
def openServer (serverName : String) : List String :=
  ["server \x7b",
    "    listen 443 ssl;",
    "    listen [::]:443 ssl;",
    "    http2 on;",
    "    server_name " ++ serverName ++ ";"]

/-- `_safe_body_size`. -/
def safeBodySize (vhost : Vhost) : Checked (List String) := do
  let size ← validateBodySizeMb vhost.bodySizeMb
  return ["    client_max_body_size " ++ (toString size ++ "m") ++ ";"]

/-- `_blocklist_guards`. -/
def blocklistGuards : List String :=
  ["    if ($edge_block_ip) \x7b return 444; \x7d",
    "    if ($edge_block_ua) \x7b return 444; \x7d"]

/-- `_IMPOSSIBLE_PATHS`. -/
def impossiblePath : Family → String
  | .adminTools => "/(?:phpmyadmin|server-status|solr|jenkins)(?:/|$)"
  | .phpRuntime => "/.*\\\\.(?:php[3-8]?|phtml)(?:/|$)"
  | .secretFiles => "/(?:\\\\.env(?:\\\\.|$)|\\\\.git(?:/|$))"
  | .wordpress => "/(?:wp-admin|wp-login\\\\.php|wp-content|xmlrpc\\\\.php)(?:/|$)"

def impossiblePathLines (family : Family) : List String :=
  ["    # MojoSec impossible-path family: " ++ family.text,
    "    if ($uri ~* \"^" ++ impossiblePath family ++ "\") \x7b return 404; \x7d",
    ""]

/-- `_impossible_path_locations`. -/
def impossiblePathLocations (vhost : Vhost) : Checked (List String) := do
  match ← validateMojosecPolicy vhost.mojosecPolicy with
  | none => return []
  | some policy => return policy.families.flatMap impossiblePathLines

/-- `_port80_block`. -/
def port80Block (serverName : String) (webroot : Nginx.Word) : List String :=
  ["server \x7b",
    "    listen 80;",
    "    listen [::]:80;",
    "    server_name " ++ serverName ++ ";",
    "",
    "    location /.well-known/acme-challenge/ \x7b",
    "        root " ++ webroot.text ++ ";",
    "    \x7d",
    "",
    "    location / \x7b",
    "        return 301 https://$host$request_uri;",
    "    \x7d",
    "\x7d",
    ""]

/-- `_proxy_destination`. A row without an upstream has no kind to ask for. -/
def proxyDestination (upstream : Option Upstream) : Checked String := do
  match upstream with
  | none => .error ⟨"'NoneType' object has no attribute 'kind'", none⟩
  | some row =>
    let _ ← safeUpstreamTarget settings row
    return "http://edge_up_" ++ toString row.pk

/-- `_proxy_location_body`. -/
def proxyLocationBody (upstream : Option Upstream) : Checked (List String) := do
  let destination ← proxyDestination settings upstream
  return [
    "        proxy_pass " ++ destination ++ ";",
    "        proxy_http_version 1.1;",
    "        proxy_set_header Host $host;",
    "        proxy_set_header X-Real-IP $remote_addr;",
    "        proxy_set_header X-Forwarded-For $proxy_add_x_forwarded_for;",
    "        proxy_set_header X-Forwarded-Proto $scheme;",
    "        proxy_set_header Upgrade $http_upgrade;",
    "        proxy_set_header Connection $connection_upgrade;",
    "        proxy_connect_timeout 10s;",
    "        proxy_send_timeout 120s;",
    "        proxy_read_timeout " ++ (toString knobs.proxyReadTimeout ++ "s") ++ ";",
    "        proxy_buffering off;",
    "        proxy_redirect off;",
    "        proxy_no_cache 1;",
    "        proxy_cache_bypass $http_pragma $http_authorization;"] ++
    headerBlock "        " ++ [
    "        add_header Cache-Control " ++
      "\"no-store, no-cache, must-revalidate, max-age=0\" always;",
    "        add_header Pragma \"no-cache\" always;",
    "        add_header Expires \"0\" always;"]

/-- `_quiet_location`. -/
def quietLocation (path : Json) (upstream : Option Upstream) : Checked (List String) := do
  let quiet ← validateQuietPath path
  let body ← proxyLocationBody settings knobs upstream
  return [
    "    location = " ++ quiet ++ " \x7b",
    "        access_log " ++ (knobs.logDir.text ++ "/edge_watch.log") ++
      " edge_watch if=$edge_watch;",
    "        log_not_found off;"] ++ body ++ ["    \x7d"]

/-- `_mojosec_receiver_location`. -/
def receiverLocation (upstream : Option Upstream) : Checked (List String) := do
  let body ← proxyLocationBody settings knobs upstream
  return [receiverPath, receiverPath ++ "/"].flatMap fun path =>
    ["    location = " ++ path ++ " \x7b",
      "        client_max_body_size " ++ receiverBodyLimit ++ ";"] ++ body ++ ["    \x7d"]

/-- `_asset_cache_location`. -/
def assetCacheLocation : List String :=
  ["    location ~* \\.(css|js|mjs|map|ico|svg|gif|png|jpe?g|webp|avif|woff2?|ttf|otf|eot)$ \x7b"] ++
    headerBlock "        " ++ [
    "        add_header Cache-Control \"public, max-age=31536000, immutable\" always;",
    "        try_files $uri =404;",
    "    \x7d"]

/-! ### The quiet paths -/

def jsonText : Json → Option String
  | .str text => some text
  | _ => none

/-- `sorted(vhost.quiet_paths or [])`. Items that are not all strings are left as they
are: no order of theirs changes what is rendered. -/
def sortedPaths (quietPaths : Json) : Checked (List Json) := do
  let items ← iteratedOrEmpty quietPaths
  return match items.mapM jsonText with
    | some paths => (paths.insertionSort (· ≤ ·)).map .str
    | none => items

def quietPathsToRender (vhost : Vhost) : Checked (List Json) := do
  let paths ← sortedPaths vhost.quietPaths
  return paths.filter fun path => !path.isText receiverPath

/-! ### The kinds -/

/-- The part of a server block that comes first for every kind. -/
def serverHead (vhost : Vhost) (generation : Nginx.Word) (serverName : String) :
    Checked (List String) := do
  let tls ← tlsBlock settings knobs generation vhost.certificate.pk
  let size ← safeBodySize vhost
  let impossible ← impossiblePathLocations vhost
  return openServer serverName ++ [""] ++ tls ++ [""] ++ headerBlock "    " ++ [""] ++ size ++
    [""] ++ blocklistGuards ++ [""] ++ impossible

def quietPart (path : Json) (upstream : Option Upstream) : Checked (List String) := do
  let location ← quietLocation settings knobs path upstream
  return location ++ [""]

/-- The receiver locations and the line after them, in observe mode. -/
def receiverPart (upstream : Option Upstream) : Checked (List String) :=
  if knobs.mojosecMode = .observe then do
    let location ← receiverLocation settings knobs upstream
    return location ++ [""]
  else .ok []

/-- The location of the static files, when the row asks for one. -/
def staticPart (vhost : Vhost) (path : String) : List String :=
  if vhost.serveStatic then
    ["    location " ++ path ++ " \x7b",
      "        alias " ++ (knobs.djangoStaticRoot.text ++ "/") ++ ";",
      "    \x7d",
      ""]
  else []

/-- `_render_api`. -/
def renderApi (vhost : Vhost) (generation : Nginx.Word) (serverName : String) :
    Checked (List String) := do
  let head ← serverHead settings knobs vhost generation serverName
  let paths ← quietPathsToRender vhost
  let quiet ← paths.mapM fun path => quietPart settings knobs path vhost.upstream
  let receiver ← receiverPart settings knobs vhost.upstream
  let body ← proxyLocationBody settings knobs vhost.upstream
  return head ++ quiet.flatten ++ receiver ++ staticPart knobs vhost "/static/" ++
    ["    location / \x7b"] ++ body ++ ["    \x7d", "\x7d", ""]

/-- `_site_body`. -/
def siteBody (vhost : Vhost) (generation : Nginx.Word) : List String :=
  ["    root " ++ wwwDir settings generation vhost.pk ++ ";",
    "    index index.html;",
    ""] ++
  (if vhost.spa then [] else ["    error_page 404 /404.html;", ""]) ++
  assetCacheLocation ++
  ["",
    "    location / \x7b",
    if vhost.spa then "        try_files $uri $uri/ /index.html;"
    else "        try_files $uri $uri/ =404;",
    "    \x7d"]

/-- `_render_site`. -/
def renderSite (vhost : Vhost) (generation : Nginx.Word) (serverName : String) :
    Checked (List String) := do
  let head ← serverHead settings knobs vhost generation serverName
  return head ++ siteBody settings vhost generation ++ ["\x7d", ""]

/-- `_sorted_routes`. -/
def sortedRoutes (vhost : Vhost) : List Route :=
  vhost.routes.insertionSort fun first second => first.pathPrefix ≤ second.pathPrefix

/-- The longest route that a path begins with; each prefix is validated on the way. -/
def longestRoute (path : List Char) (routes : List Route) : Checked (Option Route) :=
  routes.foldlM (fun found route => do
    let pathPrefix ← validateRoutePrefix route.pathPrefix
    if pathPrefix.toList.isPrefixOf path &&
        found.all fun other => other.pathPrefix.length < pathPrefix.length then
      return some route
    else return found) none

def coveringRoute (path : Json) (routes : List Route) : Checked (Option Route) :=
  match path with
  | .str text => longestRoute text.toList routes
  | _ => routes.foldlM (fun _ route => do
      let _ ← validateRoutePrefix route.pathPrefix
      .error ⟨"object has no attribute 'startswith'", none⟩) none

/-- `HONEYPOT_PATHS`. -/
def honeypotPaths : List String := ["/login", "/signin", "/signup"]

/-- `_bouncer_path` of the login path. -/
def bouncerLoginPath : Checked String :=
  let stated := if settings.bouncerLoginPath = "" then "auth" else settings.bouncerLoginPath
  let stripped := settings.tables.strip stated.toList
  let raw := ((stripped.dropWhile (· = '/')).reverse.dropWhile (· = '/')).reverse
  validateRoutePrefix ("/" ++ String.ofList raw)

/-- `owning_app`. -/
def owningApp (vhost : Vhost) : Option WebApp := vhost.webApp <|> vhost.aliasOf

/-- `rendered_contract`: the upstream of the honeypots. -/
def renderedContract (vhost : Vhost) (routes : List Route) : Checked (Option Upstream) := do
  if vhost.kind ≠ .siteApi then return none
  if (owningApp vhost).isNone then return none
  let loginPath ← bouncerLoginPath settings
  return (routes.find? fun route => route.pathPrefix = loginPath).map Route.upstream

/-- The quiet location of a path, at its route; a path that no route covers has none. -/
def routedQuietPart (routes : List Route) (path : Json) : Checked (List String) := do
  match ← coveringRoute path routes with
  | none => return []
  | some route => quietPart settings knobs path (some route.upstream)

def routedReceiverPart (routes : List Route) : Checked (List String) := do
  match ← longestRoute receiverPath.toList routes with
  | none => return []
  | some route => receiverPart settings knobs (some route.upstream)

def honeypotPart (upstream : Upstream) (path : String) : Checked (List String) := do
  let _ ← validateRoutePrefix path
  let body ← proxyLocationBody settings knobs (some upstream)
  return ["    location = " ++ path ++ " \x7b"] ++ body ++ ["    \x7d", ""]

def honeypotParts (contract : Option Upstream) : Checked (List (List String)) :=
  match contract with
  | none => .ok []
  | some upstream => honeypotPaths.mapM fun path => honeypotPart settings knobs upstream path

def routePart (route : Route) : Checked (List String) := do
  let pathPrefix ← validateRoutePrefix route.pathPrefix
  let body ← proxyLocationBody settings knobs (some route.upstream)
  return ["    location ^~ " ++ pathPrefix ++ " \x7b"] ++ body ++ ["    \x7d", ""]

/-- `_render_site_api`. -/
def renderSiteApi (vhost : Vhost) (generation : Nginx.Word) (serverName : String) :
    Checked (List String) := do
  let routes := sortedRoutes vhost
  let contract ← renderedContract settings vhost routes
  let head ← serverHead settings knobs vhost generation serverName
  let paths ← quietPathsToRender vhost
  let quiet ← paths.mapM fun path => routedQuietPart settings knobs routes path
  let receiver ← routedReceiverPart settings knobs routes
  let honeypots ← honeypotParts settings knobs contract
  let proxied ← routes.mapM fun route => routePart settings knobs route
  return head ++ quiet.flatten ++ receiver ++ staticPart knobs vhost "^~ /static/" ++
    honeypots.flatten ++ proxied.flatten ++ siteBody settings vhost generation ++ ["\x7d", ""]

/-- `_render_redirect`. -/
def renderRedirect (vhost : Vhost) (generation : Nginx.Word) (serverName : String) :
    Checked (List String) := do
  let target ← validateRedirectTarget vhost.redirectTo
  let _ ← safeServerName target
  let head ← serverHead settings knobs vhost generation serverName
  return head ++ ["    return 301 " ++ ("https://" ++ (target ++ "$request_uri")) ++ ";", "\x7d", ""]

/-- `Vhost.server_name`. -/
def Vhost.serverName (vhost : Vhost) : Checked String :=
  serverNameFor vhost.domain.name vhost.label

def Vhost.name (vhost : Vhost) : String :=
  match vhost.serverName with
  | .ok name => name
  | .error _ => ""

/-- `_BUILDERS`. -/
def renderKind (vhost : Vhost) (generation : Nginx.Word) (serverName : String) :
    Checked (List String) :=
  match vhost.kind with
  | .site => renderSite settings knobs vhost generation serverName
  | .api => renderApi settings knobs vhost generation serverName
  | .siteApi => renderSiteApi settings knobs vhost generation serverName
  | .redirect => renderRedirect settings knobs vhost generation serverName
  | .other kind => .error ⟨"edge renderer has no builder for", some (.str kind)⟩

/-- `render_vhost`: the lines of the file of a virtual host. -/
def renderVhost (vhost : Vhost) (generation : Nginx.Word) : Checked (List String) := do
  let name ← vhost.serverName
  let serverName ← safeServerName name
  let rendered ← renderKind settings knobs vhost generation serverName
  return if knobs.httpEnabled then rendered ++ port80Block serverName knobs.acmeWebroot
    else rendered

end DjangoMojo.Edge
