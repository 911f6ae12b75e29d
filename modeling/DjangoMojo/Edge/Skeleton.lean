import DjangoMojo.Edge.Generation
import DjangoMojo.Foundation.PlainText

/-! # What the files of a generation are meant to say

For each file the directives that the kinds of the rows call for, with every value of
a row in one argument. Nothing here looks at text.
-/

namespace DjangoMojo.Edge

open Foundation
open Nginx (Directive)

variable (settings : Settings) (knobs : Knobs)

/-- The words of a TLS value; a value of another type has none. -/
def tlsWords : Json → List String
  | .str text => (Nginx.spaceWords text.toList).map String.ofList
  | _ => []

def tlsArgument (value : Json) : String := String.intercalate " " (tlsWords value)

def found {Value : Type} : Checked (Option Value) → Option Value
  | .ok value => value
  | .error _ => none

/-! ### Virtual hosts -/

/-- The arguments of `ssl_ciphers` are given apart from the row. -/
def tlsTrees (ciphers : List String) (vhost : Vhost) (generation : Nginx.Word) :
    List Directive :=
  let certs := certDir settings generation vhost.certificate.pk
  [.simple ["ssl_certificate", certs ++ "/fullchain.pem"],
    .simple ["ssl_certificate_key", certs ++ "/privkey.pem"],
    .simple ("ssl_protocols" :: tlsWords knobs.tlsProtocols),
    .simple ("ssl_ciphers" :: ciphers),
    .simple ["ssl_prefer_server_ciphers", "off"],
    .simple ["ssl_session_timeout", "1d"],
    .simple ["ssl_session_cache", "shared:EdgeSSL:10m"],
    .simple ["ssl_stapling", "on"],
    .simple ["ssl_stapling_verify", "on"]]

def headerTrees : List Directive :=
  [.simple ["add_header", "X-Content-Type-Options", "nosniff", "always"],
    .simple ["add_header", "X-Frame-Options", "DENY", "always"],
    .simple ["add_header", "Referrer-Policy", "strict-origin-when-cross-origin", "always"],
    .simple ["add_header", "Strict-Transport-Security", "max-age=31536000; includeSubDomains",
      "always"],
    .simple ["add_header", "Permissions-Policy", "camera=(), microphone=(), geolocation=()",
      "always"]]

def guardTrees : List Directive :=
  [.block ["if", "($edge_block_ip)"] [.simple ["return", "444"]],
    .block ["if", "($edge_block_ua)"] [.simple ["return", "444"]]]

def impossibleTree (family : Family) : Directive :=
  .block ["if", "($uri", "~*", "^" ++ impossiblePath family, ")"] [.simple ["return", "404"]]

def impossibleTrees (vhost : Vhost) : List Directive :=
  match found (validateMojosecPolicy vhost.mojosecPolicy) with
  | none => []
  | some policy => policy.families.map impossibleTree

def headTrees (ciphers : List String) (vhost : Vhost) (generation : Nginx.Word)
    (serverName : String) : List Directive :=
  [.simple ["listen", "443", "ssl"],
    .simple ["listen", "[::]:443", "ssl"],
    .simple ["http2", "on"],
    .simple ["server_name", serverName]] ++
  tlsTrees settings knobs ciphers vhost generation ++ headerTrees ++
  [.simple ["client_max_body_size", toString vhost.bodySizeMb ++ "m"]] ++
  guardTrees ++ impossibleTrees vhost

def proxyTrees (upstream : Upstream) : List Directive :=
  [.simple ["proxy_pass", "http://edge_up_" ++ toString upstream.pk],
    .simple ["proxy_http_version", "1.1"],
    .simple ["proxy_set_header", "Host", "$host"],
    .simple ["proxy_set_header", "X-Real-IP", "$remote_addr"],
    .simple ["proxy_set_header", "X-Forwarded-For", "$proxy_add_x_forwarded_for"],
    .simple ["proxy_set_header", "X-Forwarded-Proto", "$scheme"],
    .simple ["proxy_set_header", "Upgrade", "$http_upgrade"],
    .simple ["proxy_set_header", "Connection", "$connection_upgrade"],
    .simple ["proxy_connect_timeout", "10s"],
    .simple ["proxy_send_timeout", "120s"],
    .simple ["proxy_read_timeout", toString knobs.proxyReadTimeout ++ "s"],
    .simple ["proxy_buffering", "off"],
    .simple ["proxy_redirect", "off"],
    .simple ["proxy_no_cache", "1"],
    .simple ["proxy_cache_bypass", "$http_pragma", "$http_authorization"]] ++
  headerTrees ++
  [.simple ["add_header", "Cache-Control", "no-store, no-cache, must-revalidate, max-age=0",
      "always"],
    .simple ["add_header", "Pragma", "no-cache", "always"],
    .simple ["add_header", "Expires", "0", "always"]]

def quietTree (upstream : Upstream) (path : String) : Directive :=
  .block ["location", "=", path]
    ([.simple ["access_log", knobs.logDir.text ++ "/edge_watch.log", "edge_watch",
        "if=$edge_watch"],
      .simple ["log_not_found", "off"]] ++ proxyTrees knobs upstream)

def receiverTrees (upstream : Upstream) : List Directive :=
  [receiverPath, receiverPath ++ "/"].map fun path =>
    .block ["location", "=", path]
      (.simple ["client_max_body_size", receiverBodyLimit] :: proxyTrees knobs upstream)

def staticTrees (modifier : List String) (vhost : Vhost) : List Directive :=
  if vhost.serveStatic then
    [.block (["location"] ++ modifier ++ ["/static/"])
      [.simple ["alias", knobs.djangoStaticRoot.text ++ "/"]]]
  else []

/-- The quiet paths of a row, sorted, without the path of the receiver. -/
def quietNames (vhost : Vhost) : List String :=
  match quietPathsToRender vhost with
  | .ok paths => paths.filterMap jsonText
  | .error _ => []

def apiTrees (vhost : Vhost) : List Directive :=
  match vhost.upstream with
  | none => []
  | some upstream =>
    (quietNames vhost).map (quietTree knobs upstream) ++
    (if knobs.mojosecMode = .observe then receiverTrees knobs upstream else []) ++
    staticTrees knobs [] vhost ++
    [.block ["location", "/"] (proxyTrees knobs upstream)]

def siteTrees (vhost : Vhost) (generation : Nginx.Word) : List Directive :=
  [.simple ["root", wwwDir settings generation vhost.pk],
    .simple ["index", "index.html"]] ++
  (if vhost.spa then [] else [.simple ["error_page", "404", "/404.html"]]) ++
  [.block ["location", "~*",
      "\\.(css|js|mjs|map|ico|svg|gif|png|jpe?g|webp|avif|woff2?|ttf|otf|eot)$"]
      (headerTrees ++
        [.simple ["add_header", "Cache-Control", "public, max-age=31536000, immutable", "always"],
          .simple ["try_files", "$uri", "=404"]]),
    .block ["location", "/"]
      [.simple ["try_files", "$uri", "$uri/", if vhost.spa then "/index.html" else "=404"]]]

def routedQuietTrees (routes : List Route) (path : String) : List Directive :=
  match found (longestRoute path.toList routes) with
  | none => []
  | some route => [quietTree knobs route.upstream path]

def routedReceiverTrees (routes : List Route) : List Directive :=
  match found (longestRoute receiverPath.toList routes) with
  | none => []
  | some route =>
    if knobs.mojosecMode = .observe then receiverTrees knobs route.upstream else []

def honeypotTrees (vhost : Vhost) (routes : List Route) : List Directive :=
  match found (renderedContract settings vhost routes) with
  | none => []
  | some upstream =>
    honeypotPaths.map fun path => .block ["location", "=", path] (proxyTrees knobs upstream)

def siteApiTrees (vhost : Vhost) (generation : Nginx.Word) : List Directive :=
  let routes := sortedRoutes vhost
  (quietNames vhost).flatMap (routedQuietTrees knobs routes) ++ routedReceiverTrees knobs routes ++
    staticTrees knobs ["^~"] vhost ++ honeypotTrees settings knobs vhost routes ++
    routes.map (fun route =>
      .block ["location", "^~", route.pathPrefix] (proxyTrees knobs route.upstream)) ++
    siteTrees settings vhost generation

def bodyTrees (vhost : Vhost) (generation : Nginx.Word) : List Directive :=
  match vhost.kind with
  | .site => siteTrees settings vhost generation
  | .api => apiTrees knobs vhost
  | .siteApi => siteApiTrees settings knobs vhost generation
  | .redirect =>
    [.simple ["return", "301", "https://" ++ (vhost.redirectTo.getD "" ++ "$request_uri")]]
  | .other _ => []

def port80Tree (serverName : String) : Directive :=
  .block ["server"]
    [.simple ["listen", "80"],
      .simple ["listen", "[::]:80"],
      .simple ["server_name", serverName],
      .block ["location", "/.well-known/acme-challenge/"] [.simple ["root", knobs.acmeWebroot.text]],
      .block ["location", "/"] [.simple ["return", "301", "https://$host$request_uri"]]]

def httpsTree (ciphers : List String) (vhost : Vhost) (generation : Nginx.Word) : Directive :=
  .block ["server"]
    (headTrees settings knobs ciphers vhost generation vhost.name ++
      bodyTrees settings knobs vhost generation)

def vhostTrees (ciphers : List String) (vhost : Vhost) (generation : Nginx.Word) :
    List Directive :=
  httpsTree settings knobs ciphers vhost generation ::
    if knobs.httpEnabled then [port80Tree knobs vhost.name] else []

/-! ### The upstreams -/

def targetText (upstream : Upstream) : String :=
  match upstream.kind with
  | .unix => "unix:" ++ upstream.socketPath.getD ""
  | _ => upstream.host.getD "" ++ ":" ++ toString (upstream.port.getD 0)

def upstreamTree (upstream : Upstream) : Directive :=
  .block ["upstream", "edge_up_" ++ toString upstream.pk]
    [.simple ["server", targetText upstream]]

def upstreamTrees (vhosts : List Vhost) : List Directive :=
  ((referencedUpstreams vhosts).insertionSort fun first second => first.pk ≤ second.pk).map
    upstreamTree

/-! ### The http base -/

def networkText (row : BlocklistEntry) : String :=
  match IpNetwork.parse row.value with
  | some network => network.text
  | none => ""

def geoTree (security : List BlocklistEntry) (name : String) (activeMode : BlocklistMode) :
    Directive :=
  .block ["geo", "$" ++ name]
    (.simple ["default", "0"] ::
      ((rowsOf security .ip .allow).map fun row => .simple [networkText row, "0"]) ++
      (rowsOf security .ip activeMode).map fun row => .simple [networkText row, toString row.id])

def uaTree (security : List BlocklistEntry) (name : String) (activeMode : BlocklistMode) :
    Directive :=
  .block ["map", "$http_user_agent", "$" ++ name]
    (.simple ["default", "0"] ::
      ((rowsOf security .ua .allow).map fun row => .simple ["~*" ++ row.value, "0"]) ++
      (rowsOf security .ua activeMode).map fun row => .simple ["~*" ++ row.value, toString row.id])

def blocklistTrees (security : List BlocklistEntry) : List Directive :=
  [geoTree security "edge_block_ip" .enforce,
    geoTree security "edge_watch_ip" .log,
    uaTree security "edge_block_ua" .enforce,
    uaTree security "edge_watch_ua" .log,
    .block ["map", "$edge_watch_ip:$edge_watch_ua", "$edge_watch"]
      [.simple ["default", "1"], .simple ["0:0", "0"]],
    .simple ["log_format", "edge_watch", "$remote_addr - [$time_local] ",
      "\"$request_method $scheme://$host$request_uri\" ",
      "$status ip=$edge_watch_ip ua=$edge_watch_ua ", "\"$http_user_agent\""],
    .simple ["access_log", knobs.logDir.text ++ "/edge_watch.log", "edge_watch",
      "if=$edge_watch"]]

def responseClassTrees (row : Evidence) : List Directive :=
  (row.policy.families.map fun family =>
    .simple ["~*^" ++ (mapPattern row.serverName ++ ":" ++ impossiblePath family),
      "impossible_path"]) ++
  [.simple ["~*^" ++ (mapPattern row.serverName ++ ":"), row.policy.responseClass.text]]

/-- The format of the security log: one JSON object, cut into pieces. -/
def mojosecLogTree : Directive :=
  .simple ["log_format", "mojosec_v1", "escape=json",
    "\x7b\"schema\":\"mojosec.nginx\",\"version\":1,",
    "\"time\":\"$time_iso8601\",\"method\":\"$request_method\",",
    "\"request_uri\":\"$request_uri\",\"status\":$status,",
    "\"request_id\":\"$request_id\",\"scheme\":\"$scheme\",",
    "\"protocol\":\"$server_protocol\",\"tls_protocol\":\"$ssl_protocol\",",
    "\"tls_cipher\":\"$ssl_cipher\",",
    "\"host\":\"$host\",\"referrer\":\"$http_referer\",",
    "\"user_agent\":\"$http_user_agent\",",
    "\"remote_port\":\"$remote_port\",\"peer_port\":\"$realip_remote_port\",",
    "\"server_port\":\"$server_port\",\"request_length\":\"$request_length\",",
    "\"response_bytes\":\"$bytes_sent\",",
    "\"response_body_bytes\":\"$body_bytes_sent\",",
    "\"request_time\":\"$request_time\",",
    "\"upstream_status\":\"$upstream_status\",",
    "\"upstream_connect_time\":\"$upstream_connect_time\",",
    "\"upstream_header_time\":\"$upstream_header_time\",",
    "\"upstream_response_time\":\"$upstream_response_time\",",
    "\"upstream_response_length\":\"$upstream_response_length\",",
    "\"upstream_bytes_received\":\"$upstream_bytes_received\",",
    "\"upstream_bytes_sent\":\"$upstream_bytes_sent\",",
    "\"remote_addr\":\"$remote_addr\",",
    "\"peer_addr\":\"$realip_remote_addr\",",
    "\"response_class\":\"$mojosec_response_class\",",
    "\"resource_id\":\"$mojosec_resource_id\",",
    "\"edge_policy_version\":\"$mojosec_policy_version\"\x7d"]

def evidenceOf (vhosts : List Vhost) : List Evidence :=
  match mojosecVhostEvidence vhosts with
  | .ok evidence => evidence.insertionSort fun first second => first.serverName ≤ second.serverName
  | .error _ => []

def mojosecTrees (vhosts : List Vhost) : List Directive :=
  let rows := evidenceOf vhosts
  (if knobs.trustedProxies.isEmpty then [] else
    knobs.trustedProxies.map (fun network => .simple ["set_real_ip_from", network.text]) ++
      [.simple ["real_ip_header", "X-Forwarded-For"], .simple ["real_ip_recursive", "on"]]) ++
  [.block ["map", "$server_name", "$mojosec_resource_id"]
      (.simple ["default", ""] ::
        rows.map fun row => .simple [row.serverName, row.resourceId]),
    .block ["map", "$server_name", "$mojosec_policy_version"]
      (.simple ["default", ""] ::
        rows.map fun row => .simple [row.serverName, toString row.policy.version]),
    .block ["map", "$server_name:$uri", "$mojosec_response_class"]
      (.simple ["default", ""] :: rows.flatMap responseClassTrees),
    mojosecLogTree,
    .simple ["access_log", "/var/log/nginx/mojosec.json.log", "mojosec_v1"]]

def defaultTrees : List Directive :=
  .block ["server"]
    [.simple ["listen", "443", "ssl", "default_server"],
      .simple ["listen", "[::]:443", "ssl", "default_server"],
      .simple ["ssl_reject_handshake", "on"]] ::
  if knobs.httpEnabled then
    [.block ["server"]
      [.simple ["listen", "80", "default_server"],
        .simple ["listen", "[::]:80", "default_server"],
        .simple ["return", "444"]]]
  else []

def baseTrees (security : List BlocklistEntry) (vhosts : List Vhost) (carryUpgradeMap : Bool) :
    List Directive :=
  [.simple ["include", knobs.mimeTypes.text],
    .simple ["log_format", "main", "$remote_addr - - [$time_local] ",
      "\"$request_method $scheme://$host$request_uri $server_protocol\" ",
      "$status $body_bytes_sent \"$http_referer\" ",
      "\"$http_user_agent\" $request_time $server_port"],
    .block ["map", "$http_user_agent", "$loggable"]
      [.simple ["~*ELB-HealthChecker", "0"], .simple ["default", "1"]],
    .simple ["access_log", knobs.logDir.text ++ "/access.log", "main", "if=$loggable"]] ++
  (if knobs.mojosecMode = .observe then mojosecTrees knobs vhosts else []) ++
  (if carryUpgradeMap then
    [.block ["map", "$http_upgrade", "$connection_upgrade"]
      [.simple ["default", "upgrade"], .simple ["", "close"]]]
  else []) ++
  [.simple ["sendfile", "on"],
    .simple ["keepalive_timeout", toString knobs.keepaliveTimeout],
    .simple ["server_tokens", "off"],
    .simple ["gzip", "on"],
    .simple ["gzip_vary", "on"],
    .simple ["gzip_comp_level", "5"],
    .simple ["gzip_min_length", "256"],
    .simple ["gzip_proxied", "any"],
    .simple ["gzip_types", "text/plain", "text/css", "application/json", "application/javascript",
      "text/xml", "application/xml", "image/svg+xml"]] ++
  blocklistTrees knobs security ++ (if knobs.defaultServer then defaultTrees knobs else [])

/-! ### All files -/

def skeleton (rows : List BlocklistEntry) (vhosts : List Vhost) (generation : Nginx.Word)
    (carryUpgradeMap : Bool) : Files (List Directive) :=
  [(baseName, baseTrees knobs (blocklistPayload rows) vhosts carryUpgradeMap),
    (upstreamsName, upstreamTrees vhosts)] ++
  vhosts.map fun vhost =>
    (vhost.confName, vhostTrees settings knobs [tlsArgument knobs.tlsCiphers] vhost generation)

end DjangoMojo.Edge
