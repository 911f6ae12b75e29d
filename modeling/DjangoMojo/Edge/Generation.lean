import DjangoMojo.Edge.Render
import DjangoMojo.Foundation.NginxDirectives

/-! # The files of a generation

Beside the files of the virtual hosts a generation has a file for the upstreams
that they reach and an http base: the logs, the blocklist maps and the default
servers.
-/

namespace DjangoMojo.Edge

open Foundation

variable (settings : Settings) (knobs : Knobs)

/-! ### The blocklist -/

/-- `blocklist_payload`, of the rows in the order of the query. -/
def blocklistPayload (rows : List BlocklistEntry) : List BlocklistEntry :=
  rows.filter fun row => row.mode ≠ .off

/-- `_safe_blocklist_ip`: the network that is rendered. -/
def safeBlocklistIp (value : String) : Checked IpNetwork :=
  match IpNetwork.parse value with
  | some network => .ok network
  | none => .error ⟨"edge renderer refused an unsafe blocklist network", some (.str value)⟩

/-- `_safe_blocklist_ua`. -/
def safeBlocklistUa (value : String) : Checked String := do
  let pattern ← safe (.str value) uaPatternRe "blocklist pattern"
  check ((pattern.toList.reverse.takeWhile (· = '\\')).length % 2 = 0)
    ⟨"edge renderer refused an unsafe blocklist pattern", some (.str value)⟩
  return pattern

/-- `_dedupe_rows`: the first row of each value. -/
def dedupeRows (rows : List BlocklistEntry) : List BlocklistEntry :=
  rows.foldl (fun kept row =>
    if kept.any fun other => other.value = row.value then kept else kept ++ [row]) []

def rowsOf (security : List BlocklistEntry) (kind : BlocklistKind) (mode : BlocklistMode) :
    List BlocklistEntry :=
  (dedupeRows (security.filter fun row => row.kind = kind)).filter fun row => row.mode = mode

def geoLine (value : BlocklistEntry → String) (row : BlocklistEntry) : Checked (List String) := do
  let network ← safeBlocklistIp row.value
  return ["    " ++ network.text ++ (" " ++ value row ++ ";")]

/-- `geo_block`: allowed rows count as zero and come first. -/
def geoBlock (security : List BlocklistEntry) (name : String) (activeMode : BlocklistMode) :
    Checked (List String) := do
  let allowed ← (rowsOf security .ip .allow).mapM (geoLine fun _ => "0")
  let active ← (rowsOf security .ip activeMode).mapM (geoLine fun row => toString row.id)
  return ["geo $" ++ name ++ " \x7b", "    default 0;"] ++ allowed.flatten ++ active.flatten ++
    ["\x7d"]

def uaLine (value : BlocklistEntry → String) (row : BlocklistEntry) : Checked (List String) := do
  let pattern ← safeBlocklistUa row.value
  return ["    \"~*" ++ pattern ++ ("\" " ++ value row ++ ";")]

/-- `ua_map`. -/
def uaMap (security : List BlocklistEntry) (name : String) (activeMode : BlocklistMode) :
    Checked (List String) := do
  let allowed ← (rowsOf security .ua .allow).mapM (uaLine fun _ => "0")
  let active ← (rowsOf security .ua activeMode).mapM (uaLine fun row => toString row.id)
  return ["map $http_user_agent $" ++ name ++ " \x7b", "    default 0;"] ++ allowed.flatten ++
    active.flatten ++ ["\x7d"]

/-- The part of the blocklist section that is the same for all rows. -/
def watchLog : List String :=
  ["",
    "map \"$edge_watch_ip:$edge_watch_ua\" $edge_watch \x7b",
    "    default 1;",
    "    \"0:0\" 0;",
    "\x7d",
    "",
    "log_format edge_watch '$remote_addr - [$time_local] '",
    "                      '\"$request_method $scheme://$host$request_uri\" '",
    "                      '$status ip=$edge_watch_ip ua=$edge_watch_ua '",
    "                      '\"$http_user_agent\"';",
    ""]

/-- `_blocklist_section`. -/
def blocklistSection (security : List BlocklistEntry) : Checked (List String) := do
  let blockIp ← geoBlock security "edge_block_ip" .enforce
  let watchIp ← geoBlock security "edge_watch_ip" .log
  let blockUa ← uaMap security "edge_block_ua" .enforce
  let watchUa ← uaMap security "edge_watch_ua" .log
  return blockIp ++ [""] ++ watchIp ++ [""] ++ blockUa ++ [""] ++ watchUa ++ watchLog ++
    ["access_log " ++ (knobs.logDir.text ++ "/edge_watch.log") ++ " edge_watch if=$edge_watch;"]

/-! ### The security log -/

/-- A row of `_mojosec_vhost_evidence`. -/
structure Evidence where
  serverName : String
  vhost : Nat
  policy : Policy

def Evidence.resourceId (evidence : Evidence) : String := "vhost:" ++ toString evidence.vhost

def vhostEvidence (vhost : Vhost) : Checked (List Evidence) := do
  match ← validateMojosecPolicy vhost.mojosecPolicy with
  | none => return []
  | some policy =>
    let name ← vhost.serverName
    let serverName ← safeServerName name
    return [⟨serverName, vhost.pk, policy⟩]

/-- `_mojosec_vhost_evidence`. -/
def mojosecVhostEvidence (vhosts : List Vhost) : Checked (List Evidence) := do
  let rows ← vhosts.mapM vhostEvidence
  return rows.flatten

/-- The characters that `re.escape` escapes. -/
def isEscaped (char : Char) : Bool :=
  char ∈ ['(', ')', '[', ']', '\x7b', '\x7d', '?', '*', '+', '-', '|', '^', '$', '\\', '.', '&', '~',
    '#', ' ', '\t', '\n', '\r', '\x0b', '\x0c']

/-- `re.escape`. -/
def mapPattern (text : String) : String :=
  String.ofList (text.toList.flatMap fun char => if isEscaped char then ['\\', char] else [char])

def resourceLine (row : Evidence) : List String :=
  ["    \"" ++ row.serverName ++ ("\" \"" ++ row.resourceId ++ "\";")]

def versionLine (row : Evidence) : List String :=
  ["    \"" ++ row.serverName ++ ("\" \"" ++ toString row.policy.version ++ "\";")]

def responseClassLines (row : Evidence) : List String :=
  (row.policy.families.flatMap fun family =>
    ["    " ++ ("~*^" ++ (mapPattern row.serverName ++ ":" ++ impossiblePath family)) ++
      " \"impossible_path\";"]) ++
  ["    " ++ ("~*^" ++ (mapPattern row.serverName ++ ":")) ++
    (" \"" ++ row.policy.responseClass.text ++ "\";")]

def mojosecLogFormat : List String :=
  ["log_format mojosec_v1 escape=json",
    "    '\x7b\"schema\":\"mojosec.nginx\",\"version\":1,'",
    "    '\"time\":\"$time_iso8601\",\"method\":\"$request_method\",'",
    "    '\"request_uri\":\"$request_uri\",\"status\":$status,'",
    "    '\"request_id\":\"$request_id\",\"scheme\":\"$scheme\",'",
    "    '\"protocol\":\"$server_protocol\",\"tls_protocol\":\"$ssl_protocol\",'",
    "    '\"tls_cipher\":\"$ssl_cipher\",'",
    "    '\"host\":\"$host\",\"referrer\":\"$http_referer\",'",
    "    '\"user_agent\":\"$http_user_agent\",'",
    "    '\"remote_port\":\"$remote_port\",\"peer_port\":\"$realip_remote_port\",'",
    "    '\"server_port\":\"$server_port\",\"request_length\":\"$request_length\",'",
    "    '\"response_bytes\":\"$bytes_sent\",'",
    "    '\"response_body_bytes\":\"$body_bytes_sent\",'",
    "    '\"request_time\":\"$request_time\",'",
    "    '\"upstream_status\":\"$upstream_status\",'",
    "    '\"upstream_connect_time\":\"$upstream_connect_time\",'",
    "    '\"upstream_header_time\":\"$upstream_header_time\",'",
    "    '\"upstream_response_time\":\"$upstream_response_time\",'",
    "    '\"upstream_response_length\":\"$upstream_response_length\",'",
    "    '\"upstream_bytes_received\":\"$upstream_bytes_received\",'",
    "    '\"upstream_bytes_sent\":\"$upstream_bytes_sent\",'",
    "    '\"remote_addr\":\"$remote_addr\",'",
    "    '\"peer_addr\":\"$realip_remote_addr\",'",
    "    '\"response_class\":\"$mojosec_response_class\",'",
    "    '\"resource_id\":\"$mojosec_resource_id\",'",
    "    '\"edge_policy_version\":\"$mojosec_policy_version\"\x7d';"]

/-- `render_http_log`, with the blank line after it. The path of the log is fixed. -/
def mojosecHttpLog (evidence : List Evidence) : List String :=
  let rows := evidence.insertionSort fun first second => first.serverName ≤ second.serverName
  ["# MojoSec security log v1 — generated; do not hand-edit"] ++
    (if knobs.trustedProxies.isEmpty then [] else
      (knobs.trustedProxies.flatMap fun network => ["set_real_ip_from " ++ network.text ++ ";"]) ++
        ["real_ip_header X-Forwarded-For;", "real_ip_recursive on;"]) ++
    ["map $server_name $mojosec_resource_id \x7b", "    default \"\";"] ++
    rows.flatMap resourceLine ++
    ["\x7d", "map $server_name $mojosec_policy_version \x7b", "    default \"\";"] ++
    rows.flatMap versionLine ++
    ["\x7d", "map \"$server_name:$uri\" $mojosec_response_class \x7b", "    default \"\";"] ++
    rows.flatMap responseClassLines ++
    ["\x7d"] ++ mojosecLogFormat ++
    ["access_log /var/log/nginx/mojosec.json.log mojosec_v1;", ""]

/-! ### The http base -/

def baseLog : List String :=
  ["",
    "log_format main '$remote_addr - - [$time_local] '",
    "                '\"$request_method $scheme://$host$request_uri $server_protocol\" '",
    "                '$status $body_bytes_sent \"$http_referer\" '",
    "                '\"$http_user_agent\" $request_time $server_port';",
    "",
    "map $http_user_agent $loggable \x7b",
    "    ~*ELB-HealthChecker 0;",
    "    default 1;",
    "\x7d",
    ""]

def upgradeMap : List String :=
  ["# this node's bootstrap declares no $connection_upgrade map, so",
    "# this generation carries it — see services/installer.py",
    "map $http_upgrade $connection_upgrade \x7b",
    "    default upgrade;",
    "    '' close;",
    "\x7d",
    ""]

def baseGzip : List String :=
  ["server_tokens off;",
    "gzip on;",
    "gzip_vary on;",
    "gzip_comp_level 5;",
    "gzip_min_length 256;",
    "gzip_proxied any;",
    "gzip_types text/plain text/css application/json application/javascript text/xml " ++
      "application/xml image/svg+xml;",
    ""]

def defaultServers : List String :=
  [""] ++
  (if knobs.httpEnabled then
    ["# Catch-alls for names no vhost claims. 443 rejects the TLS",
      "# handshake outright (no certificate needed, no name leaked);",
      "# 80 drops the connection. Flag-gated by EDGE_HTTP_DEFAULT_SERVER",
      "# so a migrating deployment can keep its file-managed default",
      "# server until the cutover step."]
  else
    ["# Catch-all for names no vhost claims. 443 rejects the TLS",
      "# handshake outright; public HTTP vhosts are disabled."]) ++
  ["server \x7b",
    "    listen 443 ssl default_server;",
    "    listen [::]:443 ssl default_server;",
    "    ssl_reject_handshake on;",
    "\x7d"] ++
  (if knobs.httpEnabled then
    ["",
      "server \x7b",
      "    listen 80 default_server;",
      "    listen [::]:80 default_server;",
      "    return 444;",
      "\x7d"]
  else [])

def mojosecPart (vhosts : List Vhost) : Checked (List String) :=
  if knobs.mojosecMode = .observe then do
    let evidence ← mojosecVhostEvidence vhosts
    return mojosecHttpLog knobs evidence
  else .ok []

/-- `render_http_base`. -/
def renderHttpBase (security : List BlocklistEntry) (vhosts : List Vhost)
    (carryUpgradeMap : Bool) : Checked (List String) := do
  let mojosec ← mojosecPart knobs vhosts
  let blocklist ← blocklistSection knobs security
  return ["# edge http base — rendered per generation, never hand-edited",
      "include " ++ knobs.mimeTypes.text ++ ";"] ++ baseLog ++
    ["access_log " ++ (knobs.logDir.text ++ "/access.log") ++ " main if=$loggable;", ""] ++
    mojosec ++ (if carryUpgradeMap then upgradeMap else []) ++
    ["sendfile on;", "keepalive_timeout " ++ toString knobs.keepaliveTimeout ++ ";"] ++
    baseGzip ++ blocklist ++ (if knobs.defaultServer then defaultServers knobs else []) ++ [""]

/-! ### The upstreams -/

def Vhost.upstreams (vhost : Vhost) : List Upstream :=
  vhost.upstream.toList ++ vhost.routes.map Route.upstream

/-- A dictionary of upstreams by key; a later row replaces an earlier one. -/
def seeUpstream (seen : List Upstream) (upstream : Upstream) : List Upstream :=
  seen.filter (fun other => other.pk ≠ upstream.pk) ++ [upstream]

/-- `referenced_upstreams`. -/
def referencedUpstreams (vhosts : List Vhost) : List Upstream :=
  ((vhosts.flatMap Vhost.upstreams).foldl seeUpstream []).insertionSort fun first second =>
    first.pk ≤ second.pk

def upstreamBlock (upstream : Upstream) : Checked (List String) := do
  let target ← safeUpstreamTarget settings upstream
  return ["",
    "upstream " ++ ("edge_up_" ++ toString upstream.pk) ++ " \x7b",
    "    server " ++ target ++ ";",
    "\x7d"]

/-- `render_upstreams`. -/
def renderUpstreams (upstreams : List Upstream) : Checked (List String) := do
  let blocks ← (upstreams.insertionSort fun first second => first.pk ≤ second.pk).mapM
    (upstreamBlock settings)
  return ["# edge upstreams — named blocks; vhost files reference these only"] ++
    blocks.flatten ++ [""]

/-! ### All files -/

abbrev Files (Content : Type) := List (String × Content)

namespace Files

variable {Content Other : Type}

def get (files : Files Content) (name : String) : Option Content := files.reverse.lookup name

def map (files : Files Content) (change : Content → Other) : Files Other :=
  List.map (fun file => (file.1, change file.2)) files

theorem get_map (files : Files Content) (change : Content → Other) (name : String) :
    (files.map change).get name = (files.get name).map change := by
  rw [get, get, map, ← List.map_reverse]
  generalize List.reverse files = assigned
  induction assigned with
  | nil => rfl
  | cons file rest ih =>
    rw [List.map_cons, List.lookup_cons, List.lookup_cons]
    cases name == file.1 with
    | true => rfl
    | false => exact ih

end Files

def baseName : String := "http.d/00_base.conf"

def upstreamsName : String := "http.d/10_upstreams.conf"

def Vhost.confName (vhost : Vhost) : String := "conf.d/" ++ toString vhost.pk ++ ".conf"

def renderLines (rows : List BlocklistEntry) (vhosts : List Vhost) (generation : Nginx.Word)
    (carryUpgradeMap : Bool) : Checked (Files (List String)) := do
  let base ← renderHttpBase knobs (blocklistPayload rows) vhosts carryUpgradeMap
  let upstreams ← renderUpstreams settings (referencedUpstreams vhosts)
  let rendered ← vhosts.mapM fun vhost => do
    let lines ← renderVhost settings knobs vhost generation
    return (vhost.confName, lines)
  return [(baseName, base), (upstreamsName, upstreams)] ++ rendered

/-- `render_generation`. -/
def renderGeneration (rows : List BlocklistEntry) (vhosts : List Vhost)
    (generation : Nginx.Word) (carryUpgradeMap : Bool) : Checked (Files String) := do
  let files ← renderLines settings knobs rows vhosts generation carryUpgradeMap
  return files.map Nginx.joined

end DjangoMojo.Edge
