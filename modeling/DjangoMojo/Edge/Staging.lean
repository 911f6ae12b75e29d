import DjangoMojo.Edge.Generation

/-! # What a staged check reads

Beside each rendered file there is a copy whose ports a process without privileges
may bind, and a harness that includes the copies.
-/

namespace DjangoMojo.Edge

open Foundation

/-- The values of the two port settings that `int` accepts. -/
structure StagedPorts where
  http : Option Int := some 61080
  https : Option Int := some 61443

/-- `_staged_port_value`. -/
def stagedPortValue (name : String) (raw : Option Int) : Checked Int := do
  match raw with
  | none => .error ⟨"edge staged listen port is not an integer: " ++ name, none⟩
  | some port =>
    check (1024 ≤ port ∧ port ≤ 65535)
      ⟨"edge staged listen port out of range (1024-65535): " ++ toString port, none⟩
    return port

/-- The staged replacement of each listen line of one port. -/
def listenEntries (real parameters : String) (staged : Int) : List (String × String) :=
  ["", "[::]:"].flatMap fun address =>
    ["", " default_server"].map fun suffix =>
      ("listen " ++ address ++ real ++ parameters ++ suffix ++ ";",
        "listen " ++ address ++ toString staged ++ parameters ++ suffix ++ ";")

/-- `_staged_listen_map`. -/
def stagedListenMap (ports : StagedPorts) (includeHttp includeHttps : Bool) :
    Checked (List (String × String)) := do
  let http ← if includeHttp then
    (stagedPortValue "EDGE_STAGED_HTTP_PORT" ports.http).map some else .ok none
  let https ← if includeHttps then
    (stagedPortValue "EDGE_STAGED_HTTPS_PORT" ports.https).map some else .ok none
  check (http.isNone || http ≠ https) ⟨"edge staged listen ports must differ", none⟩
  return (https.elim [] (listenEntries "443" " ssl")) ++ http.elim [] (listenEntries "80" "")

def indentOf (tables : TextTables) (line : List Char) : List Char := line.takeWhile tables.isSpace

def firstToken (tables : TextTables) (body : List Char) : List Char :=
  body.takeWhile fun char => !tables.isSpace char

def stagedLine (tables : TextTables) (remap : List (String × String)) (line : List Char) :
    Checked (List Char) :=
  let body := tables.strip line
  let token := String.ofList (firstToken tables body)
  if token = "access_log" then .ok (indentOf tables line ++ "access_log off;".toList)
  else if token ≠ "listen" then .ok line
  else
    match remap.lookup (String.ofList body) with
    | some replacement => .ok (indentOf tables line ++ replacement.toList)
    | none => .error ⟨"edge staged remap refused an unknown listen line",
        some (.str (String.ofList line))⟩

/-- `TEMP_PATHS`. -/
def tempPaths : List (String × String) :=
  [("client_body_temp_path", "client_body"), ("proxy_temp_path", "proxy"),
    ("fastcgi_temp_path", "fastcgi"), ("uwsgi_temp_path", "uwsgi"),
    ("scgi_temp_path", "scgi")]

/-- Whether a line begins with a directive: its name and a white space after it. The end of
a line counts as one, save at the end of the file. -/
def declares (tables : TextTables) (directive : List Char) : List (List Char) → Bool
  | [] => false
  | line :: rest =>
    let text := (if rest.isEmpty then line else line ++ ['\n']).dropWhile tables.isSpace
    (directive.isPrefixOf text && (text.drop directive.length).head?.any tables.isSpace) ||
      declares tables directive rest

def scratchText (root : String) : String :=
  "# staging-only nginx scratch paths\n" ++
    String.join (tempPaths.map fun entry => entry.1 ++ " " ++ root ++ "/" ++ entry.2 ++ ";\n")

def stagedLines (tables : TextTables) (ports : StagedPorts) (lines : List (List Char))
    (tempRoot : Option String) : Checked (List Char) := do
  let bodies := lines.map tables.strip
  let listens := fun (real : String) => bodies.any fun body =>
    ("listen " ++ real).toList.isPrefixOf body || ("listen [::]:" ++ real).toList.isPrefixOf body
  let remap ← stagedListenMap ports (listens "80") (listens "443")
  let staged ← lines.mapM (stagedLine tables remap)
  let joined := List.intercalate ['\n'] staged
  match tempRoot with
  | none => return joined
  | some root =>
    check (tempPaths.all fun entry => !declares tables entry.1.toList staged)
      ⟨"edge staged base already declares a scratch path; " ++
        "the scratch mapping must have one owner", none⟩
    return (scratchText root).toList ++ joined

/-- `render_staged_variant`. -/
def renderStagedVariant (settings : Settings) (ports : StagedPorts) (text : String)
    (tempRoot : Option String) : Checked String := do
  let staged ← stagedLines settings.tables ports (text.toList.splitOn '\n') tempRoot
  return String.ofList staged

/-- `render_nginx_harness`. -/
def renderNginxHarness (settings : Settings) (generation : Nginx.Word) (carryUpgradeMap : Bool) :
    String :=
  let directory := generationDir settings generation
  Nginx.joined (["# staging harness — nginx -t pre-filter only, never loaded to serve",
    "#",
    "# Every path used by this staged graph points INSIDE the generation because this check runs",
    "# UNPRIVILEGED (see services/installer.py: a sudo'd `nginx -t -c` over an",
    "# app-writable file is a root escalation via load_module). An app user",
    "# cannot write nginx's packaged prefix, so leaving these at their",
    "# defaults would fail the check for permissions rather than for config.",
    "# The staging/ trees are listen-remapped copies of http.d/ and conf.d/:",
    "# nginx -t binds every listen it parses, and 443/80 need root.",
    "pid " ++ directory ++ "/nginx.pid;",
    "error_log " ++ directory ++ "/error.log;",
    "events \x7b worker_connections 64; \x7d",
    "http \x7b",
    "    default_type application/octet-stream;",
    "    types_hash_max_size 4096;"] ++
    (if carryUpgradeMap then [] else
      ["    map $http_upgrade $connection_upgrade \x7b",
        "        default upgrade;",
        "        '' close;",
        "    \x7d"]) ++
    ["    include " ++ directory ++ "/staging/http.d/*.conf;",
      "    include " ++ directory ++ "/staging/conf.d/*.conf;",
      "\x7d",
      ""])

end DjangoMojo.Edge
