import DjangoMojo.Foundation.Checks
import DjangoMojo.Foundation.Json
import DjangoMojo.Foundation.NginxSyntax
import DjangoMojo.Foundation.PythonText

/-! # Rows of the edge

A virtual host is a row that names a domain, a certificate and, for the kinds that
proxy, the upstreams behind it. The rows are as the database returns them: nothing
here says that they were ever validated. The settings and the resolved http knobs
are what a node reads beside the rows.
-/

namespace DjangoMojo.Edge

open Foundation

/-- What an exception says, and the value whose `repr` its message shows. -/
structure Refusal where
  message : String
  shown : Option Json := none

abbrev Checked := Except Refusal

inductive UpstreamKind where
  | http | unix
  | other (name : String)
  deriving DecidableEq, Repr

structure Upstream where
  pk : Nat
  name : String
  kind : UpstreamKind
  host : Option String := none
  port : Option Int := none
  socketPath : Option String := none
  isEnabled : Bool := true
  group : Option Nat := none

structure Route where
  pathPrefix : String
  upstream : Upstream
  pk : Nat := 0

structure Domain where
  pk : Nat
  name : String
  group : Option Nat := none

structure Certificate where
  pk : Nat
  domain : Nat
  commonName : String := ""
  sans : Json := .null
  certPem : String := ""
  chainPem : String := ""
  serial : Option String := none

structure WebApp where
  groups : List Nat
  primary : Option (Nat × String)

inductive VhostKind where
  | site | api | siteApi | redirect
  | other (name : String)
  deriving DecidableEq, Repr

def VhostKind.text : VhostKind → String
  | .site => "site"
  | .api => "api"
  | .siteApi => "site_api"
  | .redirect => "redirect"
  | .other name => name

structure Vhost where
  pk : Nat
  domain : Domain
  label : String := ""
  kind : VhostKind
  upstream : Option Upstream := none
  certificate : Certificate
  pool : String := "default"
  spa : Bool := false
  bodySizeMb : Int := 50
  quietPaths : Json := .arr []
  serveStatic : Bool := false
  mojosecPolicy : Json := .obj []
  redirectTo : Option String := none
  isEnabled : Bool := true
  routes : List Route := []
  webApp : Option WebApp := none
  aliasOf : Option WebApp := none

inductive BlocklistKind where
  | ip | ua
  | other (name : String)
  deriving DecidableEq, Repr

inductive BlocklistMode where
  | allow | off | log | enforce
  | other (name : String)
  deriving DecidableEq, Repr

structure BlocklistEntry where
  id : Nat
  kind : BlocklistKind
  value : String
  mode : BlocklistMode

/-- The file-only settings and the functions of the node that validation reads. -/
structure Settings where
  edgeRoot : Nginx.Word
  socketBase : String
  realpath : String → String
  declaredPools : List String
  bouncerLoginPath : String
  tables : TextTables
  lower : String → String

inductive MojosecMode where
  | off | observe
  deriving DecidableEq, Repr

/-- `http_knobs()`. The paths and the proxies are file-only; the TLS values are not. -/
structure Knobs where
  httpEnabled : Bool
  mimeTypes : Nginx.Word
  logDir : Nginx.Word
  keepaliveTimeout : Int
  proxyReadTimeout : Int
  defaultServer : Bool
  tlsProtocols : Json
  tlsCiphers : Json
  djangoStaticRoot : Nginx.Word
  trustedProxies : List Nginx.Word
  mojosecMode : MojosecMode
  acmeWebroot : Nginx.Word

/-! ### A node with the default settings -/

def plainSettings : Settings where
  edgeRoot := ⟨"/opt/edge", by decide⟩
  socketBase := "/run/mojo"
  realpath path := path
  declaredPools := ["default"]
  bouncerLoginPath := "/auth"
  tables := .ascii
  lower text := text

def plainKnobs : Knobs where
  httpEnabled := false
  mimeTypes := ⟨"/etc/nginx/mime.types", by decide⟩
  logDir := ⟨"/var/log/nginx", by decide⟩
  keepaliveTimeout := 20
  proxyReadTimeout := 600
  defaultServer := false
  tlsProtocols := .str "TLSv1.2 TLSv1.3"
  tlsCiphers := .str "HIGH"
  djangoStaticRoot := ⟨"/opt/api/static", by decide⟩
  trustedProxies := []
  mojosecMode := .off
  acmeWebroot := ⟨"/opt/acme", by decide⟩

def firstGeneration : Nginx.Word := ⟨"1", by decide⟩

def apiVhost (upstream : Upstream) : Vhost where
  pk := 1
  domain := ⟨1, "a.io", none⟩
  kind := .api
  upstream := some upstream
  certificate := { pk := 1, domain := 1, commonName := "a.io" }

end DjangoMojo.Edge
