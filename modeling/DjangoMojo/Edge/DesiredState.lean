import DjangoMojo.Edge.Installer
import DjangoMojo.Foundation.CanonicalJson

/-! # The desired state of a node

The payload that a node polls for, and the id that is computed over its canonical
JSON. A dictionary with fixed keys is a structure here.
-/

namespace DjangoMojo.Edge

open Foundation

variable (settings : Settings)

/-! ### Virtual hosts -/

structure UpstreamPayload where
  id : Nat
  kind : UpstreamKind
  host : Option String
  port : Option Int
  socketPath : Option String
  isEnabled : Bool

/-- `_upstream_payload`. -/
def upstreamPayload (upstream : Upstream) : UpstreamPayload where
  id := upstream.pk
  kind := upstream.kind
  host := upstream.host
  port := upstream.port
  socketPath := upstream.socketPath
  isEnabled := upstream.isEnabled

structure RoutePayload where
  id : Nat
  pathPrefix : String
  upstream : UpstreamPayload

def routePayload (route : Route) : RoutePayload where
  id := route.pk
  pathPrefix := route.pathPrefix
  upstream := upstreamPayload route.upstream

structure WebappAuth where
  version : Nat
  upstream : UpstreamPayload
  honeypots : List String

/-- `CONTRACT_VERSION`. -/
def contractVersion : Nat := 1

structure VhostPayload where
  id : Nat
  serverName : String
  kind : VhostKind
  pool : String
  spa : Bool
  bodySizeMb : Int
  quietPaths : List Json
  serveStatic : Bool
  mojosecPolicy : Json
  redirectTo : Option String
  certificate : Nat
  certificateSerial : Option String
  upstream : Option UpstreamPayload
  routes : List RoutePayload
  webappAuth : Option WebappAuth

/-- `vhost_payload`. -/
def vhostPayload (vhost : Vhost) : Checked VhostPayload := do
  let routes := sortedRoutes vhost
  let contract ← renderedContract settings vhost routes
  let serverName ← vhost.serverName
  let quietPaths ← sortedPaths vhost.quietPaths
  return {
    id := vhost.pk
    serverName
    kind := vhost.kind
    pool := vhost.pool
    spa := vhost.spa
    bodySizeMb := vhost.bodySizeMb
    quietPaths
    serveStatic := vhost.serveStatic
    mojosecPolicy := vhost.mojosecPolicy
    redirectTo := vhost.redirectTo
    certificate := vhost.certificate.pk
    certificateSerial := vhost.certificate.serial
    upstream := vhost.upstream.map upstreamPayload
    routes := routes.map routePayload
    webappAuth := contract.map fun upstream =>
      ⟨contractVersion, upstreamPayload upstream, honeypotPaths⟩ }

/-! ### The whole payload -/

structure ReleasePayload where
  id : Nat
  version : String
  storagePrefix : String
  manifest : Json

/-- A row of `desired_webapps`. -/
structure WebAppRow where
  vhost : Nat
  slug : String
  bucket : String
  release : ReleasePayload

/-- `http_knobs()`: the webroot is there only where http is enabled. -/
structure HttpPayload where
  httpEnabled : Bool
  mimeTypes : Nginx.Word
  logDir : Nginx.Word
  keepaliveTimeout : Int
  proxyReadTimeout : Int
  defaultServer : Bool
  tlsProtocols : Json
  tlsCiphers : Json
  djangoStaticRoot : Nginx.Word
  trustedProxies : List Nginx.Word
  mojosecMode : MojosecMode
  acmeWebroot : Option Nginx.Word

/-- `http_knobs`. -/
def httpPayload (knobs : Knobs) : HttpPayload where
  httpEnabled := knobs.httpEnabled
  mimeTypes := knobs.mimeTypes
  logDir := knobs.logDir
  keepaliveTimeout := knobs.keepaliveTimeout
  proxyReadTimeout := knobs.proxyReadTimeout
  defaultServer := knobs.defaultServer
  tlsProtocols := knobs.tlsProtocols
  tlsCiphers := knobs.tlsCiphers
  djangoStaticRoot := knobs.djangoStaticRoot
  trustedProxies := knobs.trustedProxies
  mojosecMode := knobs.mojosecMode
  acmeWebroot := if knobs.httpEnabled then some knobs.acmeWebroot else none

structure DesiredPayload where
  vhosts : List VhostPayload
  webapps : List WebAppRow
  http : HttpPayload
  security : List BlocklistEntry

structure DesiredRows where
  vhosts : List Vhost
  webApps : List WebAppRow
  knobs : Knobs
  security : List BlocklistEntry
  keys_nodup : (vhosts.map Vhost.pk).Nodup
  upstreams_eq : ∀ first ∈ vhosts.flatMap Vhost.upstreams,
    ∀ second ∈ vhosts.flatMap Vhost.upstreams, first.pk = second.pk → first = second

/-- `desired_state`, without the id. -/
def desiredState (rows : DesiredRows) : Checked DesiredPayload := do
  let vhosts ← rows.vhosts.mapM (vhostPayload settings)
  return {
    vhosts := vhosts.insertionSort fun first second => first.id ≤ second.id
    webapps := rows.webApps
    http := httpPayload rows.knobs
    security := blocklistPayload rows.security }

def DesiredRows.desired (rows : DesiredRows) (pools : List (String × String))
    (generation : Nginx.Word) : Desired where
  pools := pools
  vhosts := rows.vhosts
  rows := rows.security
  knobs := rows.knobs
  webApps := rows.webApps.map fun row => (row.vhost, row.release.version)
  generation := generation
  keys_nodup := rows.keys_nodup
  upstreams_eq := rows.upstreams_eq

/-! ### The id -/

def VhostPayload.canonical (payload : VhostPayload) : VhostPayload :=
  { payload with
    quietPaths := payload.quietPaths.map Json.canonical
    mojosecPolicy := payload.mojosecPolicy.canonical }

def WebAppRow.canonical (row : WebAppRow) : WebAppRow :=
  { row with release := { row.release with manifest := row.release.manifest.canonical } }

def HttpPayload.canonical (payload : HttpPayload) : HttpPayload :=
  { payload with
    tlsProtocols := payload.tlsProtocols.canonical
    tlsCiphers := payload.tlsCiphers.canonical }

def DesiredPayload.canonical (payload : DesiredPayload) : DesiredPayload :=
  { payload with
    vhosts := payload.vhosts.map VhostPayload.canonical
    webapps := payload.webapps.map WebAppRow.canonical
    http := payload.http.canonical }

/-- What is hashed: the renderer's own inputs take part without being served. -/
structure HashedPayload where
  payload : DesiredPayload
  nginxTempPaths : List (String × String)
  framework : String

/-- `generation_id`; the function stands for the digest of the canonical text. -/
def generationId (sha256 : HashedPayload → Nginx.Word) (framework : String)
    (payload : DesiredPayload) : Nginx.Word :=
  sha256 ⟨payload.canonical, tempPaths, framework⟩

/-- The id that `desired_state` gives to rows. -/
def desiredGeneration (sha256 : HashedPayload → Nginx.Word) (framework : String)
    (rows : DesiredRows) : Checked Nginx.Word := do
  let payload ← desiredState settings rows
  return generationId sha256 framework payload

end DjangoMojo.Edge
