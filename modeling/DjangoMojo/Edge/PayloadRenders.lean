import DjangoMojo.Edge.DesiredState
import DjangoMojo.Edge.RenderedSet

/-! # The renderer reads nothing but the payload

A row can be made of the payload of a virtual host that is rendered in the same way.
What the payload leaves out of a row is in no file.
-/

namespace DjangoMojo.Edge

open Foundation

variable {settings : Settings} {knobs : Knobs}

/-! ### Rows that are made of a payload -/

def UpstreamPayload.row (payload : UpstreamPayload) : Upstream where
  pk := payload.id
  name := ""
  kind := payload.kind
  host := payload.host
  port := payload.port
  socketPath := payload.socketPath
  isEnabled := payload.isEnabled

def RoutePayload.row (payload : RoutePayload) : Route where
  pathPrefix := payload.pathPrefix
  upstream := payload.upstream.row
  pk := payload.id

def VhostPayload.row (payload : VhostPayload) : Vhost where
  pk := payload.id
  domain := ⟨0, payload.serverName, none⟩
  kind := payload.kind
  upstream := payload.upstream.map UpstreamPayload.row
  certificate := { pk := payload.certificate, domain := 0 }
  pool := payload.pool
  spa := payload.spa
  bodySizeMb := payload.bodySizeMb
  quietPaths := .arr payload.quietPaths
  serveStatic := payload.serveStatic
  mojosecPolicy := payload.mojosecPolicy
  redirectTo := payload.redirectTo
  routes := payload.routes.map RoutePayload.row
  webApp := payload.webappAuth.map fun _ => ⟨[], none⟩

def HttpPayload.row (payload : HttpPayload) : Knobs where
  httpEnabled := payload.httpEnabled
  mimeTypes := payload.mimeTypes
  logDir := payload.logDir
  keepaliveTimeout := payload.keepaliveTimeout
  proxyReadTimeout := payload.proxyReadTimeout
  defaultServer := payload.defaultServer
  tlsProtocols := payload.tlsProtocols
  tlsCiphers := payload.tlsCiphers
  djangoStaticRoot := payload.djangoStaticRoot
  trustedProxies := payload.trustedProxies
  mojosecMode := payload.mojosecMode
  acmeWebroot := payload.acmeWebroot.getD payload.mimeTypes

def Upstream.bare (upstream : Upstream) : Upstream := (upstreamPayload upstream).row

def Route.bare (route : Route) : Route := (routePayload route).row

def Knobs.bare (knobs : Knobs) : Knobs := (httpPayload knobs).canonical.row

/-! ### Upstreams and paths -/

theorem proxyLocationBody_bare (upstream : Option Upstream) :
    proxyLocationBody settings knobs.bare (upstream.map Upstream.bare) =
      proxyLocationBody settings knobs upstream := by
  cases upstream <;> rfl

theorem validateQuietPath_canonical (path : Json) :
    validateQuietPath path.canonical = validateQuietPath path := by
  cases path <;> rfl

theorem quietPart_bare (path : Json) (upstream : Option Upstream) :
    quietPart settings knobs.bare path.canonical (upstream.map Upstream.bare) =
      quietPart settings knobs path upstream := by
  unfold quietPart quietLocation
  rw [validateQuietPath_canonical, proxyLocationBody_bare]
  rfl

theorem receiverPart_bare (upstream : Option Upstream) :
    receiverPart settings knobs.bare (upstream.map Upstream.bare) =
      receiverPart settings knobs upstream := by
  unfold receiverPart receiverLocation
  rw [proxyLocationBody_bare]
  rfl

theorem honeypotParts_bare (contract : Option Upstream) :
    honeypotParts settings knobs.bare (contract.map Upstream.bare) =
      honeypotParts settings knobs contract := by
  cases contract <;> rfl

theorem mapM_jsonText_canonical (items : List Json) :
    (items.map Json.canonical).mapM jsonText = items.mapM jsonText := by
  have htext (item : Json) : jsonText item.canonical = jsonText item := by cases item <;> rfl
  induction items with
  | nil => rfl
  | cons item rest ih => rw [List.map_cons, List.mapM_cons, List.mapM_cons, ih, htext]

theorem mapM_jsonText_str (texts : List String) : (texts.map Json.str).mapM jsonText = some texts := by
  induction texts with
  | nil => rfl
  | cons text rest ih =>
    rw [List.map_cons, List.mapM_cons, ih]
    rfl

/-- Paths that were sorted are sorted. -/
theorem sortedPaths_canonical {quietPaths : Json} {paths : List Json}
    (hpaths : sortedPaths quietPaths = .ok paths) :
    sortedPaths (.arr (paths.map Json.canonical)) = .ok (paths.map Json.canonical) := by
  have hiterated (items : List Json) : iteratedOrEmpty (.arr items) = .ok items := by
    cases items <;> rfl
  simp only [sortedPaths, bind_ok, pure_ok] at hpaths ⊢
  obtain ⟨items, _, rfl⟩ := hpaths
  refine ⟨_, hiterated _, ?_⟩
  cases htexts : items.mapM jsonText with
  | none => simp only [mapM_jsonText_canonical, htexts]
  | some texts =>
    have hsame : ((texts.insertionSort (· ≤ ·)).map Json.str).map Json.canonical =
        (texts.insertionSort (· ≤ ·)).map Json.str := by
      rw [List.map_map]
      rfl
    simp only [hsame, mapM_jsonText_str]
    rw [(List.pairwise_insertionSort _ texts).insertionSort_eq]

theorem quietPathsToRender_bare {vhost row : Vhost} {paths : List Json}
    (hpaths : sortedPaths vhost.quietPaths = .ok paths)
    (hrow : row.quietPaths = .arr (paths.map Json.canonical)) :
    quietPathsToRender row = (quietPathsToRender vhost).map (List.map Json.canonical) := by
  unfold quietPathsToRender
  rw [hrow, sortedPaths_canonical hpaths, hpaths]
  change Except.ok _ = Except.ok _
  congr 1
  rw [List.filter_map]
  congr 1
  refine List.filter_congr fun path _ => ?_
  simp [Json.isText_canonical]

/-! ### Routes -/

def longerRoute (path : List Char) (found : Option Route) (route : Route) :
    Checked (Option Route) := do
  let pathPrefix ← validateRoutePrefix route.pathPrefix
  if pathPrefix.toList.isPrefixOf path &&
      found.all fun other => other.pathPrefix.length < pathPrefix.length then
    return some route
  else return found

theorem longerRoute_bare (path : List Char) (found : Option Route) (route : Route) :
    longerRoute path (found.map Route.bare) route.bare =
      (longerRoute path found route).map (Option.map Route.bare) := by
  have hall (pathPrefix : String) : ((found.map Route.bare).all fun other =>
      other.pathPrefix.length < pathPrefix.length) =
      found.all fun other => other.pathPrefix.length < pathPrefix.length := by
    cases found <;> rfl
  have hbarePath : route.bare.pathPrefix = route.pathPrefix := rfl
  unfold longerRoute
  rw [hbarePath]
  cases validateRoutePrefix route.pathPrefix with
  | error refusal => rfl
  | ok pathPrefix =>
    simp only [hall]
    change (if _ then _ else _) = Except.map _ (if _ then _ else _)
    split <;> rfl

theorem longestRoute_bare (path : List Char) (routes : List Route) :
    longestRoute path (routes.map Route.bare) =
      (longestRoute path routes).map (Option.map Route.bare) := by
  suffices hfrom : ∀ found : Option Route,
      (routes.map Route.bare).foldlM (longerRoute path) (found.map Route.bare) =
        (routes.foldlM (longerRoute path) found).map (Option.map Route.bare) from hfrom none
  induction routes with
  | nil => exact fun _ => rfl
  | cons route rest ih =>
    intro found
    rw [List.map_cons, List.foldlM_cons, List.foldlM_cons, longerRoute_bare]
    cases longerRoute path found route with
    | error refusal => rfl
    | ok next => exact ih next

theorem coveringRoute_bare (path : Json) (routes : List Route) :
    coveringRoute path.canonical (routes.map Route.bare) =
      (coveringRoute path routes).map (Option.map Route.bare) := by
  have hother : ∀ routes : List Route, (routes.map Route.bare).foldlM (fun _ route => do
      let _ ← validateRoutePrefix route.pathPrefix
      .error ⟨"object has no attribute 'startswith'", none⟩) none =
      (routes.foldlM (fun _ route => do
        let _ ← validateRoutePrefix route.pathPrefix
        .error ⟨"object has no attribute 'startswith'", none⟩) none :
          Checked (Option Route)).map (Option.map Route.bare) := by
    intro routes
    cases routes with
    | nil => rfl
    | cons route rest =>
      rw [List.map_cons, List.foldlM_cons, List.foldlM_cons]
      change ((validateRoutePrefix route.pathPrefix >>= _) >>= _) =
        Except.map _ ((validateRoutePrefix route.pathPrefix >>= _) >>= _)
      cases validateRoutePrefix route.pathPrefix <;> rfl
  cases path with
  | str text => exact longestRoute_bare text.toList routes
  | _ => exact hother routes

theorem routedQuietPart_bare (routes : List Route) (path : Json) :
    routedQuietPart settings knobs.bare (routes.map Route.bare) path.canonical =
      routedQuietPart settings knobs routes path := by
  unfold routedQuietPart
  rw [coveringRoute_bare]
  cases coveringRoute path routes with
  | error refusal => rfl
  | ok found =>
    cases found with
    | none => rfl
    | some route => exact quietPart_bare path (some route.upstream)

theorem routedReceiverPart_bare (routes : List Route) :
    routedReceiverPart settings knobs.bare (routes.map Route.bare) =
      routedReceiverPart settings knobs routes := by
  unfold routedReceiverPart
  rw [longestRoute_bare]
  cases longestRoute receiverPath.toList routes with
  | error refusal => rfl
  | ok found =>
    cases found with
    | none => rfl
    | some route => exact receiverPart_bare (some route.upstream)

theorem routePart_bare (route : Route) :
    routePart settings knobs.bare route.bare = routePart settings knobs route := rfl

/-! ### Values that are canonical -/

theorem familiesOf_canonical (value : Option Json) :
    familiesOf (value.map Json.canonical) = familiesOf value := by
  have hfamily (item : Json) : familyOf item.canonical = familyOf item := by
    simp only [familyOf, Json.isText_canonical]
  have hitems (items : List Json) : (items.map Json.canonical).mapM familyOf =
      items.mapM familyOf := by
    induction items with
    | nil => rfl
    | cons item rest ih => rw [List.map_cons, List.mapM_cons, List.mapM_cons, ih, hfamily]
  cases value with
  | none => rfl
  | some value =>
    cases value with
    | arr items =>
      change familiesOf (some (.arr (Json.canonicalItems items))) = _
      rw [Json.canonicalItems_eq, familiesOf, hitems]
      rfl
    | _ => rfl

theorem validateMojosecPolicy_canonical (value : Json) :
    validateMojosecPolicy value.canonical = validateMojosecPolicy value := by
  cases value with
  | obj fields =>
    cases fields with
    | nil => rfl
    | cons field rest =>
      have hall := Json.sortedFields_all (field :: rest) (fun key => key ∈ policyKeys)
      have hfield := Json.field_sortedFields (field :: rest)
      change validateMojosecPolicy (.obj (Json.sortedFields (field :: rest))) = _
      obtain ⟨head, tail, hsorted⟩ : ∃ head tail,
          Json.sortedFields (field :: rest) = head :: tail :=
        List.exists_cons_of_ne_nil fun hnil =>
          List.cons_ne_nil field rest (Json.sortedFields_eq_nil.mp hnil)
      rw [hsorted] at hall hfield ⊢
      have hclass (found : Option Json) : (found.map Json.canonical).bind responseClassOf =
          found.bind responseClassOf := by
        cases found with
        | none => rfl
        | some value => simp only [Option.map_some, Option.bind_some, responseClassOf,
            Json.isText_canonical]
      simp only [validateMojosecPolicy, hall, hfield, Option.isSome_map, familiesOf_canonical,
        hclass]
      cases JsonFields.field (field :: rest) "version" with
      | none => rfl
      | some version => cases version <;> rfl
  | _ => rfl

theorem toOption_bind {Error First Second : Type} (first : Except Error First)
    (next : First → Except Error Second) :
    (first >>= next).toOption = first.toOption.bind fun value => (next value).toOption := by
  cases first <;> rfl

theorem toOption_ok {Error Value : Type} (value : Value) :
    (Except.ok value : Except Error Value).toOption = some value := rfl

theorem safe_canonical (value : Json) (pattern : List Char → Bool) (what : String) :
    (safe value.canonical pattern what).toOption = (safe value pattern what).toOption := by
  cases value <;> rfl

theorem tlsBlock_bare (generation : Nginx.Word) (certificate : Nat) :
    (tlsBlock settings knobs.bare generation certificate).toOption =
      (tlsBlock settings knobs generation certificate).toOption := by
  unfold tlsBlock
  simp only [toOption_bind]
  rw [show knobs.bare.tlsProtocols = knobs.tlsProtocols.canonical from rfl,
    show knobs.bare.tlsCiphers = knobs.tlsCiphers.canonical from rfl, safe_canonical,
    safe_canonical]

/-! ### Whole virtual hosts -/

structure Described (settings : Settings) (vhost row : Vhost) (contract : Option Upstream)
    (paths : List Json) (name : String) : Prop where
  contracted : renderedContract settings vhost (sortedRoutes vhost) = .ok contract
  sorted : sortedPaths vhost.quietPaths = .ok paths
  named : vhost.serverName = .ok name
  made : row = {
    pk := vhost.pk
    domain := ⟨0, name, none⟩
    kind := vhost.kind
    upstream := vhost.upstream.map Upstream.bare
    certificate := { pk := vhost.certificate.pk, domain := 0 }
    pool := vhost.pool
    spa := vhost.spa
    bodySizeMb := vhost.bodySizeMb
    quietPaths := .arr (paths.map Json.canonical)
    serveStatic := vhost.serveStatic
    mojosecPolicy := vhost.mojosecPolicy.canonical
    redirectTo := vhost.redirectTo
    routes := (sortedRoutes vhost).map Route.bare
    webApp := contract.map fun _ => ⟨[], none⟩ }

theorem described_row {vhost : Vhost} {payload : VhostPayload}
    (hpayload : vhostPayload settings vhost = .ok payload) : ∃ contract paths name,
      Described settings vhost payload.canonical.row contract paths name := by
  simp only [vhostPayload, bind_ok, pure_ok] at hpayload
  obtain ⟨contract, hcontract, name, hname, paths, hpaths, rfl⟩ := hpayload
  refine ⟨contract, paths, name, hcontract, hpaths, hname, ?_⟩
  simp only [VhostPayload.row, VhostPayload.canonical, Option.map_map, List.map_map]
  rfl

theorem serverName_ne_empty {vhost : Vhost} {name : String} (hname : vhost.serverName = .ok name) :
    name ≠ "" := by
  rw [Vhost.serverName, serverNameFor] at hname
  split at hname
  next => cases hname
  next hdomain =>
    split at hname <;> cases hname
    next => exact hdomain
    next =>
      intro hempty
      have hlength := congrArg String.length hempty
      simp [String.length_append] at hlength

namespace Described

variable {vhost row : Vhost} {contract : Option Upstream} {paths : List Json} {name : String}

theorem serverName_eq (hrow : Described settings vhost row contract paths name) :
    row.serverName = .ok name := by
  rw [hrow.made]
  change (if name = "" then _ else _) = _
  rw [if_neg (serverName_ne_empty hrow.named)]
  rfl

theorem sortedRoutes_eq (hrow : Described settings vhost row contract paths name) :
    sortedRoutes row = (sortedRoutes vhost).map Route.bare := by
  rw [hrow.made, sortedRoutes]
  refine List.Pairwise.insertionSort_eq ?_
  rw [List.pairwise_map]
  exact (List.pairwise_insertionSort _ vhost.routes).imp fun hle => hle

theorem renderedContract_eq (hrow : Described settings vhost row contract paths name) :
    renderedContract settings row (sortedRoutes row) = .ok (contract.map Upstream.bare) := by
  have hcontract := hrow.contracted
  have hkind : row.kind = vhost.kind := by rw [hrow.made]
  have happ : owningApp row = contract.map fun _ => ⟨[], none⟩ := by
    rw [hrow.made, owningApp]
    cases contract <;> rfl
  rw [renderedContract] at hcontract ⊢
  rw [hrow.sortedRoutes_eq, hkind, happ]
  by_cases hsite : vhost.kind ≠ .siteApi
  · rw [if_pos hsite] at hcontract ⊢
    cases hcontract
    rfl
  rw [if_neg hsite] at hcontract ⊢
  by_cases howned : (owningApp vhost).isNone
  · simp only [howned, if_true] at hcontract
    cases hcontract
    rfl
  simp only [howned, if_false, Bool.false_eq_true, bind_ok, pure_ok] at hcontract
  obtain ⟨loginPath, hlogin, rfl⟩ := hcontract
  have hfind : ((sortedRoutes vhost).map Route.bare).find? (fun route =>
      route.pathPrefix = loginPath) = ((sortedRoutes vhost).find? fun route =>
        route.pathPrefix = loginPath).map Route.bare := by
    rw [List.find?_map]
    rfl
  cases hfound : (sortedRoutes vhost).find? fun route => route.pathPrefix = loginPath with
  | none => rfl
  | some route =>
    simp only [Option.map_some, Option.isNone_some, Bool.false_eq_true, if_false, hlogin]
    change Except.ok _ = Except.ok _
    rw [hfind, hfound]
    rfl

theorem serverHead_eq (hrow : Described settings vhost row contract paths name)
    (generation : Nginx.Word) (text : String) :
    (serverHead settings knobs.bare row generation text).toOption =
      (serverHead settings knobs vhost generation text).toOption := by
  have himpossible : impossiblePathLocations row = impossiblePathLocations vhost := by
    rw [impossiblePathLocations, impossiblePathLocations, hrow.made,
      validateMojosecPolicy_canonical]
  have hsize : safeBodySize row = safeBodySize vhost := by
    rw [hrow.made]
    rfl
  have hcertificate : row.certificate.pk = vhost.certificate.pk := by rw [hrow.made]
  unfold serverHead
  simp only [toOption_bind, tlsBlock_bare, himpossible, hsize, hcertificate]

theorem quietParts_eq (hrow : Described settings vhost row contract paths name)
    (part part' : Json → Checked (List String))
    (hpart : ∀ path, part' path.canonical = part path) :
    (quietPathsToRender row >>= fun found => found.mapM part') =
      (quietPathsToRender vhost >>= fun found => found.mapM part) := by
  have hmade : row.quietPaths = .arr (paths.map Json.canonical) := by rw [hrow.made]
  have hmap (found : List Json) : (found.map Json.canonical).mapM part' = found.mapM part := by
    induction found with
    | nil => rfl
    | cons path rest ih => rw [List.map_cons, List.mapM_cons, List.mapM_cons, ih, hpart]
  rw [quietPathsToRender_bare hrow.sorted hmade]
  cases quietPathsToRender vhost with
  | error refusal => rfl
  | ok found => exact hmap found

theorem siteBody_eq (hrow : Described settings vhost row contract paths name)
    (generation : Nginx.Word) :
    siteBody settings row generation = siteBody settings vhost generation := by
  rw [hrow.made]
  rfl

theorem staticPart_eq (hrow : Described settings vhost row contract paths name) (path : String) :
    staticPart knobs.bare row path = staticPart knobs vhost path := by
  rw [hrow.made]
  rfl

theorem renderApi_eq (hrow : Described settings vhost row contract paths name)
    (generation : Nginx.Word) (text : String) :
    (renderApi settings knobs.bare row generation text).toOption =
      (renderApi settings knobs vhost generation text).toOption := by
  have hupstream : row.upstream = vhost.upstream.map Upstream.bare := by rw [hrow.made]
  have hquiet := congrArg Except.toOption <| hrow.quietParts_eq
    (fun path => quietPart settings knobs path vhost.upstream)
    (fun path => quietPart settings knobs.bare path (vhost.upstream.map Upstream.bare))
    fun path => quietPart_bare path vhost.upstream
  unfold renderApi
  rw [hupstream]
  simp only [← bind_assoc]
  simp only [toOption_bind, hrow.serverHead_eq, receiverPart_bare, proxyLocationBody_bare,
    hrow.staticPart_eq] at hquiet ⊢
  simp only [hquiet]

theorem renderSite_eq (hrow : Described settings vhost row contract paths name)
    (generation : Nginx.Word) (text : String) :
    (renderSite settings knobs.bare row generation text).toOption =
      (renderSite settings knobs vhost generation text).toOption := by
  unfold renderSite
  simp only [toOption_bind, hrow.serverHead_eq, hrow.siteBody_eq]

theorem renderSiteApi_eq (hrow : Described settings vhost row contract paths name)
    (generation : Nginx.Word) (text : String) :
    (renderSiteApi settings knobs.bare row generation text).toOption =
      (renderSiteApi settings knobs vhost generation text).toOption := by
  have hquiet := congrArg Except.toOption <| hrow.quietParts_eq
    (routedQuietPart settings knobs (sortedRoutes vhost))
    (routedQuietPart settings knobs.bare ((sortedRoutes vhost).map Route.bare))
    fun path => routedQuietPart_bare (sortedRoutes vhost) path
  have hproxied : ((sortedRoutes vhost).map Route.bare).mapM (routePart settings knobs.bare) =
      (sortedRoutes vhost).mapM (routePart settings knobs) := by
    induction sortedRoutes vhost with
    | nil => rfl
    | cons route rest ih =>
      rw [List.map_cons, List.mapM_cons, List.mapM_cons, ih, routePart_bare]
  unfold renderSiteApi
  simp only [← bind_assoc]
  rw [hrow.renderedContract_eq, hrow.contracted, hrow.sortedRoutes_eq]
  simp only [toOption_bind, toOption_ok, Option.bind_some, hrow.serverHead_eq, hrow.siteBody_eq,
    routedReceiverPart_bare, honeypotParts_bare, hproxied, hrow.staticPart_eq] at hquiet ⊢
  simp only [hquiet]

theorem renderRedirect_eq (hrow : Described settings vhost row contract paths name)
    (generation : Nginx.Word) (text : String) :
    (renderRedirect settings knobs.bare row generation text).toOption =
      (renderRedirect settings knobs vhost generation text).toOption := by
  have htarget : row.redirectTo = vhost.redirectTo := by rw [hrow.made]
  unfold renderRedirect
  simp only [toOption_bind, hrow.serverHead_eq, htarget]

theorem renderKind_eq (hrow : Described settings vhost row contract paths name)
    (generation : Nginx.Word) (text : String) :
    (renderKind settings knobs.bare row generation text).toOption =
      (renderKind settings knobs vhost generation text).toOption := by
  have hkind : row.kind = vhost.kind := by rw [hrow.made]
  unfold renderKind
  rw [hkind]
  cases vhost.kind with
  | site => exact hrow.renderSite_eq generation text
  | api => exact hrow.renderApi_eq generation text
  | siteApi => exact hrow.renderSiteApi_eq generation text
  | redirect => exact hrow.renderRedirect_eq generation text
  | other kind => rfl

/-- A virtual host renders as the row that its payload describes. -/
theorem renderVhost_eq (hrow : Described settings vhost row contract paths name)
    (generation : Nginx.Word) :
    (renderVhost settings knobs.bare row generation).toOption =
      (renderVhost settings knobs vhost generation).toOption := by
  have hwebroot (rendered : List String) (text : String) :
      (if knobs.bare.httpEnabled then rendered ++ port80Block text knobs.bare.acmeWebroot
        else rendered) =
      if knobs.httpEnabled then rendered ++ port80Block text knobs.acmeWebroot else rendered := by
    change (if knobs.httpEnabled then _ else _) = _
    by_cases henabled : knobs.httpEnabled
    · have hroot : knobs.bare.acmeWebroot = knobs.acmeWebroot := by
        change (Option.getD (if knobs.httpEnabled then _ else _) _) = _
        rw [if_pos henabled]
        rfl
      rw [if_pos henabled, if_pos henabled, hroot]
    · rw [if_neg henabled, if_neg henabled]
  unfold renderVhost
  rw [hrow.serverName_eq, hrow.named]
  simp only [toOption_bind, hrow.renderKind_eq, hwebroot]

theorem vhostEvidence_eq (hrow : Described settings vhost row contract paths name) :
    vhostEvidence row = vhostEvidence vhost := by
  have hpk : row.pk = vhost.pk := by rw [hrow.made]
  have hpolicy : validateMojosecPolicy row.mojosecPolicy =
      validateMojosecPolicy vhost.mojosecPolicy := by
    rw [hrow.made, validateMojosecPolicy_canonical]
  unfold vhostEvidence
  rw [hpolicy, hrow.serverName_eq, hrow.named, hpk]

theorem confName_eq (hrow : Described settings vhost row contract paths name) :
    row.confName = vhost.confName := by
  rw [hrow.made]
  rfl

theorem upstreams_eq (hrow : Described settings vhost row contract paths name) :
    row.upstreams = vhost.upstream.toList.map Upstream.bare ++
      (sortedRoutes vhost).map fun route => route.upstream.bare := by
  rw [hrow.made]
  simp only [Vhost.upstreams, List.map_map, Option.toList_map]
  rfl

end Described

end DjangoMojo.Edge
