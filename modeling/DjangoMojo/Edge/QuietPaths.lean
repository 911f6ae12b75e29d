import DjangoMojo.Edge.Locations
import DjangoMojo.Foundation.NginxLocations
import Mathlib.Data.String.Basic

/-! # A quiet path and its handler

A quiet path is there to keep requests out of the main log. Its exact location proxies
to the upstream that the renderer takes to be the handler of the path: the upstream of
the row, or the one of the longest route. The static files are no route, and other
producers have exact locations of their own, so nginx may have chosen another handler.
-/

namespace DjangoMojo.Edge

open Foundation Nginx

/-! ### The handler of a request -/

inductive Handler where
  | proxy (target : String)
  | alias (root : String)
  | files
  deriving DecidableEq, Repr

def handlerOf (body : List Directive) : Handler :=
  (body.findSome? fun
    | .simple ["proxy_pass", target] => some (.proxy target)
    | .simple ["alias", root] => some (.alias root)
    | _ => none).getD .files

def modifierOf (word : String) : Modifier :=
  if word = "=" then .exact else if word = "^~" then .final else .pattern

def locationWords : List String → Option (Modifier × String)
  | ["location", path] => some (.leading, path)
  | ["location", modifier, path] => some (modifierOf modifier, path)
  | _ => none

def locationOf : Directive → Option (Location Handler)
  | .block words body =>
    (locationWords words).map fun found => ⟨found.1, found.2, handlerOf body⟩
  | .simple _ => none

def locationsOf (body : List Directive) : List (Location Handler) := body.filterMap locationOf

variable (pcre : String → String → Bool)

/-- nginx refuses a block with a location twice; nothing is served from it. -/
def blockHandler (body : List Directive) (path : String) : Option Handler :=
  if (blockKeys body).Nodup then
    (selectLocation pcre (locationsOf body) path).map Location.handler
  else none

/-- The handler of a request path in the first server block of a file. -/
def handlerAt (lines : List String) (path : String) : Option Handler :=
  match parse (joined lines) with
  | some (.block ["server"] body :: _) => blockHandler pcre body path
  | _ => none

def Vhost.withQuiet (vhost : Vhost) (paths : List String) : Vhost :=
  { vhost with quietPaths := .arr (paths.map .str) }

/-! ### Keys -/

def keyPair : LocationKey → LocationClass × String
  | .exact path => (.exact, path)
  | .leading path => (.leading, path)
  | .pattern path => (.pattern, path)

theorem keyPair_injective : Function.Injective keyPair := by
  intro first second hsame
  cases first <;> cases second <;> simp_all [keyPair]

theorem locationKey_eq (words : List String) (handler : Handler) :
    locationKey words = (locationWords words).map fun found =>
      keyPair (Location.mk found.1 found.2 handler).key := by
  unfold locationKey
  split
  next => rfl
  next modifier path =>
    by_cases hexact : modifier = "="
    · simp [hexact, locationWords, modifierOf, Location.key, keyPair]
    · by_cases hfinal : modifier = "^~"
      · simp [hfinal, locationWords, modifierOf, Location.key, keyPair]
      · simp [hexact, hfinal, locationWords, modifierOf, Location.key, keyPair]
  next hone htwo =>
    have hnone : locationWords words = none := by
      unfold locationWords
      split
      next path => exact absurd rfl (hone path)
      next modifier path => exact absurd rfl (htwo modifier path)
      next => rfl
    rw [hnone]
    rfl

theorem blockKeys_eq (body : List Directive) :
    blockKeys body = ((locationsOf body).map Location.key).map keyPair := by
  rw [locationsOf, List.map_map, List.map_filterMap, blockKeys]
  apply List.filterMap_congr
  intro directive _
  cases directive with
  | simple words => rfl
  | block words body =>
    change locationKey words = _
    rw [locationKey_eq words (handlerOf body), locationOf, Option.map_map]
    rfl

theorem blockKeys_nodup_iff (body : List Directive) :
    (blockKeys body).Nodup ↔ ((locationsOf body).map Location.key).Nodup := by
  rw [blockKeys_eq]
  exact List.nodup_map_iff keyPair_injective

theorem exact_mem_keys {body : List Directive} {path : String} :
    LocationKey.exact path ∈ (locationsOf body).map Location.key ↔
      path ∈ pathsOf .exact (blockKeys body) := by
  rw [mem_pathsOf, blockKeys_eq]
  exact (List.mem_map_of_injective keyPair_injective (a := .exact path)).symm

/-! ### The locations of a row -/

variable {settings : Settings} {knobs : Knobs} {vhost : Vhost}

def proxied (upstream : Upstream) : Handler := .proxy ("http://edge_up_" ++ toString upstream.pk)

def staticHandler (knobs : Knobs) : Handler := .alias (knobs.djangoStaticRoot.text ++ "/")

@[simp] theorem locationsOf_append (first second : List Directive) :
    locationsOf (first ++ second) = locationsOf first ++ locationsOf second :=
  List.filterMap_append

theorem locationsOf_headTrees (ciphers : List String) (generation : Word) (serverName : String) :
    locationsOf (headTrees settings knobs ciphers vhost generation serverName) = [] := by
  have hkeys := @blockKeys_headTrees settings knobs ciphers vhost generation serverName
  rw [blockKeys_eq, List.map_eq_nil_iff, List.map_eq_nil_iff] at hkeys
  exact hkeys

theorem locationsOf_quiet (upstream : Upstream) (paths : List String) :
    locationsOf (paths.map (quietTree knobs upstream)) =
      paths.map fun path => ⟨.exact, path, proxied upstream⟩ := by
  rw [locationsOf, List.filterMap_map, ← List.filterMap_eq_map]
  rfl

theorem locationsOf_receiver (upstream : Upstream) :
    locationsOf (if knobs.mojosecMode = .observe then receiverTrees knobs upstream else []) =
      (receiverPaths knobs).map fun path => ⟨.exact, path, proxied upstream⟩ := by
  unfold receiverPaths
  split <;> rfl

theorem locationsOf_apiTrees {upstream : Upstream} (hupstream : vhost.upstream = some upstream) :
    locationsOf (apiTrees knobs vhost) =
      (quietNames vhost ++ receiverPaths knobs).map
        (fun path => ⟨.exact, path, proxied upstream⟩) ++
      (staticPaths vhost).map (fun path => ⟨.leading, path, staticHandler knobs⟩) ++
      [⟨.leading, "/", proxied upstream⟩] := by
  have hstatic : locationsOf (staticTrees knobs [] vhost) =
      (staticPaths vhost).map fun path => ⟨.leading, path, staticHandler knobs⟩ := by
    unfold staticTrees staticPaths
    split <;> rfl
  have hroot : locationsOf [.block ["location", "/"] (proxyTrees knobs upstream)] =
      [⟨.leading, "/", proxied upstream⟩] := rfl
  rw [apiTrees, hupstream]
  simp only [locationsOf_append, locationsOf_quiet, locationsOf_receiver, hstatic, hroot,
    List.map_append, List.append_assoc]

theorem locationsOf_siteTrees (generation : Word) :
    locationsOf (siteTrees settings vhost generation) =
      [⟨.pattern, assetPattern, .files⟩, ⟨.leading, "/", .files⟩] := by
  unfold siteTrees
  split <;> rfl

def routedLocation (routes : List Route) (path : String) : List (Location Handler) :=
  match found (longestRoute path.toList routes) with
  | none => []
  | some route => [⟨.exact, path, proxied route.upstream⟩]

theorem locationsOf_routedQuiet (routes : List Route) (paths : List String) :
    locationsOf (paths.flatMap (routedQuietTrees knobs routes)) =
      paths.flatMap (routedLocation routes) := by
  induction paths with
  | nil => rfl
  | cons path rest ih =>
    rw [List.flatMap_cons, locationsOf_append, ih, List.flatMap_cons, routedQuietTrees,
      routedLocation]
    cases found (longestRoute path.toList routes) with
    | none => rfl
    | some route => rfl

def ExactOnly (locations : List (Location Handler)) : Prop :=
  ∀ location ∈ locations, location.modifier = .exact

theorem exactOnly_routedQuiet (routes : List Route) (paths : List String) :
    ExactOnly (paths.flatMap (routedLocation routes)) := by
  intro location hlocation
  obtain ⟨path, _, hpath⟩ := List.mem_flatMap.mp hlocation
  unfold routedLocation at hpath
  split at hpath
  next => cases hpath
  next => rw [List.mem_singleton.mp hpath]

theorem exactOnly_routedReceiver (routes : List Route) :
    ExactOnly (locationsOf (routedReceiverTrees knobs routes)) := by
  unfold routedReceiverTrees
  split
  next => exact nofun
  next route _ =>
    rw [locationsOf_receiver]
    intro location hlocation
    obtain ⟨path, _, rfl⟩ := List.mem_map.mp hlocation
    rfl

theorem exactOnly_honeypots (routes : List Route) :
    ExactOnly (locationsOf (honeypotTrees settings knobs vhost routes)) := by
  unfold honeypotTrees
  split
  next => exact nofun
  next upstream _ =>
    rw [locationsOf, List.filterMap_map]
    intro location hlocation
    obtain ⟨path, _, hpath⟩ := List.mem_filterMap.mp hlocation
    cases hpath
    rfl

theorem locationsOf_siteApiTrees (generation : Word) :
    locationsOf (siteApiTrees settings knobs vhost generation) =
      (quietNames vhost).flatMap (routedLocation (sortedRoutes vhost)) ++
      locationsOf (routedReceiverTrees knobs (sortedRoutes vhost)) ++
      (staticPaths vhost).map (fun path => ⟨.final, path, staticHandler knobs⟩) ++
      locationsOf (honeypotTrees settings knobs vhost (sortedRoutes vhost)) ++
      (sortedRoutes vhost).map (fun route => ⟨.final, route.pathPrefix, proxied route.upstream⟩) ++
      [⟨.pattern, assetPattern, .files⟩, ⟨.leading, "/", .files⟩] := by
  have hstatic : locationsOf (staticTrees knobs ["^~"] vhost) =
      (staticPaths vhost).map fun path => ⟨.final, path, staticHandler knobs⟩ := by
    unfold staticTrees staticPaths
    split <;> rfl
  have hroutes (routes : List Route) : locationsOf (routes.map fun route =>
      .block ["location", "^~", route.pathPrefix] (proxyTrees knobs route.upstream)) =
      routes.map fun route => ⟨.final, route.pathPrefix, proxied route.upstream⟩ := by
    rw [locationsOf, List.filterMap_map, ← List.filterMap_eq_map]
    rfl
  rw [siteApiTrees]
  simp only [locationsOf_append, locationsOf_routedQuiet, hstatic, hroutes, locationsOf_siteTrees]

/-! ### Rows whose producers share no path -/

/-- The paths that the producers of a row have exact locations for. -/
def exactPaths (settings : Settings) (knobs : Knobs) (vhost : Vhost) : List String :=
  match vhost.kind with
  | .siteApi => routedQuiet vhost ++ routedReceiver knobs vhost ++ honeypotNames settings vhost
  | _ => quietNames vhost ++ receiverPaths knobs

/-- The paths of the locations that are found by their first characters. -/
def leadingPaths (vhost : Vhost) : List String :=
  match vhost.kind with
  | .siteApi => staticPaths vhost ++ (sortedRoutes vhost).map Route.pathPrefix ++ ["/"]
  | _ => staticPaths vhost ++ ["/"]

structure PathsApart (settings : Settings) (knobs : Knobs) (vhost : Vhost) : Prop where
  exact : (exactPaths settings knobs vhost).Nodup
  leading : (leadingPaths vhost).Nodup

theorem bodyTrees_api {generation : Word} (hkind : vhost.kind = .api) :
    bodyTrees settings knobs vhost generation = apiTrees knobs vhost := by
  rw [bodyTrees, hkind]

theorem bodyTrees_siteApi {generation : Word} (hkind : vhost.kind = .siteApi) :
    bodyTrees settings knobs vhost generation = siteApiTrees settings knobs vhost generation := by
  rw [bodyTrees, hkind]

/-- A proxied row: one that has an upstream, or that proxies by route. -/
def Proxied (vhost : Vhost) : Prop :=
  (vhost.kind = .api ∧ vhost.upstream.isSome) ∨ vhost.kind = .siteApi

theorem pathsOf_bodyTrees (hproxied : Proxied vhost) (generation : Word) :
    pathsOf .exact (blockKeys (bodyTrees settings knobs vhost generation)) =
        exactPaths settings knobs vhost ∧
      pathsOf .leading (blockKeys (bodyTrees settings knobs vhost generation)) =
        leadingPaths vhost ∧
      (pathsOf .pattern (blockKeys (bodyTrees settings knobs vhost generation))).Nodup := by
  have hlast (location : LocationClass) :
      pathsOf location [(.pattern, assetPattern), (.leading, "/")] =
        (if LocationClass.pattern = location then [assetPattern] else []) ++
          if LocationClass.leading = location then ["/"] else [] := by
    cases location <;> rfl
  rcases hproxied with ⟨hkind, hsome⟩ | hkind
  · obtain ⟨upstream, hupstream⟩ := Option.isSome_iff_exists.mp hsome
    simp only [bodyTrees, exactPaths, leadingPaths, hkind, blockKeys_apiTrees hupstream,
      pathsOf_append, pathsOf_map]
    simp
  · simp only [bodyTrees, exactPaths, leadingPaths, hkind, blockKeys_siteApiTrees,
      pathsOf_append, pathsOf_map, hlast]
    simp

theorem bodyKeys_nodup_iff (hproxied : Proxied vhost) (generation : Word) :
    (blockKeys (bodyTrees settings knobs vhost generation)).Nodup ↔
      PathsApart settings knobs vhost := by
  obtain ⟨hexact, hleading, hpattern⟩ :=
    @pathsOf_bodyTrees settings knobs vhost hproxied generation
  rw [nodup_iff_pathsOf]
  constructor
  · intro hall
    exact ⟨hexact ▸ hall .exact, hleading ▸ hall .leading⟩
  · intro hapart location
    cases location with
    | exact =>
      rw [hexact]
      exact hapart.exact
    | leading =>
      rw [hleading]
      exact hapart.leading
    | pattern => exact hpattern

/-! ### The handler without a location of its own -/

/-- The longest route is one that covers the path, and none that covers it is longer. -/
theorem longestRoute_spec {path : List Char} {routes : List Route} {before result : Option Route}
    (hok : (routes.foldlM (fun found route => do
      let pathPrefix ← validateRoutePrefix route.pathPrefix
      if pathPrefix.toList.isPrefixOf path &&
          found.all fun other => other.pathPrefix.length < pathPrefix.length then
        return some route
      else return found) before : Checked (Option Route)) = .ok result) :
    (∀ route, result = some route →
      before = some route ∨ (route ∈ routes ∧ route.pathPrefix.toList <+: path)) ∧
    ∀ other, before = some other ∨ (other ∈ routes ∧ other.pathPrefix.toList <+: path) →
      ∃ route, result = some route ∧ other.pathPrefix.length ≤ route.pathPrefix.length := by
  induction routes generalizing before with
  | nil =>
    cases hok
    refine ⟨fun route hroute => .inl hroute, fun other hother => ?_⟩
    rcases hother with hother | ⟨hmem, _⟩
    · exact ⟨other, hother, le_rfl⟩
    · cases hmem
  | cons first rest ih =>
    rw [List.foldlM_cons] at hok
    simp only [bind_ok] at hok
    obtain ⟨middle, ⟨pathPrefix, hvalid, hmiddle⟩, hok⟩ := hok
    obtain ⟨rfl, _, _⟩ := validateRoutePrefix_ok hvalid
    obtain ⟨hsource, hlongest⟩ := ih hok
    by_cases hcovers : (first.pathPrefix.toList.isPrefixOf path &&
        before.all fun other => other.pathPrefix.length < first.pathPrefix.length) = true
    · rw [if_pos hcovers, pure_ok] at hmiddle
      subst hmiddle
      rw [Bool.and_eq_true, List.isPrefixOf_iff_prefix] at hcovers
      obtain ⟨hhead, hshorter⟩ := hcovers
      constructor
      · intro route hroute
        rcases hsource route hroute with hfirst | ⟨hmem, hrest⟩
        · cases hfirst
          exact .inr ⟨List.mem_cons_self, hhead⟩
        · exact .inr ⟨List.mem_cons_of_mem _ hmem, hrest⟩
      · intro other hother
        obtain ⟨route, hroute, hle⟩ := hlongest first (.inl rfl)
        rcases hother with rfl | ⟨hmem, hother⟩
        · have hlt : other.pathPrefix.length < first.pathPrefix.length := by
            simpa using hshorter
          exact ⟨route, hroute, hlt.le.trans hle⟩
        · rcases List.mem_cons.mp hmem with rfl | hmem
          · exact ⟨route, hroute, hle⟩
          · exact hlongest other (.inr ⟨hmem, hother⟩)
    · rw [if_neg hcovers, pure_ok] at hmiddle
      subst hmiddle
      constructor
      · intro route hroute
        rcases hsource route hroute with hbefore | ⟨hmem, hrest⟩
        · exact .inl hbefore
        · exact .inr ⟨List.mem_cons_of_mem _ hmem, hrest⟩
      · intro other hother
        rcases hother with hbefore | ⟨hmem, hother⟩
        · exact hlongest other (.inl hbefore)
        · rcases List.mem_cons.mp hmem with rfl | hmem
          · -- The route covers the path, so one found before is at least as long.
            rw [Bool.and_eq_true, not_and, List.isPrefixOf_iff_prefix] at hcovers
            have hpassed := hcovers hother
            cases before with
            | none => exact absurd rfl hpassed
            | some longer =>
              obtain ⟨route, hroute, hle⟩ := hlongest longer (.inl rfl)
              have hlonger : other.pathPrefix.length ≤ longer.pathPrefix.length := by
                simpa using hpassed
              exact ⟨route, hroute, hlonger.trans hle⟩
          · exact hlongest other (.inr ⟨hmem, hother⟩)

theorem longestRoute_found {path : List Char} {routes : List Route} {route : Route}
    (hfound : found (longestRoute path routes) = some route) :
    route ∈ routes ∧ route.pathPrefix.toList <+: path ∧
      ∀ other ∈ routes, other.pathPrefix.toList <+: path →
        other.pathPrefix.length ≤ route.pathPrefix.length := by
  cases hok : longestRoute path routes with
  | error refusal =>
    rw [hok] at hfound
    cases hfound
  | ok result =>
    rw [hok] at hfound
    change result = some route at hfound
    obtain ⟨hsource, hlongest⟩ := longestRoute_spec hok
    rcases hsource route hfound with hnone | ⟨hmem, hcovers⟩
    · cases hnone
    · refine ⟨hmem, hcovers, fun other hother hprefix => ?_⟩
      obtain ⟨longest, hlongest, hle⟩ := hlongest other (.inr ⟨hother, hprefix⟩)
      cases hfound.symm.trans hlongest
      exact hle

def StaticWins (vhost : Vhost) (path : String) : Prop :=
  vhost.serveStatic = true ∧ "/static/".toList <+: path.toList ∧
    (vhost.kind = .siteApi → ∀ route ∈ vhost.routes,
      route.pathPrefix.toList <+: path.toList → route.pathPrefix.length < "/static/".length)

theorem mem_staticPaths {path : String} :
    path ∈ staticPaths vhost ↔ vhost.serveStatic = true ∧ path = "/static/" := by
  unfold staticPaths
  split
  next hstatic => simp [hstatic]
  next hnone => simp [hnone]

theorem not_covers_exact {location : Location Handler} {path : String}
    (hexact : location.modifier = .exact) : location.covers path = false := by
  simp [Location.covers, hexact]

theorem prefix_of_covers {location : Location Handler} {path other : String}
    (hcovers : location.covers path = true) (hsame : location.path = other) :
    other.toList <+: path.toList := by
  rw [← hsame]
  exact List.isPrefixOf_iff_prefix.mp (Bool.and_eq_true_iff.mp hcovers).2

/-- A row that proxies everything: the static files, or the upstream. -/
theorem inexact_api {upstream : Upstream} {path : String} {generation : Word}
    (hkind : vhost.kind = .api) (hupstream : vhost.upstream = some upstream)
    (hkeys : (blockKeys (bodyTrees settings knobs vhost generation)).Nodup)
    (hroot : ['/'] <+: path.toList) :
    ∃ location, inexactLocation pcre (locationsOf (bodyTrees settings knobs vhost generation))
        path = some location ∧
      (StaticWins vhost path → location.handler = staticHandler knobs) ∧
      (¬StaticWins vhost path → location.handler = proxied upstream) := by
  rw [blockKeys_nodup_iff] at hkeys
  have hlocations := @locationsOf_apiTrees knobs vhost upstream hupstream
  rw [bodyTrees_api hkind, hlocations] at hkeys ⊢
  have hpatterns : ∀ other ∈ (quietNames vhost ++ receiverPaths knobs).map
      (fun path => (⟨.exact, path, proxied upstream⟩ : Location Handler)) ++
      (staticPaths vhost).map (fun path => ⟨.leading, path, staticHandler knobs⟩) ++
      [⟨.leading, "/", proxied upstream⟩], other.modifier ≠ .pattern := by
    intro other hother
    simp only [List.mem_append, List.mem_map, List.mem_singleton] at hother
    rcases hother with (⟨_, _, rfl⟩ | ⟨_, _, rfl⟩) | rfl <;> simp
  by_cases hwins : StaticWins vhost path
  · refine ⟨⟨.leading, "/static/", staticHandler knobs⟩, ?_, fun _ => rfl,
      fun hnot => absurd hwins hnot⟩
    refine inexactLocation_longest (longestLocation_of_mem hkeys ?_ ?_ ?_) hpatterns
    · simp [mem_staticPaths, hwins.1]
    · simpa [Location.covers] using hwins.2.1
    · intro other hother hcovers
      simp only [List.mem_append, List.mem_map, List.mem_singleton, mem_staticPaths] at hother
      rcases hother with (⟨_, _, rfl⟩ | ⟨_, ⟨_, rfl⟩, rfl⟩) | rfl
      · rw [not_covers_exact rfl] at hcovers
        cases hcovers
      · exact le_rfl
      · change "/".length ≤ "/static/".length
        decide
  · refine ⟨⟨.leading, "/", proxied upstream⟩, ?_, fun hstatic => absurd hstatic hwins,
      fun _ => rfl⟩
    refine inexactLocation_longest (longestLocation_of_mem hkeys ?_ ?_ ?_) hpatterns
    · simp
    · simpa [Location.covers] using hroot
    · intro other hother hcovers
      simp only [List.mem_append, List.mem_map, List.mem_singleton, mem_staticPaths] at hother
      rcases hother with (⟨_, _, rfl⟩ | ⟨_, ⟨hstatic, rfl⟩, rfl⟩) | rfl
      · rw [not_covers_exact rfl] at hcovers
        cases hcovers
      · have hsite : vhost.kind ≠ .siteApi := by simp [hkind]
        exact absurd ⟨hstatic, prefix_of_covers hcovers rfl, fun hkind =>
          absurd hkind hsite⟩ hwins
      · exact le_rfl

theorem inexact_siteApi {route : Route} {path : String} {generation : Word}
    (hkind : vhost.kind = .siteApi)
    (hroute : found (longestRoute path.toList (sortedRoutes vhost)) = some route)
    (hlong : 1 ≤ route.pathPrefix.length)
    (hkeys : (blockKeys (bodyTrees settings knobs vhost generation)).Nodup) :
    ∃ location, inexactLocation pcre (locationsOf (bodyTrees settings knobs vhost generation))
        path = some location ∧
      (StaticWins vhost path → location.handler = staticHandler knobs) ∧
      (¬StaticWins vhost path → location.handler = proxied route.upstream) := by
  rw [blockKeys_nodup_iff] at hkeys
  rw [bodyTrees_siteApi hkind, locationsOf_siteApiTrees] at hkeys ⊢
  obtain ⟨hmem, hcovers, hlongest⟩ := longestRoute_found hroute
  -- Only the static files, the routes and the root can cover the path.
  have hcases : ∀ other ∈ (quietNames vhost).flatMap (routedLocation (sortedRoutes vhost)) ++
      locationsOf (routedReceiverTrees knobs (sortedRoutes vhost)) ++
      (staticPaths vhost).map (fun path => ⟨.final, path, staticHandler knobs⟩) ++
      locationsOf (honeypotTrees settings knobs vhost (sortedRoutes vhost)) ++
      (sortedRoutes vhost).map (fun route => ⟨.final, route.pathPrefix, proxied route.upstream⟩) ++
      [⟨.pattern, assetPattern, .files⟩, ⟨.leading, "/", .files⟩],
      other.covers path = true →
      (vhost.serveStatic = true ∧ other.path = "/static/") ∨
        (∃ route ∈ sortedRoutes vhost, other.path = route.pathPrefix) ∨ other.path = "/" := by
    intro other hother hcovers
    simp only [List.mem_append, List.mem_map, List.mem_cons, List.not_mem_nil, or_false,
      mem_staticPaths] at hother
    have hinexact : other.modifier ≠ .exact := by
      intro hexact
      rw [not_covers_exact hexact] at hcovers
      cases hcovers
    rcases hother with ((((hquiet | hreceiver) | ⟨_, ⟨hstatic, rfl⟩, rfl⟩) | hpots) |
      ⟨route, hmem, rfl⟩) | rfl | rfl
    · exact absurd (exactOnly_routedQuiet _ _ other hquiet) hinexact
    · exact absurd (exactOnly_routedReceiver _ other hreceiver) hinexact
    · exact .inl ⟨hstatic, rfl⟩
    · exact absurd (exactOnly_honeypots _ other hpots) hinexact
    · exact .inr (.inl ⟨route, hmem, rfl⟩)
    · simp [Location.covers] at hcovers
    · exact .inr (.inr rfl)
  by_cases hwins : StaticWins vhost path
  · refine ⟨⟨.final, "/static/", staticHandler knobs⟩, ?_, fun _ => rfl,
      fun hnot => absurd hwins hnot⟩
    refine inexactLocation_final (longestLocation_of_mem hkeys ?_ ?_ ?_) rfl
    · simp [mem_staticPaths, hwins.1]
    · simpa [Location.covers] using hwins.2.1
    · intro other hother hother_covers
      rcases hcases other hother hother_covers with ⟨_, hpath⟩ | ⟨shorter, hshorter, hpath⟩ | hpath
      · exact (congrArg String.length hpath).le
      · have hlt := hwins.2.2 hkind shorter ((List.mem_insertionSort _).mp hshorter)
          (prefix_of_covers hother_covers hpath)
        exact (congrArg String.length hpath).le.trans hlt.le
      · refine (congrArg String.length hpath).le.trans ?_
        change "/".length ≤ "/static/".length
        decide
  · refine ⟨⟨.final, route.pathPrefix, proxied route.upstream⟩, ?_,
      fun hstatic => absurd hstatic hwins, fun _ => rfl⟩
    refine inexactLocation_final (longestLocation_of_mem hkeys ?_ ?_ ?_) rfl
    · simp only [List.mem_append, List.mem_map]
      exact .inl (.inr ⟨route, hmem, rfl⟩)
    · simpa [Location.covers] using hcovers
    · intro other hother hother_covers
      rcases hcases other hother hother_covers with ⟨hstatic, hpath⟩ | ⟨shorter, hshorter, hpath⟩ |
        hpath
      · -- The static files are not the longest, so a route that covers is as long.
        have hsome : ∃ rival ∈ vhost.routes, rival.pathPrefix.toList <+: path.toList ∧
            "/static/".length ≤ rival.pathPrefix.length := by
          by_contra hnone
          push Not at hnone
          exact hwins ⟨hstatic, prefix_of_covers hother_covers hpath, fun _ => hnone⟩
        obtain ⟨rival, hrival, hprefix, hle⟩ := hsome
        exact (congrArg String.length hpath).le.trans
          (hle.trans (hlongest rival ((List.mem_insertionSort _).mpr hrival) hprefix))
      · exact (congrArg String.length hpath).le.trans
          (hlongest shorter hshorter (prefix_of_covers hother_covers hpath))
      · exact (congrArg String.length hpath).le.trans hlong

/-! ### The row without a quiet path -/

theorem quietNames_withQuiet (paths : List String) :
    quietNames (vhost.withQuiet paths) =
      (paths.insertionSort (· ≤ ·)).filter fun path => path ≠ receiverPath := by
  have hitems : iteratedOrEmpty (vhost.withQuiet paths).quietPaths = .ok (paths.map .str) := by
    cases paths with
    | nil => rfl
    | cons path rest => rfl
  have hrendered : quietPathsToRender (vhost.withQuiet paths) =
      .ok (((paths.insertionSort (· ≤ ·)).map Json.str).filter fun path =>
        !path.isText receiverPath) := by
    rw [quietPathsToRender, sortedPaths, hitems]
    simp only [bind, Except.bind, pure, Except.pure, mapM_jsonText]
  rw [quietNames, hrendered]
  simp only [List.filter_map, filterMap_jsonText]
  refine List.filter_congr fun path _ => ?_
  simp [Json.isText]

theorem insertionSort_filter (keep : String → Bool) (paths : List String) :
    (paths.filter keep).insertionSort (· ≤ ·) = (paths.insertionSort (· ≤ ·)).filter keep := by
  have hperm : (paths.filter keep).Perm ((paths.insertionSort (· ≤ ·)).filter keep) :=
    (List.perm_insertionSort _ paths).symm.filter keep
  have hsorted : ((paths.insertionSort (· ≤ ·)).filter keep).Pairwise (· ≤ ·) :=
    (List.sortedLE_insertionSort (l := paths)).pairwise.filter keep
  rw [← hsorted.insertionSort_eq]
  exact @insertionSort_perm _ _ _ id _ _ hperm fun _ _ _ _ hsame => hsame

def Vhost.withoutQuiet (vhost : Vhost) (paths : List String) (path : String) : Vhost :=
  vhost.withQuiet (paths.filter fun other => other ≠ path)

variable {paths : List String} {path : String}

theorem kind_withQuiet {kind : VhostKind} (hkind : vhost.kind = kind) :
    (vhost.withQuiet paths).kind = kind := hkind

theorem kind_withoutQuiet {kind : VhostKind} (hkind : vhost.kind = kind) :
    (vhost.withoutQuiet paths path).kind = kind := hkind

theorem quietNames_withoutQuiet : quietNames (vhost.withoutQuiet paths path) =
    (quietNames (vhost.withQuiet paths)).filter fun other => other ≠ path := by
  rw [Vhost.withoutQuiet, quietNames_withQuiet, quietNames_withQuiet, insertionSort_filter,
    List.filter_comm]

def ownPaths (vhost : Vhost) : List String :=
  match vhost.kind with
  | .siteApi => routedQuiet vhost
  | _ => quietNames vhost

theorem ownPaths_withoutQuiet : ownPaths (vhost.withoutQuiet paths path) =
    (ownPaths (vhost.withQuiet paths)).filter fun other => other ≠ path := by
  change (match vhost.kind with
    | .siteApi => routedQuiet (vhost.withoutQuiet paths path)
    | _ => quietNames (vhost.withoutQuiet paths path)) = List.filter _ (match vhost.kind with
    | .siteApi => routedQuiet (vhost.withQuiet paths)
    | _ => quietNames (vhost.withQuiet paths))
  split
  next =>
    rw [routedQuiet, routedQuiet, quietNames_withoutQuiet, List.filter_comm]
    rfl
  next => exact quietNames_withoutQuiet

theorem ownPaths_api (hkind : vhost.kind = .api) : ownPaths vhost = quietNames vhost := by
  rw [ownPaths, hkind]

theorem ownPaths_siteApi (hkind : vhost.kind = .siteApi) : ownPaths vhost = routedQuiet vhost := by
  rw [ownPaths, hkind]

/-- What the other producers have exact locations for does not depend on the quiet paths. -/
def otherPaths (settings : Settings) (knobs : Knobs) (vhost : Vhost) : List String :=
  match vhost.kind with
  | .siteApi => routedReceiver knobs vhost ++ honeypotNames settings vhost
  | _ => receiverPaths knobs

theorem exactPaths_split (vhost : Vhost) :
    exactPaths settings knobs vhost = ownPaths vhost ++ otherPaths settings knobs vhost := by
  unfold exactPaths ownPaths otherPaths
  split
  · exact List.append_assoc _ _ _
  · rfl

theorem exactPaths_withoutQuiet : exactPaths settings knobs (vhost.withoutQuiet paths path) =
    (ownPaths (vhost.withQuiet paths)).filter (fun other => other ≠ path) ++
      otherPaths settings knobs (vhost.withQuiet paths) := by
  rw [exactPaths_split, ownPaths_withoutQuiet]
  rfl

namespace PathsApart

theorem withoutQuiet (hapart : PathsApart settings knobs (vhost.withQuiet paths)) :
    PathsApart settings knobs (vhost.withoutQuiet paths path) := by
  refine ⟨?_, hapart.leading⟩
  have hexact := hapart.exact
  rw [exactPaths_split] at hexact
  rw [exactPaths_withoutQuiet]
  exact hexact.sublist (List.filter_sublist.append_right _)

theorem not_mem_withoutQuiet (hapart : PathsApart settings knobs (vhost.withQuiet paths))
    (hown : path ∈ ownPaths (vhost.withQuiet paths)) :
    path ∉ exactPaths settings knobs (vhost.withoutQuiet paths path) := by
  have hexact := hapart.exact
  rw [exactPaths_split, List.nodup_append] at hexact
  rw [exactPaths_withoutQuiet, List.mem_append, not_or]
  constructor
  · simp
  · exact fun hother => hexact.2.2 path hown path hother rfl

end PathsApart

/-- A path whose own location proxies to the upstream that it would reach without one,
unless the static files come first. -/
theorem blockHandler_eq_iff {generation : Word} {upstream : Upstream}
    (hproxied : Proxied vhost) (hown : path ∈ ownPaths (vhost.withQuiet paths))
    (hlocation : ⟨.exact, path, proxied upstream⟩ ∈
      locationsOf (bodyTrees settings knobs (vhost.withQuiet paths) generation))
    (hinexact : (blockKeys (bodyTrees settings knobs
        (vhost.withoutQuiet paths path) generation)).Nodup →
      ∃ location, inexactLocation pcre (locationsOf (bodyTrees settings knobs
          (vhost.withoutQuiet paths path) generation)) path = some location ∧
        (StaticWins vhost path → location.handler = staticHandler knobs) ∧
        (¬StaticWins vhost path → location.handler = proxied upstream)) :
    blockHandler pcre (bodyTrees settings knobs (vhost.withQuiet paths) generation) path =
        blockHandler pcre (bodyTrees settings knobs
          (vhost.withoutQuiet paths path) generation) path ↔
      (PathsApart settings knobs (vhost.withoutQuiet paths path) →
        PathsApart settings knobs (vhost.withQuiet paths) ∧ ¬StaticWins vhost path) := by
  have hquiet : Proxied (vhost.withQuiet paths) := hproxied
  have hplain : Proxied (vhost.withoutQuiet paths path) := hproxied
  have hkeys := @bodyKeys_nodup_iff settings knobs _ hquiet generation
  have hplainKeys := @bodyKeys_nodup_iff settings knobs _ hplain generation
  unfold blockHandler
  by_cases hwithout : PathsApart settings knobs (vhost.withoutQuiet paths path)
  · obtain ⟨location, hlast, hstatic, hproxy⟩ := hinexact (hplainKeys.mpr hwithout)
    rw [if_pos (hplainKeys.mpr hwithout)]
    by_cases hapart : PathsApart settings knobs (vhost.withQuiet paths)
    · rw [if_pos (hkeys.mpr hapart)]
      have hexact : exactLocation (locationsOf
          (bodyTrees settings knobs (vhost.withQuiet paths) generation)) path =
          some ⟨.exact, path, proxied upstream⟩ :=
        exactLocation_of_mem ((blockKeys_nodup_iff _).mp (hkeys.mpr hapart)) hlocation rfl rfl
      have hnone : exactLocation (locationsOf (bodyTrees settings knobs
          (vhost.withoutQuiet paths path) generation)) path = none := by
        apply exactLocation_eq_none
        rw [exact_mem_keys, (pathsOf_bodyTrees hplain generation).1]
        exact hapart.not_mem_withoutQuiet hown
      rw [selectLocation, selectLocation, hexact, hnone, hlast]
      change some (proxied upstream) = some location.handler ↔ _
      by_cases hwins : StaticWins vhost path
      · rw [hstatic hwins]
        refine iff_of_false (by simp [proxied, staticHandler]) fun hall => ?_
        exact (hall hwithout).2 hwins
      · rw [hproxy hwins]
        exact iff_of_true rfl fun _ => ⟨hapart, hwins⟩
    · rw [if_neg (mt hkeys.mp hapart)]
      refine iff_of_false ?_ fun hall => hapart (hall hwithout).1
      rw [selectLocation, hlast]
      cases exactLocation (locationsOf (bodyTrees settings knobs
        (vhost.withoutQuiet paths path) generation)) path with
      | none => exact nofun
      | some own => exact nofun
  · rw [if_neg (mt hplainKeys.mp hwithout),
      if_neg (mt hkeys.mp (mt PathsApart.withoutQuiet hwithout))]
    exact iff_of_true rfl fun hapart => absurd hapart hwithout

/-! ### Rows that render -/

theorem mapM_ok_subset {Item Value : Type} {read : Item → Checked Value} {first second : List Item}
    {values : List Value} (hsub : ∀ item ∈ second, item ∈ first)
    (hok : first.mapM read = .ok values) : ∃ others, second.mapM read = .ok others := by
  apply mapM_ok_of_forall
  intro item hitem
  obtain ⟨value, _, hvalue⟩ := mapM_ok_exists hok (hsub item hitem)
  exact ⟨value, hvalue⟩

theorem quietPathsToRender_withQuiet (paths : List String) :
    quietPathsToRender (vhost.withQuiet paths) =
      .ok ((quietNames (vhost.withQuiet paths)).map .str) := by
  have hitems : iteratedOrEmpty (vhost.withQuiet paths).quietPaths = .ok (paths.map .str) := by
    cases paths with
    | nil => rfl
    | cons path rest => rfl
  rw [quietNames_withQuiet, quietPathsToRender, sortedPaths, hitems]
  simp only [bind, Except.bind, pure, Except.pure, mapM_jsonText, List.filter_map]
  refine congrArg (fun kept => Except.ok (kept.map Json.str)) (List.filter_congr fun path _ => ?_)
  simp [Json.isText]

theorem quietPaths_subset : ∀ item ∈ (quietNames (vhost.withoutQuiet paths path)).map Json.str,
    item ∈ (quietNames (vhost.withQuiet paths)).map Json.str := by
  intro item hitem
  obtain ⟨other, hother, rfl⟩ := List.mem_map.mp hitem
  rw [quietNames_withoutQuiet] at hother
  exact List.mem_map_of_mem (List.mem_of_mem_filter hother)

theorem renderApi_withoutQuiet {generation : Word} {serverName : String} {lines : List String}
    (hrender : renderApi settings knobs (vhost.withQuiet paths) generation serverName = .ok lines) :
    ∃ plain, renderApi settings knobs (vhost.withoutQuiet paths path) generation serverName =
      .ok plain := by
  have hpaths := @quietPathsToRender_withQuiet vhost (paths.filter fun other => other ≠ path)
  simp only [renderApi, bind_ok, pure_ok] at hrender ⊢
  obtain ⟨head, hhead, items, hitems, quiet, hquiet, receiver, hreceiver, body, hbody, _⟩ :=
    hrender
  rw [quietPathsToRender_withQuiet] at hitems
  cases hitems
  obtain ⟨others, hothers⟩ := mapM_ok_subset quietPaths_subset hquiet
  exact ⟨_, head, hhead, _, hpaths, others, hothers, receiver, hreceiver, body, hbody, rfl⟩

theorem renderSiteApi_withoutQuiet {generation : Word} {serverName : String} {lines : List String}
    (hrender : renderSiteApi settings knobs (vhost.withQuiet paths) generation serverName =
      .ok lines) :
    ∃ plain, renderSiteApi settings knobs (vhost.withoutQuiet paths path) generation serverName =
      .ok plain := by
  have hpaths := @quietPathsToRender_withQuiet vhost (paths.filter fun other => other ≠ path)
  simp only [renderSiteApi, bind_ok, pure_ok] at hrender ⊢
  obtain ⟨contract, hcontract, head, hhead, items, hitems, quiet, hquiet, receiver, hreceiver,
    honeypots, hhoneypots, routes, hroutes, _⟩ := hrender
  rw [quietPathsToRender_withQuiet] at hitems
  cases hitems
  obtain ⟨others, hothers⟩ := mapM_ok_subset quietPaths_subset hquiet
  exact ⟨_, contract, hcontract, head, hhead, _, hpaths, others, hothers, receiver, hreceiver,
    honeypots, hhoneypots, routes, hroutes, rfl⟩

theorem renderKind_api {generation : Word} {serverName : String} (hkind : vhost.kind = .api) :
    renderKind settings knobs vhost generation serverName =
      renderApi settings knobs vhost generation serverName := by
  rw [renderKind, hkind]

theorem renderKind_siteApi {generation : Word} {serverName : String}
    (hkind : vhost.kind = .siteApi) :
    renderKind settings knobs vhost generation serverName =
      renderSiteApi settings knobs vhost generation serverName := by
  rw [renderKind, hkind]

theorem renderVhost_withoutQuiet {generation : Word} {lines : List String}
    (hkind : vhost.kind = .api ∨ vhost.kind = .siteApi)
    (hrender : renderVhost settings knobs (vhost.withQuiet paths) generation = .ok lines) :
    ∃ plain, renderVhost settings knobs (vhost.withoutQuiet paths path) generation = .ok plain := by
  simp only [renderVhost, bind_ok, pure_ok] at hrender
  obtain ⟨name, hname, serverName, hsafe, rendered, hrendered, _⟩ := hrender
  have hother : ∃ other, renderKind settings knobs (vhost.withoutQuiet paths path) generation
      serverName = .ok other := by
    rcases hkind with hkind | hkind
    · rw [renderKind_api (kind_withQuiet hkind)] at hrendered
      rw [renderKind_api (kind_withoutQuiet hkind)]
      exact renderApi_withoutQuiet hrendered
    · rw [renderKind_siteApi (kind_withQuiet hkind)] at hrendered
      rw [renderKind_siteApi (kind_withoutQuiet hkind)]
      exact renderSiteApi_withoutQuiet hrendered
  obtain ⟨other, hother⟩ := hother
  simp only [renderVhost, bind_ok, pure_ok]
  exact ⟨_, name, hname, serverName, hsafe, other, hother, rfl⟩

theorem handlerAt_render {generation : Word} {lines : List String}
    (hrender : renderVhost settings knobs vhost generation = .ok lines) (path : String) :
    handlerAt pcre lines path =
      blockHandler pcre (bodyTrees settings knobs vhost generation) path := by
  have hparse := parse_of_lex (renderVhost_reads hrender).lex
  rw [handlerAt, hparse, vhostTrees, httpsTree]
  change blockHandler pcre _ path = _
  rw [blockHandler, blockHandler, blockKeys_append, blockKeys_headTrees, locationsOf_append,
    locationsOf_headTrees, List.nil_append, List.nil_append]

theorem slash_of_requestPath {what name : String}
    (hvalid : validateRequestPath (.str path) what = .ok name) : ['/'] <+: path.toList := by
  simp only [validateRequestPath, bind_ok, check_ok] at hvalid
  obtain ⟨_, hre, _⟩ := hvalid
  unfold quietPathRe at hre
  split at hre
  next rest htext =>
    rw [htext]
    exact List.prefix_append ['/'] rest
  next => cases hre

theorem renderApi_row {generation : Word} {serverName : String} {lines : List String}
    (hrender : renderApi settings knobs (vhost.withQuiet paths) generation serverName = .ok lines) :
    (∃ upstream, vhost.upstream = some upstream) ∧
      ∀ path ∈ quietNames (vhost.withQuiet paths), ['/'] <+: path.toList := by
  simp only [renderApi, bind_ok, pure_ok, quietPathsToRender_withQuiet, Except.ok.injEq] at hrender
  obtain ⟨head, _, _, rfl, quiet, hquiet, receiver, _, body, hbody, _⟩ := hrender
  obtain ⟨upstream, hupstream, _⟩ := proxyLocationBody_lexes hbody
  refine ⟨⟨upstream, hupstream⟩, fun path hpath => ?_⟩
  obtain ⟨part, _, hpart⟩ := mapM_ok_exists hquiet (List.mem_map_of_mem hpath)
  simp only [quietPart, quietLocation, bind_ok] at hpart
  obtain ⟨_, ⟨name, hname, _⟩, _⟩ := hpart
  exact slash_of_requestPath hname

theorem renderSiteApi_row {generation : Word} {serverName : String} {lines : List String}
    (hrender : renderSiteApi settings knobs vhost generation serverName = .ok lines) :
    ∀ route ∈ sortedRoutes vhost, 1 ≤ route.pathPrefix.length := by
  intro route hroute
  simp only [renderSiteApi, bind_ok, pure_ok] at hrender
  obtain ⟨_, _, _, _, _, _, _, _, _, _, _, _, routes, hroutes, _⟩ := hrender
  obtain ⟨part, _, hpart⟩ := mapM_ok_exists hroutes hroute
  simp only [routePart, validateRoutePrefix, bind_ok] at hpart
  obtain ⟨_, ⟨_, hname, _⟩, _⟩ := hpart
  have hslash := (slash_of_requestPath hname).length_le
  rwa [String.length_toList] at hslash

/-! ### When only the logs change -/

/-- The path gets a location, nginx loads the file without it, and then: no other
producer has a location for exactly this path, and the static files do not serve it. -/
def OnlyLogs (settings : Settings) (knobs : Knobs) (vhost : Vhost) (paths : List String)
    (path : String) : Prop :=
  path ∈ ownPaths (vhost.withQuiet paths) →
    PathsApart settings knobs (vhost.withoutQuiet paths path) →
      PathsApart settings knobs (vhost.withQuiet paths) ∧ ¬StaticWins vhost path

theorem flatMap_routedQuietTrees_filter {routes : List Route}
    (hnone : found (longestRoute path.toList routes) = none) (names : List String) :
    (names.filter fun other => other ≠ path).flatMap (routedQuietTrees knobs routes) =
      names.flatMap (routedQuietTrees knobs routes) := by
  induction names with
  | nil => rfl
  | cons name rest ih =>
    by_cases hsame : name = path
    · have hempty : routedQuietTrees knobs routes name = [] := by
        rw [routedQuietTrees, hsame, hnone]
      rw [List.filter_cons_of_neg (by simp [hsame]), ih, List.flatMap_cons, hempty,
        List.nil_append]
    · rw [List.filter_cons_of_pos (by simp [hsame]), List.flatMap_cons, List.flatMap_cons, ih]

theorem bodyTrees_withoutQuiet {generation : Word}
    (hkind : vhost.kind = .api ∨ vhost.kind = .siteApi)
    (hown : path ∉ ownPaths (vhost.withQuiet paths)) :
    bodyTrees settings knobs (vhost.withoutQuiet paths path) generation =
      bodyTrees settings knobs (vhost.withQuiet paths) generation := by
  have hnames := @quietNames_withoutQuiet vhost paths path
  have hkept (hmissing : path ∉ quietNames (vhost.withQuiet paths)) :
      quietNames (vhost.withoutQuiet paths path) = quietNames (vhost.withQuiet paths) := by
    rw [hnames, List.filter_eq_self]
    intro other hother
    exact decide_eq_true fun hsame => hmissing (hsame ▸ hother)
  rcases hkind with hkind | hkind
  · rw [ownPaths_api (kind_withQuiet hkind)] at hown
    have hquiet := hkept hown
    rw [bodyTrees_api (kind_withoutQuiet hkind), bodyTrees_api (kind_withQuiet hkind), apiTrees,
      apiTrees, hquiet]
    rfl
  · have hquiet : (quietNames (vhost.withoutQuiet paths path)).flatMap
        (routedQuietTrees knobs (sortedRoutes vhost)) =
        (quietNames (vhost.withQuiet paths)).flatMap
          (routedQuietTrees knobs (sortedRoutes vhost)) := by
      rw [ownPaths_siteApi (kind_withQuiet hkind)] at hown
      by_cases hmissing : path ∈ quietNames (vhost.withQuiet paths)
      · rw [hnames]
        apply flatMap_routedQuietTrees_filter
        by_contra hcovered
        exact hown (List.mem_filter.mpr ⟨hmissing,
          Option.isSome_iff_ne_none.mpr hcovered⟩)
      · rw [hkept hmissing]
    rw [bodyTrees_siteApi (kind_withoutQuiet hkind), bodyTrees_siteApi (kind_withQuiet hkind),
      siteApiTrees, siteApiTrees]
    exact congrArg (· ++ _ ++ _ ++ _ ++ _ ++ _) hquiet

/-- The handler of a request for a quiet path of a row that proxies is the one without
the quiet path if and only if the path only changes what is logged. -/
theorem quietPath_handler_iff {generation : Word} {lines : List String}
    (hkind : vhost.kind = .api ∨ vhost.kind = .siteApi)
    (hrender : renderVhost settings knobs (vhost.withQuiet paths) generation = .ok lines) :
    ∃ plain, renderVhost settings knobs (vhost.withoutQuiet paths path) generation = .ok plain ∧
      (handlerAt pcre lines path = handlerAt pcre plain path ↔
        OnlyLogs settings knobs vhost paths path) := by
  obtain ⟨plain, hplain⟩ := @renderVhost_withoutQuiet settings knobs vhost paths path _ _ hkind
    hrender
  refine ⟨plain, hplain, ?_⟩
  rw [handlerAt_render pcre hrender, handlerAt_render pcre hplain]
  by_cases hown : path ∈ ownPaths (vhost.withQuiet paths)
  · rw [OnlyLogs, forall_prop_of_true hown]
    simp only [renderVhost, bind_ok] at hrender
    obtain ⟨_, _, serverName, _, rendered, hrendered, _⟩ := hrender
    rcases hkind with hkind | hkind
    · rw [renderKind_api (kind_withQuiet hkind)] at hrendered
      obtain ⟨⟨upstream, hupstream⟩, hslash⟩ := renderApi_row hrendered
      have hquiet : path ∈ quietNames (vhost.withQuiet paths) := by
        rwa [ownPaths_api (kind_withQuiet hkind)] at hown
      have hproxies : (vhost.withQuiet paths).upstream = some upstream := hupstream
      refine @blockHandler_eq_iff pcre _ _ _ _ _ _ upstream (.inl ⟨hkind, by simp [hupstream]⟩)
        hown ?_ ?_
      · rw [bodyTrees_api (kind_withQuiet hkind), locationsOf_apiTrees hproxies]
        simp [hquiet]
      · intro hkeys
        exact inexact_api pcre (kind_withoutQuiet hkind) hupstream hkeys (hslash path hquiet)
    · rw [renderKind_siteApi (kind_withQuiet hkind)] at hrendered
      have hlong := renderSiteApi_row hrendered
      have hrouted : path ∈ routedQuiet (vhost.withQuiet paths) := by
        rwa [ownPaths_siteApi (kind_withQuiet hkind)] at hown
      obtain ⟨hquiet, hcovered⟩ := List.mem_filter.mp hrouted
      obtain ⟨route, hroute⟩ := Option.isSome_iff_exists.mp hcovered
      refine @blockHandler_eq_iff pcre _ _ _ _ _ _ route.upstream (.inr hkind) hown ?_ ?_
      · rw [bodyTrees_siteApi (kind_withQuiet hkind), locationsOf_siteApiTrees]
        simp only [List.mem_append, List.mem_flatMap]
        refine .inl (.inl (.inl (.inl (.inl ⟨path, hquiet, ?_⟩))))
        rw [routedLocation, hroute]
        exact List.mem_singleton_self _
      · intro hkeys
        exact inexact_siteApi pcre (kind_withoutQuiet hkind) hroute
          (hlong route (longestRoute_found hroute).1) hkeys
  · rw [bodyTrees_withoutQuiet hkind hown]
    exact iff_of_true rfl fun hmem => absurd hmem hown

/-! ### A quiet path under the static files -/

def staticRow : Vhost :=
  { apiVhost { pk := 1, name := "app", kind := .http, host := some "app", port := some 80 } with
    serveStatic := true }

theorem staticRow_accepted : Accepted plainSettings (staticRow.withQuiet ["/static/health"]) where
  saved := ⟨staticRow.withQuiet ["/static/health"], by rfl⟩
  routes := nofun
  unique := List.nodup_nil

theorem staticRow_renders : (renderVhost plainSettings plainKnobs
    (staticRow.withQuiet ["/static/health"]) firstGeneration).isOk = true := by
  decide

/-- The probe of a static file is proxied as soon as it is quiet. -/
theorem not_all_quietPaths_onlyLog : ¬∀ (pcre : String → String → Bool) (settings : Settings)
    (knobs : Knobs) (vhost : Vhost) (paths : List String) (path : String) (generation : Word)
    (lines plain : List String), vhost.kind = .api ∨ vhost.kind = .siteApi → path ∈ paths →
    Accepted settings (vhost.withQuiet paths) →
    renderVhost settings knobs (vhost.withQuiet paths) generation = .ok lines →
    renderVhost settings knobs (vhost.withoutQuiet paths path) generation = .ok plain →
    handlerAt pcre lines path = handlerAt pcre plain path := by
  intro hall
  obtain ⟨lines, hrender⟩ := exists_ok_of_isOk staticRow_renders
  obtain ⟨plain, hplain⟩ := @renderVhost_withoutQuiet plainSettings plainKnobs staticRow
    ["/static/health"] "/static/health" _ _ (.inl rfl) hrender
  have hsame := hall (fun _ _ => false) _ _ staticRow _ "/static/health" _ _ _ (.inl rfl)
    (List.mem_singleton_self _) staticRow_accepted hrender hplain
  rw [handlerAt_render _ hrender, handlerAt_render _ hplain] at hsame
  revert hsame
  decide

theorem staticRow_handler_iff : ∃ lines, renderVhost plainSettings plainKnobs
    (staticRow.withQuiet ["/static/health"]) firstGeneration = .ok lines ∧
    ∃ plain, renderVhost plainSettings plainKnobs
      (staticRow.withoutQuiet ["/static/health"] "/static/health") firstGeneration = .ok plain ∧
    (handlerAt (fun _ _ => false) lines "/static/health" =
        handlerAt (fun _ _ => false) plain "/static/health" ↔
      OnlyLogs plainSettings plainKnobs staticRow ["/static/health"] "/static/health") := by
  obtain ⟨lines, hrender⟩ := exists_ok_of_isOk staticRow_renders
  exact ⟨lines, hrender, quietPath_handler_iff _ (.inl rfl) hrender⟩

end DjangoMojo.Edge
