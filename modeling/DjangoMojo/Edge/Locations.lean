import DjangoMojo.Edge.VhostReads

/-! # Locations of a virtual host

The locations of a server block come from several producers: the quiet paths, the
receiver, the static files, the honeypots, the routes and the body of a site. Each
has no path twice. Two of them can share one, and then nginx refuses the whole
configuration.
-/

namespace DjangoMojo.Edge

open Foundation Nginx

/-! ### The locations of a server block -/

/-- How a location is matched. A location with `^~` and one without a modifier are
both found by their first characters. -/
inductive LocationClass where
  | exact | leading | pattern
  deriving DecidableEq, Repr

def locationKey : List String → Option (LocationClass × String)
  | ["location", path] => some (.leading, path)
  | ["location", modifier, path] =>
    if modifier = "=" then some (.exact, path)
    else if modifier = "^~" then some (.leading, path)
    else some (.pattern, path)
  | _ => none

def blockKeys (body : List Directive) : List (LocationClass × String) :=
  body.filterMap fun
    | .block words _ => locationKey words
    | .simple _ => none

/-- The locations of a server block; other directives have none. -/
def locationKeys : Directive → List (LocationClass × String)
  | .block ["server"] body => blockKeys body
  | _ => []

def pathsOf (location : LocationClass) (keys : List (LocationClass × String)) : List String :=
  keys.filterMap fun key => if key.1 = location then some key.2 else none

@[simp] theorem blockKeys_append (first second : List Directive) :
    blockKeys (first ++ second) = blockKeys first ++ blockKeys second :=
  List.filterMap_append

@[simp] theorem pathsOf_append (location : LocationClass)
    (first second : List (LocationClass × String)) :
    pathsOf location (first ++ second) = pathsOf location first ++ pathsOf location second :=
  List.filterMap_append

theorem pathsOf_map (location other : LocationClass) (paths : List String) :
    pathsOf location (paths.map fun path => (other, path)) =
      if other = location then paths else [] := by
  rw [pathsOf, List.filterMap_map]
  split
  next hsame => simp [hsame]
  next hother => simp [hother]

theorem mem_pathsOf {location : LocationClass} {keys : List (LocationClass × String)}
    {path : String} : path ∈ pathsOf location keys ↔ (location, path) ∈ keys := by
  simp only [pathsOf, List.mem_filterMap, Option.ite_none_right_eq_some, Option.some.injEq]
  constructor
  · rintro ⟨key, hkey, rfl, rfl⟩
    exact hkey
  · exact fun hmem => ⟨_, hmem, rfl, rfl⟩

theorem nodup_iff_pathsOf (keys : List (LocationClass × String)) :
    keys.Nodup ↔ ∀ location, (pathsOf location keys).Nodup := by
  constructor
  · intro hnodup location
    refine hnodup.filterMap fun first second path hfirst hsecond => ?_
    simp only [Option.mem_def, Option.ite_none_right_eq_some, Option.some.injEq] at hfirst hsecond
    exact Prod.ext (hfirst.1.trans hsecond.1.symm) (hfirst.2.trans hsecond.2.symm)
  · intro hall
    induction keys with
    | nil => exact List.nodup_nil
    | cons key rest ih =>
      have hsplit (location : LocationClass) := pathsOf_append location [key] rest
      simp only [List.singleton_append] at hsplit
      refine List.nodup_cons.mpr ⟨fun hmem => ?_, ih fun location => ?_⟩
      · -- A second occurrence is one in the class of the first.
        have hown := hall key.1
        have hself : pathsOf key.1 [key] = [key.2] := by simp [pathsOf]
        rw [hsplit, hself, List.singleton_append, List.nodup_cons] at hown
        exact hown.1 (mem_pathsOf.mpr hmem)
      · have hpart := hall location
        rw [hsplit] at hpart
        exact hpart.of_append_right

variable {settings : Settings} {knobs : Knobs}

/-! ### What each kind renders -/

theorem blockKeys_headTrees (ciphers : List String) (vhost : Vhost) (generation : Word)
    (serverName : String) :
    blockKeys (headTrees settings knobs ciphers vhost generation serverName) = [] := by
  have himpossible : blockKeys (impossibleTrees vhost) = [] := by
    unfold impossibleTrees
    split
    next => rfl
    next policy _ =>
      rw [blockKeys, List.filterMap_map, List.filterMap_eq_nil_iff]
      exact fun family _ => rfl
  rw [headTrees, blockKeys_append, himpossible]
  rfl

def receiverPaths (knobs : Knobs) : List String :=
  if knobs.mojosecMode = .observe then [receiverPath, receiverPath ++ "/"] else []

def staticPaths (vhost : Vhost) : List String := if vhost.serveStatic then ["/static/"] else []

theorem blockKeys_receiver (upstream : Upstream) :
    blockKeys (if knobs.mojosecMode = .observe then receiverTrees knobs upstream else []) =
      (receiverPaths knobs).map fun path => (.exact, path) := by
  unfold receiverPaths
  split <;> rfl

theorem blockKeys_quiet (upstream : Upstream) (paths : List String) :
    blockKeys (paths.map (quietTree knobs upstream)) = paths.map fun path => (.exact, path) := by
  rw [blockKeys, List.filterMap_map, ← List.filterMap_eq_map]
  rfl

theorem blockKeys_apiTrees {vhost : Vhost} {upstream : Upstream}
    (hupstream : vhost.upstream = some upstream) :
    blockKeys (apiTrees knobs vhost) =
      (quietNames vhost ++ receiverPaths knobs).map (fun path => (.exact, path)) ++
        (staticPaths vhost ++ ["/"]).map fun path => (.leading, path) := by
  have hstatic : blockKeys (staticTrees knobs [] vhost) =
      (staticPaths vhost).map fun path => (.leading, path) := by
    unfold staticTrees staticPaths
    split <;> rfl
  have hroot : blockKeys [.block ["location", "/"] (proxyTrees knobs upstream)] =
      [(LocationClass.leading, "/")] := rfl
  rw [apiTrees, hupstream]
  simp only [blockKeys_append, blockKeys_quiet, blockKeys_receiver, hstatic, hroot,
    List.map_append, List.append_assoc, List.map_cons, List.map_nil]

def routedQuiet (vhost : Vhost) : List String :=
  (quietNames vhost).filter fun path =>
    (found (longestRoute path.toList (sortedRoutes vhost))).isSome

def routedReceiver (knobs : Knobs) (vhost : Vhost) : List String :=
  if (found (longestRoute receiverPath.toList (sortedRoutes vhost))).isSome then
    receiverPaths knobs
  else []

def honeypotNames (settings : Settings) (vhost : Vhost) : List String :=
  if (found (renderedContract settings vhost (sortedRoutes vhost))).isSome then honeypotPaths
  else []

def assetPattern : String :=
  "\\.(css|js|mjs|map|ico|svg|gif|png|jpe?g|webp|avif|woff2?|ttf|otf|eot)$"

theorem blockKeys_siteTrees (vhost : Vhost) (generation : Word) :
    blockKeys (siteTrees settings vhost generation) =
      [(.pattern, assetPattern), (.leading, "/")] := by
  unfold siteTrees
  split <;> rfl

theorem blockKeys_routedQuiet (routes : List Route) (paths : List String) :
    blockKeys (paths.flatMap (routedQuietTrees knobs routes)) =
      (paths.filter fun path => (found (longestRoute path.toList routes)).isSome).map
        fun path => (.exact, path) := by
  induction paths with
  | nil => rfl
  | cons path rest ih =>
    rw [List.flatMap_cons, blockKeys_append, ih, routedQuietTrees, List.filter_cons]
    cases found (longestRoute path.toList routes) with
    | none => rfl
    | some route => rfl

theorem blockKeys_routedReceiver (vhost : Vhost) :
    blockKeys (routedReceiverTrees knobs (sortedRoutes vhost)) =
      (routedReceiver knobs vhost).map fun path => (.exact, path) := by
  unfold routedReceiverTrees routedReceiver
  cases found (longestRoute receiverPath.toList (sortedRoutes vhost)) with
  | none => rfl
  | some route => exact blockKeys_receiver route.upstream

theorem blockKeys_honeypotTrees (vhost : Vhost) :
    blockKeys (honeypotTrees settings knobs vhost (sortedRoutes vhost)) =
      (honeypotNames settings vhost).map fun path => (.exact, path) := by
  unfold honeypotTrees honeypotNames
  cases found (renderedContract settings vhost (sortedRoutes vhost)) with
  | none => rfl
  | some upstream => rfl

theorem blockKeys_siteApiTrees (vhost : Vhost) (generation : Word) :
    blockKeys (siteApiTrees settings knobs vhost generation) =
      (routedQuiet vhost ++ routedReceiver knobs vhost).map (fun path => (.exact, path)) ++
        (staticPaths vhost).map (fun path => (.leading, path)) ++
        (honeypotNames settings vhost).map (fun path => (.exact, path)) ++
        ((sortedRoutes vhost).map Route.pathPrefix).map (fun path => (.leading, path)) ++
        [(.pattern, assetPattern), (.leading, "/")] := by
  have hstatic : blockKeys (staticTrees knobs ["^~"] vhost) =
      (staticPaths vhost).map fun path => (.leading, path) := by
    unfold staticTrees staticPaths
    split <;> rfl
  have hroutes (routes : List Route) : blockKeys (routes.map fun route =>
      .block ["location", "^~", route.pathPrefix] (proxyTrees knobs route.upstream)) =
      (routes.map Route.pathPrefix).map fun path => (LocationClass.leading, path) := by
    rw [blockKeys, List.filterMap_map, List.map_map, ← List.filterMap_eq_map]
    rfl
  rw [siteApiTrees]
  simp only [blockKeys_append, blockKeys_routedQuiet, blockKeys_routedReceiver, hstatic,
    blockKeys_honeypotTrees, hroutes, blockKeys_siteTrees, List.map_append, List.append_assoc,
    routedQuiet]

/-! ### Rows that validate -/

def quietTexts (vhost : Vhost) : List String :=
  match vhost.quietPaths with
  | .arr items => items.filterMap jsonText
  | _ => []

theorem validateQuietPath_items {items : List Json} {paths : List String}
    (hok : items.mapM validateQuietPath = .ok paths) : items = paths.map .str := by
  induction items generalizing paths with
  | nil =>
    cases hok
    rfl
  | cons item rest ih =>
    rw [List.mapM_cons] at hok
    simp only [bind_ok, pure_ok] at hok
    obtain ⟨path, hpath, more, hmore, rfl⟩ := hok
    rw [List.map_cons, ← ih hmore, (validateRequestPath_ok hpath).1]

theorem mapM_jsonText (paths : List String) : (paths.map Json.str).mapM jsonText = some paths := by
  induction paths with
  | nil => rfl
  | cons path rest ih =>
    rw [List.map_cons, List.mapM_cons, ih]
    rfl

theorem filterMap_jsonText (paths : List String) :
    (paths.map Json.str).filterMap jsonText = paths := by
  rw [List.filterMap_map]
  exact List.filterMap_some

theorem quietNames_eq {vhost : Vhost} {paths : List String}
    (hok : validateQuietPaths vhost = .ok paths) :
    paths.Nodup ∧ quietTexts vhost = paths ∧
      quietNames vhost = (paths.insertionSort (· ≤ ·)).filter fun path => path ≠ receiverPath := by
  unfold validateQuietPaths at hok
  split at hok
  next hfalse =>
    cases hok
    have htexts : quietTexts vhost = [] := by
      unfold quietTexts
      split
      next items hitems =>
        rw [hitems] at hfalse
        cases items with
        | nil => rfl
        | cons _ _ => cases hfalse
      next => rfl
    refine ⟨List.nodup_nil, htexts, ?_⟩
    rw [quietNames, quietPathsToRender, sortedPaths, iteratedOrEmpty, if_neg (by simp [hfalse])]
    rfl
  next items htrue hitems =>
    simp only [bind_ok, check_ok, pure_ok] at hok
    obtain ⟨_, _, found, hpaths, _, hnodup, rfl⟩ := hok
    have hstr := validateQuietPath_items hpaths
    refine ⟨of_decide_eq_true hnodup, ?_, ?_⟩
    · rw [quietTexts, hitems, hstr]
      exact filterMap_jsonText found
    · have hsorted : quietPathsToRender vhost = .ok (((found.insertionSort (· ≤ ·)).map
          Json.str).filter fun path => !path.isText receiverPath) := by
        rw [quietPathsToRender, sortedPaths, iteratedOrEmpty, if_pos htrue, hitems, iterated, hstr]
        simp only [bind, Except.bind, pure, Except.pure, mapM_jsonText]
      rw [quietNames, hsorted]
      simp only [List.filter_map, filterMap_jsonText]
      refine List.filter_congr fun path _ => ?_
      simp [Json.isText]
  next => cases hok

theorem longestRoute_step {path : List Char} {routes : List Route} {before : Option Route}
    (hvalid : ∀ route ∈ routes, validateRoutePrefix route.pathPrefix = .ok route.pathPrefix) :
    ∃ result, (routes.foldlM (fun found route => do
      let pathPrefix ← validateRoutePrefix route.pathPrefix
      if pathPrefix.toList.isPrefixOf path &&
          found.all fun other => other.pathPrefix.length < pathPrefix.length then
        return some route
      else return found) before : Checked (Option Route)) = .ok result ∧
      (result.isSome ↔ before.isSome ∨ ∃ route ∈ routes, route.pathPrefix.toList <+: path) := by
  induction routes generalizing before with
  | nil => exact ⟨before, rfl, by simp⟩
  | cons route rest ih =>
    have hrest : ∀ other ∈ rest, validateRoutePrefix other.pathPrefix = .ok other.pathPrefix :=
      fun other hother => hvalid other (List.mem_cons_of_mem _ hother)
    rw [List.foldlM_cons, hvalid route List.mem_cons_self]
    simp only [bind, Except.bind, pure, Except.pure]
    by_cases hcovers : (route.pathPrefix.toList.isPrefixOf path &&
        before.all fun other => other.pathPrefix.length < route.pathPrefix.length) = true
    · rw [if_pos hcovers]
      obtain ⟨result, hresult, hiff⟩ := @ih (some route) hrest
      have hhead := List.isPrefixOf_iff_prefix.mp (Bool.and_eq_true_iff.mp hcovers).1
      exact ⟨result, hresult, by simp [hiff, hhead]⟩
    · rw [if_neg hcovers]
      obtain ⟨result, hresult, hiff⟩ := @ih before hrest
      refine ⟨result, hresult, ?_⟩
      rw [hiff]
      -- A route that covers and is passed over leaves the longer one found before it.
      have hsome (hhead : route.pathPrefix.toList <+: path) : before.isSome := by
        cases before with
        | some _ => rfl
        | none => simp [List.isPrefixOf_iff_prefix.mpr hhead] at hcovers
      simp only [List.mem_cons, exists_eq_or_imp]
      tauto

theorem longestRoute_isSome {path : List Char} {routes : List Route}
    (hvalid : ∀ route ∈ routes, validateRoutePrefix route.pathPrefix = .ok route.pathPrefix) :
    (found (longestRoute path routes)).isSome ↔
      ∃ route ∈ routes, route.pathPrefix.toList <+: path := by
  obtain ⟨result, hresult, hiff⟩ := @longestRoute_step path routes none hvalid
  have hfound : found (longestRoute path routes) = result := by
    rw [longestRoute, hresult, found]
  rw [hfound, hiff]
  simp

structure Accepted (settings : Settings) (vhost : Vhost) : Prop where
  saved : ∃ row, validateVhost settings row = .ok vhost
  routes : ∀ route ∈ vhost.routes, validateRoute vhost route = .ok ()
  unique : (vhost.routes.map Route.pathPrefix).Nodup

namespace Accepted

variable {vhost : Vhost}

theorem checks (haccepted : Accepted settings vhost) : ∃ paths,
    validateQuietPaths vhost = .ok paths ∧ validateCoverage vhost paths = .ok () ∧
      validateKindMatrix vhost = .ok () := by
  obtain ⟨row, hrow⟩ := haccepted.saved
  simp only [validateVhost, bind_ok] at hrow
  obtain ⟨_, _, _, _, _, _, policy, _, hrow⟩ := hrow
  split at hrow
  next => cases hrow
  next expected _ =>
    simp only [bind_ok] at hrow
    obtain ⟨_, _, _, hmatrix, paths, hpaths, _, hcoverage, _, _, _, _, _, _, hrow⟩ := hrow
    have hsaved : vhost = { row with mojosecPolicy := policy.elim (.obj []) Policy.toJson } := by
      split at hrow
      next =>
        simp only [bind_ok, pure_ok] at hrow
        obtain ⟨_, _, rfl⟩ := hrow
        rfl
      next =>
        cases hrow
        rfl
    subst hsaved
    exact ⟨paths, hpaths, hcoverage, hmatrix⟩

theorem prefixes (haccepted : Accepted settings vhost) : ∀ route ∈ vhost.routes,
    validateRoutePrefix route.pathPrefix = .ok route.pathPrefix ∧ route.pathPrefix ≠ "/" ∧
      vhost.kind = .siteApi := by
  intro route hroute
  have hok := haccepted.routes route hroute
  simp only [validateRoute, bind_ok, check_ok, decide_eq_true_eq] at hok
  obtain ⟨found, hfound, _, hkind, _⟩ := hok
  obtain ⟨rfl, _, hne⟩ := validateRoutePrefix_ok hfound
  exact ⟨hfound, hne, hkind⟩

theorem sorted_prefixes (haccepted : Accepted settings vhost) : ∀ route ∈ sortedRoutes vhost,
    validateRoutePrefix route.pathPrefix = .ok route.pathPrefix := fun route hroute =>
  (haccepted.prefixes route (List.mem_insertionSort _ |>.mp hroute)).1

theorem quiet (haccepted : Accepted settings vhost) :
    (quietNames vhost).Nodup ∧
      ∀ path, path ∈ quietNames vhost ↔ path ∈ quietTexts vhost ∧ path ≠ receiverPath := by
  obtain ⟨paths, hpaths, _, _⟩ := haccepted.checks
  obtain ⟨hnodup, htexts, hnames⟩ := quietNames_eq hpaths
  rw [hnames, htexts]
  constructor
  · exact ((List.perm_insertionSort _ paths).nodup_iff.mpr hnodup).filter _
  · intro path
    simp [List.mem_insertionSort]

theorem covered (haccepted : Accepted settings vhost) (hkind : vhost.kind = .siteApi) :
    ∀ path ∈ quietTexts vhost, ∃ route ∈ vhost.routes,
      route.pathPrefix.toList <+: path.toList := by
  obtain ⟨paths, hpaths, hcoverage, _⟩ := haccepted.checks
  rw [(quietNames_eq hpaths).2.1]
  intro path hpath
  rw [validateCoverage, if_pos hkind] at hcoverage
  obtain ⟨pathPrefix, hmem, hcovers⟩ :=
    List.any_eq_true.mp (forM_check_ok hcoverage path hpath)
  split at hmem
  next => cases hmem
  next =>
    obtain ⟨route, hroute, rfl⟩ := List.mem_map.mp hmem
    exact ⟨route, hroute, List.isPrefixOf_iff_prefix.mp hcovers⟩

theorem routedQuiet_eq (haccepted : Accepted settings vhost) (hkind : vhost.kind = .siteApi) :
    routedQuiet vhost = quietNames vhost := by
  rw [routedQuiet, List.filter_eq_self]
  intro path hpath
  obtain ⟨route, hroute, hcovers⟩ :=
    haccepted.covered hkind path (((haccepted.quiet).2 path).mp hpath).1
  rw [longestRoute_isSome haccepted.sorted_prefixes]
  exact ⟨route, (List.mem_insertionSort _).mpr hroute, hcovers⟩

theorem routedReceiver_eq (haccepted : Accepted settings vhost) :
    routedReceiver knobs vhost =
      if ∃ route ∈ vhost.routes, route.pathPrefix.toList <+: receiverPath.toList then
        receiverPaths knobs
      else [] := by
  rw [routedReceiver]
  refine if_congr ?_ rfl rfl
  rw [longestRoute_isSome haccepted.sorted_prefixes]
  simp only [sortedRoutes, List.mem_insertionSort]

end Accepted

/-! ### When two producers share a path -/

/-- The row has the locations of the receiver in observe mode. -/
def ServesReceiver (vhost : Vhost) : Prop :=
  vhost.kind = .api ∨ ∃ route ∈ vhost.routes, route.pathPrefix.toList <+: receiverPath.toList

def ServesHoneypots (settings : Settings) (vhost : Vhost) : Prop :=
  vhost.kind = .siteApi ∧ (owningApp vhost).isSome ∧ ∃ login,
    bouncerLoginPath settings = .ok login ∧ login ∈ vhost.routes.map Route.pathPrefix

structure ProducersApart (settings : Settings) (knobs : Knobs) (vhost : Vhost) : Prop where
  receiver : knobs.mojosecMode = .observe → ServesReceiver vhost →
    receiverPath ++ "/" ∉ quietTexts vhost
  honeypots : ServesHoneypots settings vhost → ∀ path ∈ honeypotPaths, path ∉ quietTexts vhost
  statics : vhost.kind = .siteApi → vhost.serveStatic = true →
    "/static/" ∉ vhost.routes.map Route.pathPrefix

theorem renderedContract_isSome {vhost : Vhost} :
    (found (renderedContract settings vhost (sortedRoutes vhost))).isSome ↔
      ServesHoneypots settings vhost := by
  unfold renderedContract ServesHoneypots
  by_cases hkind : vhost.kind = .siteApi
  · cases howner : owningApp vhost with
    | none => simp [hkind, found, pure, Except.pure]
    | some app =>
      cases hlogin : bouncerLoginPath settings with
      | error refusal => simp [hkind, found, bind, Except.bind]
      | ok login =>
        simp [hkind, found, bind, Except.bind, pure, Except.pure, sortedRoutes,
          List.find?_isSome, List.mem_insertionSort]
  · simp [hkind, found, pure, Except.pure]

theorem nodup_append_receiver {quiet : List String} (hquiet : quiet.Nodup)
    (hnone : receiverPath ∉ quiet) :
    (quiet ++ receiverPaths knobs).Nodup ↔
      (knobs.mojosecMode = .observe → receiverPath ++ "/" ∉ quiet) := by
  unfold receiverPaths
  split
  next hobserve =>
    have hpair : [receiverPath, receiverPath ++ "/"].Nodup := by decide
    rw [List.nodup_append]
    constructor
    · intro hall _ hmem
      exact hall.2.2 _ hmem _ (by simp) rfl
    · intro hslash
      refine ⟨hquiet, hpair, ?_⟩
      rintro path hpath other hother rfl
      simp only [List.mem_cons, List.not_mem_nil, or_false] at hother
      rcases hother with rfl | rfl
      · exact hnone hpath
      · exact hslash hobserve hpath
  next hoff => simp [hoff, hquiet]

theorem nodup_append_honeypots {vhost : Vhost} {before : List String} (hbefore : before.Nodup) :
    (before ++ honeypotNames settings vhost).Nodup ↔
      (ServesHoneypots settings vhost → ∀ path ∈ honeypotPaths, path ∉ before) := by
  have hpots : honeypotPaths.Nodup := by decide
  unfold honeypotNames
  split
  next hsome =>
    have hserves := renderedContract_isSome.mp hsome
    rw [List.nodup_append]
    constructor
    · intro hall _ path hpath hmem
      exact hall.2.2 path hmem path hpath rfl
    · intro hapart
      refine ⟨hbefore, hpots, ?_⟩
      rintro path hpath other hother rfl
      exact hapart hserves path hother hpath
  next hnone =>
    have hnot : ¬ServesHoneypots settings vhost := mt renderedContract_isSome.mpr hnone
    simp [hnot, hbefore]

theorem not_mem_receiver {path : String} (hpath : path ∈ honeypotPaths) :
    path ∉ receiverPaths knobs := by
  unfold receiverPaths
  split
  next =>
    revert path
    decide
  next => exact List.not_mem_nil

/-! ### The server blocks of a row -/

theorem apiKeys_nodup_iff {vhost : Vhost} (haccepted : Accepted settings vhost)
    (hkind : vhost.kind = .api) :
    (blockKeys (apiTrees knobs vhost)).Nodup ↔ ProducersApart settings knobs vhost := by
  obtain ⟨hnodup, hquiet⟩ := haccepted.quiet
  obtain ⟨paths, _, _, hmatrix⟩ := haccepted.checks
  have hupstream : ∃ upstream, vhost.upstream = some upstream := by
    simp only [validateKindMatrix, if_pos hkind, bind_ok, check_ok] at hmatrix
    obtain ⟨_, hsome, _⟩ := hmatrix
    exact Option.isSome_iff_exists.mp hsome
  obtain ⟨upstream, hupstream⟩ := hupstream
  have hreceiver : receiverPath ∉ quietNames vhost := fun hmem => ((hquiet _).mp hmem).2 rfl
  have hslash : receiverPath ++ "/" ≠ receiverPath := by decide
  rw [blockKeys_apiTrees hupstream, nodup_iff_pathsOf]
  constructor
  · intro hall
    refine ⟨fun hobserve _ hmem => ?_, fun hserves => ?_, fun hsite => ?_⟩
    · have hexact := hall .exact
      simp only [pathsOf_append, pathsOf_map, reduceCtorEq, if_true, if_false,
        List.append_nil] at hexact
      exact (nodup_append_receiver hnodup hreceiver).mp hexact hobserve
        ((hquiet _).mpr ⟨hmem, hslash⟩)
    · cases hkind.symm.trans hserves.1
    · cases hkind.symm.trans hsite
  · intro hapart location
    simp only [pathsOf_append, pathsOf_map]
    cases location with
    | exact =>
      simp only [reduceCtorEq, if_true, if_false, List.append_nil]
      rw [nodup_append_receiver hnodup hreceiver]
      exact fun hobserve hmem =>
        hapart.receiver hobserve (.inl hkind) ((hquiet _).mp hmem).1
    | leading =>
      simp only [reduceCtorEq, if_true, if_false, List.nil_append, staticPaths]
      split <;> decide
    | pattern => exact List.nodup_nil

theorem siteApi_exact_nodup_iff {vhost : Vhost} (haccepted : Accepted settings vhost)
    (hkind : vhost.kind = .siteApi) :
    (routedQuiet vhost ++ routedReceiver knobs vhost ++ honeypotNames settings vhost).Nodup ↔
      (knobs.mojosecMode = .observe → ServesReceiver vhost →
        receiverPath ++ "/" ∉ quietTexts vhost) ∧
      (ServesHoneypots settings vhost → ∀ path ∈ honeypotPaths, path ∉ quietTexts vhost) := by
  obtain ⟨hnodup, hquiet⟩ := haccepted.quiet
  have hreceiver : receiverPath ∉ quietNames vhost := fun hmem => ((hquiet _).mp hmem).2 rfl
  have hslash : receiverPath ++ "/" ≠ receiverPath := by decide
  have hserves : ServesReceiver vhost ↔
      ∃ route ∈ vhost.routes, route.pathPrefix.toList <+: receiverPath.toList := by
    simp [ServesReceiver, hkind]
  have hpots : ∀ path ∈ honeypotPaths, path ≠ receiverPath := by decide
  rw [haccepted.routedQuiet_eq hkind, haccepted.routedReceiver_eq]
  have hbefore : (quietNames vhost ++ if ∃ route ∈ vhost.routes,
      route.pathPrefix.toList <+: receiverPath.toList then receiverPaths knobs else []).Nodup ↔
      (knobs.mojosecMode = .observe → ServesReceiver vhost →
        receiverPath ++ "/" ∉ quietTexts vhost) := by
    split
    next hcovers =>
      rw [nodup_append_receiver hnodup hreceiver, hquiet]
      simp [hserves.mpr hcovers, hslash]
    next hnone => simp [hnodup, mt hserves.mp hnone]
  by_cases hfirst : knobs.mojosecMode = .observe → ServesReceiver vhost →
      receiverPath ++ "/" ∉ quietTexts vhost
  · rw [nodup_append_honeypots (hbefore.mpr hfirst), and_iff_right hfirst]
    refine imp_congr_right fun _ => forall₂_congr fun path hpath => not_congr ?_
    have hnone : path ∉ if ∃ route ∈ vhost.routes,
        route.pathPrefix.toList <+: receiverPath.toList then receiverPaths knobs else [] := by
      split
      next => exact not_mem_receiver hpath
      next => exact List.not_mem_nil
    rw [List.mem_append, or_iff_left hnone, hquiet]
    exact and_iff_left (hpots path hpath)
  · rw [List.nodup_append, hbefore]
    simp only [hfirst, false_and]

theorem siteApi_leading_nodup_iff {vhost : Vhost} (haccepted : Accepted settings vhost) :
    (staticPaths vhost ++ (sortedRoutes vhost).map Route.pathPrefix ++ ["/"]).Nodup ↔
      (vhost.serveStatic = true → "/static/" ∉ vhost.routes.map Route.pathPrefix) := by
  have hperm : ((sortedRoutes vhost).map Route.pathPrefix).Perm
      (vhost.routes.map Route.pathPrefix) := (List.perm_insertionSort _ _).map _
  have hroot : "/" ∉ vhost.routes.map Route.pathPrefix := by
    intro hmem
    obtain ⟨route, hroute, heq⟩ := List.mem_map.mp hmem
    exact (haccepted.prefixes route hroute).2.1 heq
  have hall : (staticPaths vhost ++ (sortedRoutes vhost).map Route.pathPrefix ++ ["/"]).Perm
      ("/" :: (staticPaths vhost ++ vhost.routes.map Route.pathPrefix)) :=
    (List.perm_append_singleton _ _).trans ((hperm.append_left _).cons _)
  rw [hall.nodup_iff, List.nodup_cons, List.mem_append, not_or, and_iff_left hroot]
  unfold staticPaths
  split
  next hstatic =>
    have hne : "/" ∉ ["/static/"] := by decide
    rw [and_iff_right hne, List.singleton_append, List.nodup_cons,
      and_iff_left haccepted.unique]
    exact ⟨fun hnone _ => hnone, fun hnone => hnone hstatic⟩
  next hnone => simp [hnone, haccepted.unique]

theorem siteApiKeys_nodup_iff {vhost : Vhost} {generation : Word}
    (haccepted : Accepted settings vhost) (hkind : vhost.kind = .siteApi) :
    (blockKeys (siteApiTrees settings knobs vhost generation)).Nodup ↔
      ProducersApart settings knobs vhost := by
  have hexact := @siteApi_exact_nodup_iff settings knobs vhost haccepted hkind
  have hleading := siteApi_leading_nodup_iff haccepted
  have hlast (location : LocationClass) :
      pathsOf location [(.pattern, assetPattern), (.leading, "/")] =
        (if LocationClass.pattern = location then [assetPattern] else []) ++
          if LocationClass.leading = location then ["/"] else [] := by
    cases location <;> rfl
  rw [blockKeys_siteApiTrees, nodup_iff_pathsOf]
  simp only [pathsOf_append, pathsOf_map, hlast]
  constructor
  · intro hall
    have hfirst := hall .exact
    have hsecond := hall .leading
    simp only [reduceCtorEq, if_true, if_false, List.append_nil, List.nil_append]
      at hfirst hsecond
    exact ⟨(hexact.mp hfirst).1, (hexact.mp hfirst).2, fun _ => hleading.mp hsecond⟩
  · intro hapart location
    cases location with
    | exact =>
      simp only [reduceCtorEq, if_true, if_false, List.append_nil]
      exact hexact.mpr ⟨hapart.receiver, hapart.honeypots⟩
    | leading =>
      simp only [reduceCtorEq, if_true, if_false, List.append_nil, List.nil_append]
      exact hleading.mpr (hapart.statics hkind)
    | pattern => simp

theorem producersApart_of_quiet_nil {vhost : Vhost} (haccepted : Accepted settings vhost)
    (hapi : vhost.kind ≠ .api) (hsite : vhost.kind ≠ .siteApi) :
    ProducersApart settings knobs vhost := by
  refine ⟨fun _ hserves => ?_, fun hserves => absurd hserves.1 hsite, fun hkind => absurd hkind hsite⟩
  rcases hserves with hkind | ⟨route, hroute, _⟩
  · exact absurd hkind hapi
  · exact absurd (haccepted.prefixes route hroute).2.2 hsite

theorem locationKeys_httpsTree (ciphers : List String) (vhost : Vhost) (generation : Word) :
    locationKeys (httpsTree settings knobs ciphers vhost generation) =
      blockKeys (bodyTrees settings knobs vhost generation) := by
  rw [httpsTree, locationKeys, blockKeys_append, blockKeys_headTrees, List.nil_append]

theorem httpsTree_nodup_iff {vhost : Vhost} {ciphers : List String} {generation : Word}
    (haccepted : Accepted settings vhost) :
    (locationKeys (httpsTree settings knobs ciphers vhost generation)).Nodup ↔
      ProducersApart settings knobs vhost := by
  rw [locationKeys_httpsTree, bodyTrees]
  cases hkind : vhost.kind with
  | site =>
    rw [blockKeys_siteTrees]
    refine iff_of_true (by decide) ?_
    exact producersApart_of_quiet_nil haccepted (by simp [hkind]) (by simp [hkind])
  | api => exact apiKeys_nodup_iff haccepted hkind
  | siteApi => exact siteApiKeys_nodup_iff haccepted hkind
  | redirect =>
    refine iff_of_true List.nodup_nil ?_
    exact producersApart_of_quiet_nil haccepted (by simp [hkind]) (by simp [hkind])
  | other kind =>
    refine iff_of_true List.nodup_nil ?_
    exact producersApart_of_quiet_nil haccepted (by simp [hkind]) (by simp [hkind])

def LocationsDiffer (lines : List String) : Prop :=
  ∃ servers, parse (joined lines) = some servers ∧ ∀ server ∈ servers, (locationKeys server).Nodup

theorem locationsDiffer_iff {vhost : Vhost} {generation : Word} {lines : List String}
    (hrender : renderVhost settings knobs vhost generation = .ok lines) :
    LocationsDiffer lines ↔ (locationKeys
      (httpsTree settings knobs (tlsWords knobs.tlsCiphers) vhost generation)).Nodup := by
  have hparse := parse_of_lex (renderVhost_reads hrender).lex
  have hplain : ∀ server ∈ if knobs.httpEnabled then [port80Tree knobs vhost.name] else [],
      (locationKeys server).Nodup := by
    intro server hserver
    split at hserver
    next =>
      rw [List.mem_singleton.mp hserver]
      change [(LocationClass.leading, "/.well-known/acme-challenge/"), (.leading, "/")].Nodup
      decide
    next => cases hserver
  unfold LocationsDiffer
  rw [hparse]
  simp only [Option.some.injEq, exists_eq_left', vhostTrees, List.forall_mem_cons]
  exact and_iff_left hplain

/-- The file of an accepted row has no location twice if and only if no two of the
producers share a path. -/
theorem renderVhost_locations_iff {vhost : Vhost} {generation : Word} {lines : List String}
    (haccepted : Accepted settings vhost)
    (hrender : renderVhost settings knobs vhost generation = .ok lines) :
    LocationsDiffer lines ↔ ProducersApart settings knobs vhost := by
  rw [locationsDiffer_iff hrender, httpsTree_nodup_iff haccepted]

/-! ### A quiet path with the slash of the receiver -/

def quietVhost : Vhost :=
  { apiVhost { pk := 1, name := "app", kind := .http, host := some "app", port := some 80 } with
    quietPaths := .arr [.str "/api/incident/mojosec/batch/"] }

def observingKnobs : Knobs := { plainKnobs with mojosecMode := .observe }

theorem quietVhost_accepted : Accepted plainSettings quietVhost where
  saved := ⟨quietVhost, by rfl⟩
  routes := nofun
  unique := List.nodup_nil

theorem quietVhost_renders : (renderVhost plainSettings observingKnobs quietVhost
    firstGeneration).isOk = true := by
  decide

/-- The location of the quiet path is one of the two that the receiver gets. -/
theorem not_all_locations_differ : ¬∀ (settings : Settings) (knobs : Knobs) (vhost : Vhost)
    (generation : Word) (lines : List String), Accepted settings vhost →
    renderVhost settings knobs vhost generation = .ok lines → LocationsDiffer lines := by
  intro hall
  obtain ⟨lines, hrender⟩ := exists_ok_of_isOk quietVhost_renders
  have hdiffer := hall _ _ _ _ _ quietVhost_accepted hrender
  rw [locationsDiffer_iff hrender] at hdiffer
  revert hdiffer
  decide

theorem quietVhost_locations_iff : ∃ lines,
    renderVhost plainSettings observingKnobs quietVhost firstGeneration = .ok lines ∧
      (LocationsDiffer lines ↔ ProducersApart plainSettings observingKnobs quietVhost) := by
  obtain ⟨lines, hrender⟩ := exists_ok_of_isOk quietVhost_renders
  exact ⟨lines, hrender, renderVhost_locations_iff quietVhost_accepted hrender⟩

end DjangoMojo.Edge
