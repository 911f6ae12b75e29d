import DjangoMojo.Edge.VhostReads

/-! # How the shared files of a generation read

Two values in the http base and in the file of the upstreams are not held to a
whitelist: the path of a unix socket, and the scope that a network keeps. Each is
read as it was meant exactly when it stays within its word.
-/

namespace DjangoMojo.Edge

open Foundation Nginx

variable {settings : Settings} {knobs : Knobs}

/-- The rest of a text that its first characters have begun stays in one word. -/
def Fits (rest : String) : Prop := staysInWord false false rest.toList = true

/-- The target of an upstream stays in the word that `unix:` begins. -/
def Upstream.Fits (upstream : Upstream) : Prop :=
  upstream.kind = .unix → Edge.Fits (upstream.socketPath.getD "")

/-- The network of a row stays in the word that its address begins. -/
def BlocklistEntry.Fits (row : BlocklistEntry) : Prop :=
  ∀ network, IpNetwork.parse row.value = some network → Edge.Fits network.tail

/-- The parts that a loop renders, under the condition of each. -/
theorem lexesIff_of_mapM {Item : Type} {items : List Item} {step : Item → Checked (List String)}
    {parts : List (List String)} {trees : Item → List Directive} {condition : Item → Prop}
    (hok : items.mapM step = .ok parts)
    (hstep : ∀ item ∈ items, ∀ lines, step item = .ok lines →
      LexesIff lines (allTokens (trees item)) (condition item)) :
    LexesIff parts.flatten (allTokens (items.flatMap trees)) (∀ item ∈ items, condition item) := by
  induction items generalizing parts with
  | nil =>
    cases hok
    exact (LexesIff.of_lexes Lexes.nil).congr ⟨(fun _ _ hmem => nomatch hmem), fun _ => trivial⟩
  | cons item rest ih =>
    rw [List.mapM_cons] at hok
    simp only [bind_ok, pure_ok] at hok
    obtain ⟨lines, hlines, more, hmore, rfl⟩ := hok
    rw [List.flatten_cons, List.flatMap_cons]
    have hall := (hstep item List.mem_cons_self lines hlines).trees
      (ih hmore fun other hother => hstep other (List.mem_cons_of_mem _ hother))
    exact hall.congr (by rw [List.forall_mem_cons])

/-! ### Upstreams -/

theorem plain_target {upstream : Upstream} {target : String} (hkind : upstream.kind ≠ .unix)
    (hok : safeUpstreamTarget settings upstream = .ok target) :
    target = targetText upstream ∧ Plain target.toList := by
  unfold safeUpstreamTarget at hok
  split at hok
  next hunix => exact absurd hunix hkind
  next =>
    simp only [bind_ok, pure_ok] at hok
    obtain ⟨host, hhost, port, hport, rfl⟩ := hok
    simp only [validateUpstreamHost, bind_ok, check_ok, pure_ok] at hhost
    obtain ⟨_, hre, _, _, rfl⟩ := hhost
    have hstated : upstream.port = some port := by
      unfold validateUpstreamPort at hport
      split at hport
      next => cases hport
      next number hnumber =>
        simp only [bind_ok, pure_ok] at hport
        obtain ⟨_, _, rfl⟩ := hport
        exact hnumber
    constructor
    · unfold targetText
      split
      next hunix => exact absurd hunix hkind
      next => rw [hstated, Option.getD_some]
    · refine Plain.append_chars ((plain_bounded (by decide) hre).append_chars ?_) (plain_int _).chars
      decide

theorem upstreamBlock_lexesIff {upstream : Upstream} {lines : List String}
    (hok : upstreamBlock settings upstream = .ok lines) :
    LexesIff lines (allTokens [upstreamTree upstream]) upstream.Fits := by
  simp only [upstreamBlock, bind_ok, pure_ok] at hok
  obtain ⟨target, htarget, rfl⟩ := hok
  have hopen : Lexes ["upstream " ++ ("edge_up_" ++ toString upstream.pk) ++ " \x7b"]
      (wordTokens ["upstream", "edge_up_" ++ toString upstream.pk] ++ [.openBrace]) :=
    Lexes.opening_value ["upstream"] (by repeat constructor) (by repeat constructor)
      (by decide) (Plain.append_chars (by decide) (plainChars_digits _))
      (by repeat constructor) fun _ => rfl
  have hlast : Lexes ["\x7d"] [.closeBrace] := by
    change scan .between (lineChars ["\x7d"]) = (.between, [.closeBrace])
    decide
  have hserver : LexesIff ["    server " ++ target ++ ";"]
      (allTokens [.simple ["server", targetText upstream]]) upstream.Fits := by
    by_cases hkind : upstream.kind = .unix
    · have hfits : upstream.Fits ↔ Fits (upstream.socketPath.getD "") :=
        ⟨fun hall => hall hkind, fun hstays _ => hstays⟩
      have htext : target = "unix:" ++ upstream.socketPath.getD "" := by
        rw [safeUpstreamTarget, hkind] at htarget
        simp only [bind_ok, pure_ok, validateSocketPath] at htarget
        obtain ⟨path, ⟨_, _, _, _, _, _, rfl⟩, rfl⟩ := htarget
        rfl
      have hbefore : scan .between "    server ".toList = (.between, wordTokens ["server"]) := by
        decide
      have hbegun : Plain "unix:".toList := by decide
      have hend (text : List Char) (dollar : Bool) :
          scan (.word text false dollar) (";".toList ++ ['\n']) =
            (.between, .word text :: [.semicolon]) := rfl
      have hline : LexesIff ["    server " ++ ("unix:" ++ upstream.socketPath.getD "") ++ ";"] _ _ :=
        LexesIff.line hbefore hbegun rfl hend
      rw [htext, targetText, hkind]
      refine LexesIff.congr hfits.symm ?_
      simpa [Directive.tokens, wordTokens, Fits] using hline
    · obtain ⟨rfl, hplain⟩ := plain_target hkind htarget
      have hline : Lexes ["    server " ++ targetText upstream ++ ";"]
          (allTokens [.simple ["server", targetText upstream]]) :=
        Lexes.simple_value ["server"] [] (by repeat constructor) (by repeat constructor)
          (by decide) hplain (by repeat constructor) .nil fun _ => rfl
      exact (LexesIff.of_lexes hline).congr ⟨fun _ hunix => absurd hunix hkind, fun _ => trivial⟩
  exact LexesIff.after Lexes.blank (LexesIff.block hopen hserver hlast)

theorem renderUpstreams_lexesIff {vhosts : List Vhost} {lines : List String}
    (hok : renderUpstreams settings (referencedUpstreams vhosts) = .ok lines) :
    ∃ rest, lines = rest ++ [""] ∧ LexesIff rest (allTokens (upstreamTrees vhosts))
      (∀ upstream ∈ referencedUpstreams vhosts, upstream.Fits) := by
  simp only [renderUpstreams, bind_ok, pure_ok] at hok
  obtain ⟨blocks, hblocks, rfl⟩ := hok
  refine ⟨_, rfl, ?_⟩
  have hcomment : Lexes
      ["# edge upstreams — named blocks; vhost files reference these only"] (allTokens []) :=
    Lexes.skip (by repeat constructor) (by decide)
  have hall := lexesIff_of_mapM hblocks fun upstream _ lines hlines => upstreamBlock_lexesIff hlines
  rw [upstreamTrees, List.map_eq_flatMap]
  refine (LexesIff.after hcomment hall).congr ?_
  simp [List.mem_insertionSort]

/-! ### The blocklist -/

/-- What closes a line of a map: a value and a semicolon. -/
theorem scan_valueEnd {value : String} (hvalue : Plain value.toList) (text : List Char)
    (dollar : Bool) :
    scan (.word text false dollar) ((" " ++ value ++ ";").toList ++ ['\n']) =
      (.between, .word text :: [.word value.toList, .semicolon]) := by
  have hchars : (" " ++ value ++ ";").toList ++ ['\n'] =
      ' ' :: (value.toList ++ [';', '\n']) := by simp
  have hspace : scan (.word text false dollar) (' ' :: (value.toList ++ [';', '\n'])) =
      ((scan .between (value.toList ++ [';', '\n'])).1,
        .word text :: (scan .between (value.toList ++ [';', '\n'])).2) := rfl
  rw [hchars, hspace, scan_append, scan_between_plain hvalue]
  rfl

theorem geoLine_lexesIff {value : BlocklistEntry → String} {row : BlocklistEntry}
    {lines : List String} (hvalue : Plain (value row).toList)
    (hok : geoLine value row = .ok lines) :
    LexesIff lines (allTokens [.simple [networkText row, value row]]) row.Fits := by
  simp only [geoLine, safeBlocklistIp, bind_ok, pure_ok] at hok
  obtain ⟨network, hnetwork, rfl⟩ := hok
  split at hnetwork
  next parsed hparse =>
    cases hnetwork
    have hfits : row.Fits ↔ Fits network.tail := by
      constructor
      · exact fun hall => hall network hparse
      · intro hstays other hother
        rw [hparse] at hother
        cases hother
        exact hstays
    have hbefore : scan .between "    ".toList = (.between, []) := by decide
    have hstop : (" " ++ value row ++ ";").toList ++ ['\n'] =
        ' ' :: ((value row).toList ++ [';', '\n']) := by simp
    have hline : LexesIff ["    " ++ (network.head ++ network.tail) ++ (" " ++ value row ++ ";")]
        _ _ := LexesIff.line hbefore network.plain_head hstop (scan_valueEnd hvalue)
    have htext : networkText row = network.head ++ network.tail := by
      rw [networkText, hparse]
      rfl
    rw [htext, IpNetwork.text]
    refine LexesIff.congr hfits.symm ?_
    simpa [Directive.tokens, wordTokens, Fits] using hline
  next => cases hnetwork

theorem plain_zero : Plain "0".toList := by decide

theorem closingMap_lexes : Lexes ["\x7d"] [.closeBrace] := by
  change scan .between (lineChars ["\x7d"]) = (.between, [.closeBrace])
  decide

theorem defaultZero_lexes : Lexes ["    default 0;"] (allTokens [.simple ["default", "0"]]) :=
  Lexes.simple_cons (by repeat constructor) (by repeat constructor) (by decide) Lexes.nil

theorem geoBlock_lexesIff {security : List BlocklistEntry} {name : String}
    {activeMode : BlocklistMode} {lines : List String}
    (hopen : Lexes ["geo $" ++ name ++ " \x7b"] (wordTokens ["geo", "$" ++ name] ++ [.openBrace]))
    (hok : geoBlock security name activeMode = .ok lines) :
    LexesIff lines (allTokens [geoTree security name activeMode])
      (∀ row ∈ rowsOf security .ip .allow ++ rowsOf security .ip activeMode, row.Fits) := by
  simp only [geoBlock, bind_ok, pure_ok] at hok
  obtain ⟨allowed, hallowed, active, hactive, rfl⟩ := hok
  have hallowedIff : LexesIff allowed.flatten (allTokens ((rowsOf security .ip .allow).flatMap
      fun row => [.simple [networkText row, "0"]]))
      (∀ row ∈ rowsOf security .ip .allow, row.Fits) :=
    lexesIff_of_mapM hallowed fun row _ _ hlines =>
      @geoLine_lexesIff (fun _ => "0") row _ plain_zero hlines
  have hactiveIff : LexesIff active.flatten (allTokens ((rowsOf security .ip activeMode).flatMap
      fun row => [.simple [networkText row, toString row.id]]))
      (∀ row ∈ rowsOf security .ip activeMode, row.Fits) :=
    lexesIff_of_mapM hactive fun row _ _ hlines =>
      @geoLine_lexesIff (fun row => toString row.id) row _ (plain_nat row.id) hlines
  have hbody := LexesIff.trees_after defaultZero_lexes (hallowedIff.trees hactiveIff)
  rw [geoTree, List.map_eq_flatMap, List.map_eq_flatMap]
  refine LexesIff.congr (List.forall_mem_append.symm) ?_
  simpa using LexesIff.block hopen hbody closingMap_lexes

theorem uaLine_lexes {value : BlocklistEntry → String} {row : BlocklistEntry}
    {lines : List String} (hvalue : Plain (value row).toList)
    (hok : uaLine value row = .ok lines) :
    Lexes lines (allTokens [.simple ["~*" ++ row.value, value row]]) := by
  simp only [uaLine, safeBlocklistUa, bind_ok, check_ok, pure_ok, decide_eq_true_eq] at hok
  obtain ⟨pattern, ⟨stated, hstated, _, heven, rfl⟩, rfl⟩ := hok
  obtain ⟨hrow, hre⟩ := safe_ok hstated
  rw [← Json.str.inj hrow] at hre heven ⊢
  have hquote : '"' ∉ row.value.toList := by
    intro hmem
    simp only [uaPatternRe, Bool.and_eq_true] at hre
    have hrefused := List.all_eq_true.mp hre.2 '"' hmem
    revert hrefused
    decide
  have hclosed : escapedAfter false row.value.toList = false := by
    rw [← Bool.not_eq_true, escapedAfter_iff]
    omega
  have hchars : lineChars ["    \"~*" ++ row.value ++ ("\" " ++ value row ++ ";")] =
      "    \"~*".toList ++ (row.value.toList ++ ('"' :: ' ' ::
        ((value row).toList ++ [';', '\n']))) := by simp [lineChars]
  have hopen : scan .between "    \"~*".toList = (.quoted '"' ['~', '*'] false, []) := by
    decide
  have hclose : scan (.quoted '"' (['~', '*'] ++ row.value.toList) false)
      ('"' :: ' ' :: ((value row).toList ++ [';', '\n'])) =
      ((scan .between ((value row).toList ++ [';', '\n'])).1,
        .word (['~', '*'] ++ row.value.toList) ::
          (scan .between ((value row).toList ++ [';', '\n'])).2) := rfl
  rw [Lexes, hchars, scan_append, hopen]
  simp only
  rw [scan_append, scan_quoted hquote, hclosed]
  simp only
  rw [hclose, scan_append, scan_between_plain hvalue]
  simp [scan, next, endsWord, isBlank, punctuation, start, Directive.tokens, wordTokens]

theorem uaMap_lexes {security : List BlocklistEntry} {name : String} {activeMode : BlocklistMode}
    {lines : List String}
    (hopen : Lexes ["map $http_user_agent $" ++ name ++ " \x7b"]
      (wordTokens ["map", "$http_user_agent", "$" ++ name] ++ [.openBrace]))
    (hok : uaMap security name activeMode = .ok lines) :
    Lexes lines (allTokens [uaTree security name activeMode]) := by
  simp only [uaMap, bind_ok, pure_ok] at hok
  obtain ⟨allowed, hallowed, active, hactive, rfl⟩ := hok
  have hallowedLexes : Lexes allowed.flatten (allTokens ((rowsOf security .ua .allow).flatMap
      fun row => [.simple ["~*" ++ row.value, "0"]])) :=
    lexes_of_mapM hallowed fun row _ _ hlines =>
      @uaLine_lexes (fun _ => "0") row _ plain_zero hlines
  have hactiveLexes : Lexes active.flatten (allTokens ((rowsOf security .ua activeMode).flatMap
      fun row => [.simple ["~*" ++ row.value, toString row.id]])) :=
    lexes_of_mapM hactive fun row _ _ hlines =>
      @uaLine_lexes (fun row => toString row.id) row _ (plain_nat row.id) hlines
  rw [uaTree, List.map_eq_flatMap, List.map_eq_flatMap]
  have hbody := (defaultZero_lexes.trees hallowedLexes).trees hactiveLexes
  simpa using Lexes.block hopen hbody closingMap_lexes

theorem watchLog_lexes : Lexes watchLog (allTokens
    [.block ["map", "$edge_watch_ip:$edge_watch_ua", "$edge_watch"]
      [.simple ["default", "1"], .simple ["0:0", "0"]],
    .simple ["log_format", "edge_watch", "$remote_addr - [$time_local] ",
      "\"$request_method $scheme://$host$request_uri\" ",
      "$status ip=$edge_watch_ip ua=$edge_watch_ua ", "\"$http_user_agent\""]]) := by
  have hopen : Lexes ["map \"$edge_watch_ip:$edge_watch_ua\" $edge_watch \x7b"]
      (wordTokens ["map", "$edge_watch_ip:$edge_watch_ua", "$edge_watch"] ++ [.openBrace]) :=
    Lexes.fixed (by repeat constructor) (by repeat constructor) (by decide)
  have hbody : Lexes ["    default 1;", "    \"0:0\" 0;"]
      (allTokens [.simple ["default", "1"], .simple ["0:0", "0"]]) := by
    repeat
      refine Lexes.simple_cons (by repeat constructor) (by repeat constructor)
        (by decide) ?_
    exact Lexes.nil
  have hformat : Lexes ["log_format edge_watch '$remote_addr - [$time_local] '",
      "                      '\"$request_method $scheme://$host$request_uri\" '",
      "                      '$status ip=$edge_watch_ip ua=$edge_watch_ua '",
      "                      '\"$http_user_agent\"';"]
      (allTokens [.simple ["log_format", "edge_watch", "$remote_addr - [$time_local] ",
        "\"$request_method $scheme://$host$request_uri\" ",
        "$status ip=$edge_watch_ip ua=$edge_watch_ua ", "\"$http_user_agent\""]]) := by
    apply Lexes.simple_of_words
    refine Lexes.words_append ["log_format", "edge_watch", "$remote_addr - [$time_local] "]
      (by repeat constructor) (by repeat constructor) (by decide) ?_
    refine Lexes.words_append ["\"$request_method $scheme://$host$request_uri\" "]
      (by repeat constructor) (by repeat constructor) (by decide) ?_
    refine Lexes.words_append ["$status ip=$edge_watch_ip ua=$edge_watch_ua "]
      (by repeat constructor) (by repeat constructor) (by decide) ?_
    exact Lexes.fixed (by repeat constructor) (by repeat constructor) (by decide)
  have hall := (((Lexes.blank.trees (Lexes.block hopen hbody closingMap_lexes)).trees
    Lexes.blank).trees hformat).trees Lexes.blank
  simpa [watchLog] using hall

/-- The rows that a `geo` block is rendered from. -/
def geoRows (security : List BlocklistEntry) : List BlocklistEntry :=
  rowsOf security .ip .allow ++ rowsOf security .ip .enforce ++ rowsOf security .ip .log

theorem blocklistSection_lexesIff {security : List BlocklistEntry} {lines : List String}
    (hok : blocklistSection knobs security = .ok lines) :
    LexesIff lines (allTokens (blocklistTrees knobs security))
      (∀ row ∈ geoRows security, row.Fits) := by
  simp only [blocklistSection, bind_ok, pure_ok] at hok
  obtain ⟨blockIp, hblockIp, watchIp, hwatchIp, blockUa, hblockUa, watchUa, hwatchUa, rfl⟩ := hok
  have hfirst := geoBlock_lexesIff
    (Lexes.fixed (by repeat constructor) (by repeat constructor) (by decide)) hblockIp
  have hsecond := geoBlock_lexesIff
    (Lexes.fixed (by repeat constructor) (by repeat constructor) (by decide)) hwatchIp
  have hthird := uaMap_lexes
    (Lexes.fixed (by repeat constructor) (by repeat constructor) (by decide)) hblockUa
  have hfourth := uaMap_lexes
    (Lexes.fixed (by repeat constructor) (by repeat constructor) (by decide)) hwatchUa
  have hlog : Lexes ["access_log " ++ (knobs.logDir.text ++ "/edge_watch.log") ++
      " edge_watch if=$edge_watch;"] (allTokens [.simple ["access_log",
        knobs.logDir.text ++ "/edge_watch.log", "edge_watch", "if=$edge_watch"]]) :=
    Lexes.simple_value ["access_log"] ["edge_watch", "if=$edge_watch"] (by repeat constructor)
      (by repeat constructor) (by decide)
      (knobs.logDir.plain.append_chars (by decide)) (by repeat constructor)
      (by repeat constructor) fun _ => rfl
  have hrest := (((hthird.trees Lexes.blank).trees hfourth).trees watchLog_lexes).trees hlog
  have hall := (((hfirst.trees_before Lexes.blank).trees
    (hsecond.trees_before Lexes.blank)).trees_before hrest)
  refine (LexesIff.congr ?_ (by simpa [blocklistTrees] using hall))
  simp only [geoRows, List.mem_append, or_imp, forall_and]
  tauto

/-! ### The security log -/

/-- A line of a map with two quoted values. -/
theorem quotedPair_lexes {first second : String} (hfirst : Plain first.toList)
    (hsecond : Plain second.toList) :
    Lexes ["    \"" ++ first ++ ("\" \"" ++ second ++ "\";")]
      (allTokens [.simple [first, second]]) := by
  have hunquoted {text : List Char} (hplain : Plain text) : ∀ char ∈ text, char ≠ '"' ∧ char ≠ '\\' := by
    intro char hchar
    have hok := hplain.2 char hchar
    constructor
    · rintro rfl
      exact absurd hok (by decide)
    · rintro rfl
      exact absurd hok (by decide)
  have hchars : lineChars ["    \"" ++ first ++ ("\" \"" ++ second ++ "\";")] =
      "    \"".toList ++ (first.toList ++ ('"' :: ' ' :: '"' :: (second.toList ++
        ['"', ';', '\n']))) := by simp [lineChars]
  have hopen : scan .between "    \"".toList = (.quoted '"' [] false, []) := by decide
  have hbetween (text : List Char) : scan (.quoted '"' text false)
      ('"' :: ' ' :: '"' :: (second.toList ++ ['"', ';', '\n'])) =
      ((scan (.quoted '"' [] false) (second.toList ++ ['"', ';', '\n'])).1,
        .word text :: (scan (.quoted '"' [] false) (second.toList ++ ['"', ';', '\n'])).2) := rfl
  have hclose (text : List Char) : scan (.quoted '"' text false) ['"', ';', '\n'] =
      (.between, [.word text, .semicolon]) := rfl
  rw [Lexes, hchars, scan_append, hopen]
  simp only
  rw [scan_append, scan_quoted_plain (hunquoted hfirst)]
  simp only
  rw [hbetween, scan_append, scan_quoted_plain (hunquoted hsecond)]
  simp only
  rw [hclose]
  simp [Directive.tokens, wordTokens]

theorem plain_resourceId (row : Evidence) : Plain row.resourceId.toList :=
  Plain.append_chars (by decide) (plainChars_digits _)

/-- An escaped server name stays in its word. -/
theorem staysInWord_mapPattern {text : String} {rest : List Char} (hplain : PlainChars text.toList)
    (hrest : staysInWord false false rest = true) :
    staysInWord false false ((mapPattern text).toList ++ rest) = true := by
  rw [mapPattern, String.toList_ofList]
  revert hplain
  generalize text.toList = chars
  intro hplain
  induction chars with
  | nil => exact hrest
  | cons char more ih =>
    have hmore := ih fun other hother => hplain other (List.mem_cons_of_mem _ hother)
    rw [List.flatMap_cons, List.append_assoc]
    split
    · -- The backslash takes the character in, whatever it is.
      simpa [staysInWord, endsWord, isBlank] using hmore
    · refine staysInWord_append ?_ hmore
      intro other hother
      rw [List.mem_singleton.mp hother]
      exact hplain char List.mem_cons_self

theorem responseClassLines_lexes {row : Evidence} (hplain : Plain row.serverName.toList) :
    Lexes (responseClassLines row) (allTokens (responseClassTrees row)) := by
  have hbefore : scan .between "    ".toList = (.between, []) := by decide
  have hbegun : Plain "~*^".toList := by decide
  have hfamily (family : Family) : Lexes
      ["    " ++ ("~*^" ++ (mapPattern row.serverName ++ ":" ++ impossiblePath family)) ++
        " \"impossible_path\";"]
      (allTokens [.simple ["~*^" ++ (mapPattern row.serverName ++ ":" ++ impossiblePath family),
        "impossible_path"]]) := by
    have hpattern : staysInWord false false (":" ++ impossiblePath family).toList = true := by
      cases family with
      | adminTools => decide
      | phpRuntime => decide
      | secretFiles => decide
      | wordpress => decide
    have hstays : staysInWord false false
        (mapPattern row.serverName ++ ":" ++ impossiblePath family).toList = true := by
      rw [String.append_assoc, String.toList_append]
      exact staysInWord_mapPattern hplain.chars hpattern
    have hend (text : List Char) (dollar : Bool) :
        scan (.word text false dollar) (" \"impossible_path\";".toList ++ ['\n']) =
          (.between, .word text :: [.word "impossible_path".toList, .semicolon]) := rfl
    have hline := (LexesIff.line hbefore hbegun rfl hend).lexes hstays
    simpa [Directive.tokens, wordTokens] using hline
  have hstays : staysInWord false false (mapPattern row.serverName ++ ":").toList = true := by
    rw [String.toList_append]
    exact staysInWord_mapPattern hplain.chars (by decide)
  have hclass : Lexes ["    " ++ ("~*^" ++ (mapPattern row.serverName ++ ":")) ++
      (" \"" ++ row.policy.responseClass.text ++ "\";")]
      (allTokens [.simple ["~*^" ++ (mapPattern row.serverName ++ ":"),
        row.policy.responseClass.text]]) := by
    have hend (text : List Char) (dollar : Bool) :
        scan (.word text false dollar)
          ((" \"" ++ row.policy.responseClass.text ++ "\";").toList ++ ['\n']) =
          (.between, .word text :: [.word row.policy.responseClass.text.toList, .semicolon]) := by
      cases row.policy.responseClass with
      | reverseProxy => rfl
      | spaFallback => rfl
      | staticSite => rfl
      | siteApi => rfl
      | redirect => rfl
    have hstop : ∃ chars, (" \"" ++ row.policy.responseClass.text ++ "\";").toList ++ ['\n'] =
        ' ' :: chars := ⟨_, by simp; rfl⟩
    obtain ⟨chars, hstop⟩ := hstop
    have hline := (LexesIff.line hbefore hbegun hstop hend).lexes hstays
    simpa [Directive.tokens, wordTokens] using hline
  have hfamilies : Lexes (row.policy.families.flatMap fun family =>
      ["    " ++ ("~*^" ++ (mapPattern row.serverName ++ ":" ++ impossiblePath family)) ++
        " \"impossible_path\";"])
      (allTokens (row.policy.families.map fun family =>
        .simple ["~*^" ++ (mapPattern row.serverName ++ ":" ++ impossiblePath family),
          "impossible_path"])) :=
    Lexes.each fun family _ => hfamily family
  exact hfamilies.trees hclass

theorem mojosecLogFormat_lexes : Lexes mojosecLogFormat (allTokens [mojosecLogTree]) := by
  apply Lexes.simple_of_words
  refine Lexes.words_append ["log_format", "mojosec_v1", "escape=json"] (by repeat constructor)
    (by repeat constructor) (by decide) ?_
  iterate 24
    refine Lexes.words_append [_] (by repeat constructor) (by repeat constructor)
      (by decide) ?_
  exact Lexes.fixed (by repeat constructor) (by repeat constructor) (by decide)

theorem mojosecEvidence_plain {vhosts : List Vhost} {evidence : List Evidence}
    (hok : mojosecVhostEvidence vhosts = .ok evidence) :
    ∀ row ∈ evidence, Plain row.serverName.toList := by
  simp only [mojosecVhostEvidence, bind_ok, pure_ok] at hok
  obtain ⟨rows, hrows, rfl⟩ := hok
  induction vhosts generalizing rows with
  | nil =>
    cases hrows
    exact List.forall_mem_nil _
  | cons vhost rest ih =>
    rw [List.mapM_cons] at hrows
    simp only [bind_ok, pure_ok] at hrows
    obtain ⟨found, hfound, more, hmore, rfl⟩ := hrows
    intro row hrow
    rw [List.flatten_cons, List.mem_append] at hrow
    cases hrow with
    | inr hlater => exact ih more hmore row hlater
    | inl hfirst =>
      simp only [vhostEvidence, bind_ok] at hfound
      obtain ⟨policy, _, hrest⟩ := hfound
      cases policy with
      | none =>
        cases hrest
        cases hfirst
      | some policy =>
        simp only [bind_ok, pure_ok] at hrest
        obtain ⟨name, _, serverName, hsafe, rfl⟩ := hrest
        obtain ⟨rfl, hplain⟩ := safeServerName_ok hsafe
        rw [List.mem_singleton.mp hfirst]
        exact hplain

theorem defaultEmpty_lexes : Lexes ["    default \"\";"] (allTokens [.simple ["default", ""]]) :=
  Lexes.simple_cons (by repeat constructor) (by repeat constructor) (by decide) Lexes.nil

theorem mojosecHttpLog_lexes {vhosts : List Vhost} {evidence : List Evidence}
    (hevidence : mojosecVhostEvidence vhosts = .ok evidence) :
    Lexes (mojosecHttpLog knobs evidence) (allTokens (mojosecTrees knobs vhosts)) := by
  have hrows : evidenceOf vhosts =
      evidence.insertionSort fun first second => first.serverName ≤ second.serverName := by
    rw [evidenceOf, hevidence]
  have hplain : ∀ row ∈ evidenceOf vhosts, Plain row.serverName.toList := by
    intro row hrow
    rw [hrows, List.mem_insertionSort] at hrow
    exact mojosecEvidence_plain hevidence row hrow
  have hcomment : Lexes ["# MojoSec security log v1 — generated; do not hand-edit"]
      (allTokens []) := Lexes.skip (by repeat constructor) (by decide)
  have hproxies : Lexes (if knobs.trustedProxies.isEmpty then [] else
      (knobs.trustedProxies.flatMap fun network => ["set_real_ip_from " ++ network.text ++ ";"]) ++
        ["real_ip_header X-Forwarded-For;", "real_ip_recursive on;"])
      (allTokens (if knobs.trustedProxies.isEmpty then [] else
        knobs.trustedProxies.map (fun network => .simple ["set_real_ip_from", network.text]) ++
          [.simple ["real_ip_header", "X-Forwarded-For"],
            .simple ["real_ip_recursive", "on"]])) := by
    split
    next => exact Lexes.nil
    next =>
      have hnetwork (network : Word) : Lexes ["set_real_ip_from " ++ network.text ++ ";"]
          (allTokens [.simple ["set_real_ip_from", network.text]]) :=
        Lexes.simple_value ["set_real_ip_from"] [] (by repeat constructor) (by repeat constructor)
          (by decide) network.plain (by repeat constructor) .nil fun _ => rfl
      have hall : Lexes (knobs.trustedProxies.flatMap fun network =>
          ["set_real_ip_from " ++ network.text ++ ";"])
          (allTokens (knobs.trustedProxies.map fun network =>
            .simple ["set_real_ip_from", network.text])) :=
        Lexes.each fun network _ => hnetwork network
      refine hall.trees ?_
      repeat
        refine Lexes.simple_cons (by repeat constructor) (by repeat constructor)
          (by decide) ?_
      exact Lexes.nil
  have hresource : Lexes ((evidenceOf vhosts).flatMap resourceLine)
      (allTokens ((evidenceOf vhosts).map fun row => .simple [row.serverName, row.resourceId])) :=
    Lexes.each fun row hrow => quotedPair_lexes (hplain row hrow) (plain_resourceId row)
  have hversion : Lexes ((evidenceOf vhosts).flatMap versionLine)
      (allTokens ((evidenceOf vhosts).map fun row =>
        .simple [row.serverName, toString row.policy.version])) :=
    Lexes.each fun row hrow => quotedPair_lexes (hplain row hrow) (plain_int row.policy.version)
  have hclass : Lexes ((evidenceOf vhosts).flatMap responseClassLines)
      (allTokens ((evidenceOf vhosts).flatMap responseClassTrees)) :=
    Lexes.items fun row hrow => responseClassLines_lexes (hplain row hrow)
  have hresourceMap := Lexes.block (Lexes.fixed (by repeat constructor)
    (by repeat constructor) (by decide) : Lexes
      ["map $server_name $mojosec_resource_id \x7b"]
      (wordTokens ["map", "$server_name", "$mojosec_resource_id"] ++ [.openBrace]))
    (defaultEmpty_lexes.trees hresource) closingMap_lexes
  have hversionMap := Lexes.block (Lexes.fixed (by repeat constructor)
    (by repeat constructor) (by decide) : Lexes
      ["map $server_name $mojosec_policy_version \x7b"]
      (wordTokens ["map", "$server_name", "$mojosec_policy_version"] ++ [.openBrace]))
    (defaultEmpty_lexes.trees hversion) closingMap_lexes
  have hclassMap := Lexes.block (Lexes.fixed (by repeat constructor)
    (by repeat constructor) (by decide) : Lexes
      ["map \"$server_name:$uri\" $mojosec_response_class \x7b"]
      (wordTokens ["map", "$server_name:$uri", "$mojosec_response_class"] ++ [.openBrace]))
    (defaultEmpty_lexes.trees hclass) closingMap_lexes
  have haccess : Lexes ["access_log /var/log/nginx/mojosec.json.log mojosec_v1;", ""]
      (allTokens [.simple ["access_log", "/var/log/nginx/mojosec.json.log", "mojosec_v1"]]) :=
    Lexes.simple_cons (by repeat constructor) (by repeat constructor) (by decide)
      Lexes.blank
  have hall := ((((hcomment.trees hproxies).trees hresourceMap).trees hversionMap).trees
    hclassMap).trees (mojosecLogFormat_lexes.trees haccess)
  rw [mojosecHttpLog, mojosecTrees, ← hrows]
  simpa using hall

/-! ### The http base -/

theorem mojosecPart_lexes {vhosts : List Vhost} {lines : List String}
    (hok : mojosecPart knobs vhosts = .ok lines) :
    Lexes lines (allTokens
      (if knobs.mojosecMode = .observe then mojosecTrees knobs vhosts else [])) := by
  unfold mojosecPart at hok
  split at hok
  next hobserve =>
    simp only [bind_ok, pure_ok] at hok
    obtain ⟨evidence, hevidence, rfl⟩ := hok
    rw [if_pos hobserve]
    exact mojosecHttpLog_lexes hevidence
  next hoff =>
    cases hok
    rw [if_neg hoff]
    exact Lexes.nil

theorem baseLog_lexes : Lexes baseLog (allTokens
    [.simple ["log_format", "main", "$remote_addr - - [$time_local] ",
      "\"$request_method $scheme://$host$request_uri $server_protocol\" ",
      "$status $body_bytes_sent \"$http_referer\" ",
      "\"$http_user_agent\" $request_time $server_port"],
    .block ["map", "$http_user_agent", "$loggable"]
      [.simple ["~*ELB-HealthChecker", "0"], .simple ["default", "1"]]]) := by
  have hformat : Lexes ["log_format main '$remote_addr - - [$time_local] '",
      "                '\"$request_method $scheme://$host$request_uri $server_protocol\" '",
      "                '$status $body_bytes_sent \"$http_referer\" '",
      "                '\"$http_user_agent\" $request_time $server_port';"]
      (allTokens [.simple ["log_format", "main", "$remote_addr - - [$time_local] ",
        "\"$request_method $scheme://$host$request_uri $server_protocol\" ",
        "$status $body_bytes_sent \"$http_referer\" ",
        "\"$http_user_agent\" $request_time $server_port"]]) := by
    apply Lexes.simple_of_words
    refine Lexes.words_append ["log_format", "main", "$remote_addr - - [$time_local] "]
      (by repeat constructor) (by repeat constructor) (by decide) ?_
    refine Lexes.words_append [_] (by repeat constructor) (by repeat constructor)
      (by decide +kernel) ?_
    refine Lexes.words_append [_] (by repeat constructor) (by repeat constructor)
      (by decide) ?_
    exact Lexes.fixed (by repeat constructor) (by repeat constructor) (by decide)
  have hopen : Lexes ["map $http_user_agent $loggable \x7b"]
      (wordTokens ["map", "$http_user_agent", "$loggable"] ++ [.openBrace]) :=
    Lexes.fixed (by repeat constructor) (by repeat constructor) (by decide)
  have hbody : Lexes ["    ~*ELB-HealthChecker 0;", "    default 1;"]
      (allTokens [.simple ["~*ELB-HealthChecker", "0"], .simple ["default", "1"]]) := by
    repeat
      refine Lexes.simple_cons (by repeat constructor) (by repeat constructor)
        (by decide) ?_
    exact Lexes.nil
  have hall := (((Lexes.blank.trees hformat).trees Lexes.blank).trees
    (Lexes.block hopen hbody closingMap_lexes)).trees Lexes.blank
  simpa [baseLog] using hall

theorem upgradeMap_lexes : Lexes upgradeMap (allTokens
    [.block ["map", "$http_upgrade", "$connection_upgrade"]
      [.simple ["default", "upgrade"], .simple ["", "close"]]]) := by
  have hfirst : Lexes ["# this node's bootstrap declares no $connection_upgrade map, so"]
      (allTokens []) := Lexes.skip (by repeat constructor) (by decide)
  have hsecond : Lexes ["# this generation carries it — see services/installer.py"]
      (allTokens []) := Lexes.skip (by repeat constructor) (by decide)
  have hopen : Lexes ["map $http_upgrade $connection_upgrade \x7b"]
      (wordTokens ["map", "$http_upgrade", "$connection_upgrade"] ++ [.openBrace]) :=
    Lexes.fixed (by repeat constructor) (by repeat constructor) (by decide)
  have hbody : Lexes ["    default upgrade;", "    '' close;"]
      (allTokens [.simple ["default", "upgrade"], .simple ["", "close"]]) := by
    repeat
      refine Lexes.simple_cons (by repeat constructor) (by repeat constructor)
        (by decide) ?_
    exact Lexes.nil
  have hall := ((hfirst.trees hsecond).trees
    (Lexes.block hopen hbody closingMap_lexes)).trees Lexes.blank
  simpa [upgradeMap] using hall

theorem defaultComment_lexes : Lexes (if knobs.httpEnabled then
    ["# Catch-alls for names no vhost claims. 443 rejects the TLS",
      "# handshake outright (no certificate needed, no name leaked);",
      "# 80 drops the connection. Flag-gated by EDGE_HTTP_DEFAULT_SERVER",
      "# so a migrating deployment can keep its file-managed default",
      "# server until the cutover step."]
    else
      ["# Catch-all for names no vhost claims. 443 rejects the TLS",
        "# handshake outright; public HTTP vhosts are disabled."]) (allTokens []) := by
  split
  next =>
    repeat refine Lexes.skip_cons (by repeat constructor) (by decide) ?_
    exact Lexes.nil
  next =>
    repeat refine Lexes.skip_cons (by repeat constructor) (by decide) ?_
    exact Lexes.nil

theorem serverOpening_lexes : Lexes ["server \x7b"] (wordTokens ["server"] ++ [.openBrace]) :=
  Lexes.fixed (by repeat constructor) (by repeat constructor) (by decide)

/-- The default server of port 443. -/
theorem defaultSecure_lexes : Lexes
    ["server \x7b", "    listen 443 ssl default_server;",
      "    listen [::]:443 ssl default_server;", "    ssl_reject_handshake on;", "\x7d"]
    (allTokens [.block ["server"] [.simple ["listen", "443", "ssl", "default_server"],
      .simple ["listen", "[::]:443", "ssl", "default_server"],
      .simple ["ssl_reject_handshake", "on"]]]) := by
  have hbody : Lexes ["    listen 443 ssl default_server;",
      "    listen [::]:443 ssl default_server;", "    ssl_reject_handshake on;"]
      (allTokens [.simple ["listen", "443", "ssl", "default_server"],
        .simple ["listen", "[::]:443", "ssl", "default_server"],
        .simple ["ssl_reject_handshake", "on"]]) := by
    repeat
      refine Lexes.simple_cons (by repeat constructor) (by repeat constructor)
        (by decide) ?_
    exact Lexes.nil
  have hblock := Lexes.block serverOpening_lexes hbody closingMap_lexes
  simpa only [List.cons_append, List.nil_append] using hblock

/-- The default server of port 80. -/
theorem defaultPlain_lexes : Lexes
    ["", "server \x7b", "    listen 80 default_server;", "    listen [::]:80 default_server;",
      "    return 444;", "\x7d"]
    (allTokens [.block ["server"] [.simple ["listen", "80", "default_server"],
      .simple ["listen", "[::]:80", "default_server"], .simple ["return", "444"]]]) := by
  have hbody : Lexes ["    listen 80 default_server;", "    listen [::]:80 default_server;",
      "    return 444;"] (allTokens [.simple ["listen", "80", "default_server"],
        .simple ["listen", "[::]:80", "default_server"], .simple ["return", "444"]]) := by
    repeat
      refine Lexes.simple_cons (by repeat constructor) (by repeat constructor)
        (by decide) ?_
    exact Lexes.nil
  have hblock := Lexes.blank.trees (Lexes.block serverOpening_lexes hbody closingMap_lexes)
  simpa only [List.cons_append, List.nil_append] using hblock

theorem defaultServers_lexes :
    Lexes (defaultServers knobs) (allTokens (defaultTrees knobs)) := by
  have hplain : Lexes (if knobs.httpEnabled then ["", "server \x7b",
      "    listen 80 default_server;", "    listen [::]:80 default_server;", "    return 444;",
      "\x7d"] else [])
      (allTokens (if knobs.httpEnabled then [.block ["server"]
        [.simple ["listen", "80", "default_server"],
          .simple ["listen", "[::]:80", "default_server"], .simple ["return", "444"]]]
      else [])) := by
    split
    next => exact defaultPlain_lexes
    next => exact Lexes.nil
  have hfirst := Lexes.blank.trees (@defaultComment_lexes knobs)
  exact (hfirst.trees defaultSecure_lexes).trees hplain

theorem renderHttpBase_lexesIff {security : List BlocklistEntry} {vhosts : List Vhost}
    {carryUpgradeMap : Bool} {lines : List String}
    (hok : renderHttpBase knobs security vhosts carryUpgradeMap = .ok lines) :
    ∃ rest, lines = rest ++ [""] ∧
      LexesIff rest (allTokens (baseTrees knobs security vhosts carryUpgradeMap))
        (∀ row ∈ geoRows security, row.Fits) := by
  simp only [renderHttpBase, bind_ok, pure_ok] at hok
  obtain ⟨mojosec, hmojosec, blocklist, hblocklist, rfl⟩ := hok
  refine ⟨_, rfl, ?_⟩
  have hcomment : Lexes ["# edge http base — rendered per generation, never hand-edited"]
      (allTokens []) := Lexes.skip (by repeat constructor) (by decide)
  have hinclude : Lexes ["include " ++ knobs.mimeTypes.text ++ ";"]
      (allTokens [.simple ["include", knobs.mimeTypes.text]]) :=
    Lexes.simple_value ["include"] [] (by repeat constructor) (by repeat constructor)
      (by decide) knobs.mimeTypes.plain (by repeat constructor) .nil fun _ => rfl
  have haccess : Lexes ["access_log " ++ (knobs.logDir.text ++ "/access.log") ++
      " main if=$loggable;"] (allTokens [.simple ["access_log",
        knobs.logDir.text ++ "/access.log", "main", "if=$loggable"]]) :=
    Lexes.simple_value ["access_log"] ["main", "if=$loggable"] (by repeat constructor)
      (by repeat constructor) (by decide)
      (knobs.logDir.plain.append_chars (by decide)) (by repeat constructor)
      (by repeat constructor) fun _ => rfl
  have hupgrade : Lexes (if carryUpgradeMap then upgradeMap else [])
      (allTokens (if carryUpgradeMap then
        [.block ["map", "$http_upgrade", "$connection_upgrade"]
          [.simple ["default", "upgrade"], .simple ["", "close"]]] else [])) := by
    split
    next => exact upgradeMap_lexes
    next => exact Lexes.nil
  have hkeepalive : Lexes ["sendfile on;",
      "keepalive_timeout " ++ toString knobs.keepaliveTimeout ++ ";"]
      (allTokens [.simple ["sendfile", "on"],
        .simple ["keepalive_timeout", toString knobs.keepaliveTimeout]]) := by
    refine Lexes.simple_cons (by repeat constructor) (by repeat constructor) (by decide) ?_
    exact Lexes.simple_value ["keepalive_timeout"] [] (by repeat constructor)
      (by repeat constructor) (by decide) (plain_int _) (by repeat constructor) .nil
      fun _ => rfl
  have hgzip : Lexes baseGzip (allTokens [.simple ["server_tokens", "off"],
      .simple ["gzip", "on"], .simple ["gzip_vary", "on"], .simple ["gzip_comp_level", "5"],
      .simple ["gzip_min_length", "256"], .simple ["gzip_proxied", "any"],
      .simple ["gzip_types", "text/plain", "text/css", "application/json",
        "application/javascript", "text/xml", "application/xml", "image/svg+xml"]]) := by
    unfold baseGzip
    iterate 7
      refine Lexes.simple_cons (by repeat constructor) (by repeat constructor)
        (by decide +kernel) ?_
    exact Lexes.blank
  have hdefault : Lexes (if knobs.defaultServer then defaultServers knobs else [])
      (allTokens (if knobs.defaultServer then defaultTrees knobs else [])) := by
    split
    next => exact defaultServers_lexes
    next => exact Lexes.nil
  have hbefore := ((((((hcomment.trees hinclude).trees baseLog_lexes).trees haccess).trees
    Lexes.blank).trees (mojosecPart_lexes hmojosec)).trees hupgrade).trees
    (hkeepalive.trees hgzip)
  have hall := LexesIff.trees_before (LexesIff.trees_after hbefore
    (blocklistSection_lexesIff hblocklist)) hdefault
  simpa [baseTrees] using hall

end DjangoMojo.Edge
