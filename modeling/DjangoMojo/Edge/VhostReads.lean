import DjangoMojo.Edge.PlainValues
import DjangoMojo.Edge.Skeleton
import DjangoMojo.Foundation.NginxLines

/-! # How the file of a virtual host reads

The lines of each builder spell the directives that are meant. Every value in them
is plain, but for the words of the TLS values, which are separate arguments.
-/

namespace DjangoMojo.Edge

open Foundation Nginx

variable {settings : Settings} {knobs : Knobs}

/-! ### The head of a server -/

theorem spaceOrPlain_of_tlsValueRe {text : List Char} (hvalue : tlsValueRe text = true) :
    ∀ char ∈ text, char = ' ' ∨ isPlain char = true := by
  simp only [tlsValueRe, Bool.and_eq_true] at hvalue
  intro char hchar
  have htls := List.all_eq_true.mp hvalue.2 char hchar
  by_cases hspace : char = ' '
  · exact .inl hspace
  · exact .inr (@isPlain_of_accepts (fun other => isTlsChar other && other ≠ ' ') (by decide) char
      (by simp [htls, hspace]))

/-- A directive whose value is a TLS setting. -/
theorem tlsLine_lexes {before name value : String} {chars text : List Char}
    (hbefore : Spells before chars) (hname : Spells name text)
    (hscan : scan .between chars = (.between, [.word text]))
    (hvalue : tlsValueRe value.toList = true) :
    Lexes [before ++ value ++ ";"] (allTokens [.simple (name :: tlsWords (.str value))]) := by
  have hlines : lineChars [before ++ value ++ ";"] = chars ++ (value.toList ++ [';', '\n']) := by
    simp [lineChars, hbefore.toList_eq]
  have htokens : allTokens [.simple (name :: tlsWords (.str value))] =
      .word text :: ((spaceWords value.toList).map .word ++ [.semicolon]) := by
    simp [Directive.tokens, wordTokens, tlsWords, hname.toList_eq, Function.comp_def]
  rw [Lexes, hlines, htokens, scan_append, hscan]
  simp only
  rw [scan_spaceWords (spaceOrPlain_of_tlsValueRe hvalue)]
  rfl

theorem tlsBlock_lexes {generation : Word} {vhost : Vhost} {lines : List String}
    (hok : tlsBlock settings knobs generation vhost.certificate.pk = .ok lines) :
    Lexes lines
      (allTokens (tlsTrees settings knobs (tlsWords knobs.tlsCiphers) vhost generation)) := by
  simp only [tlsBlock, bind_ok, pure_ok] at hok
  obtain ⟨protocols, hprotocols, ciphers, hciphers, rfl⟩ := hok
  obtain ⟨hprotocolsValue, hprotocolsRe⟩ := safe_ok hprotocols
  obtain ⟨hciphersValue, hciphersRe⟩ := safe_ok hciphers
  have hcerts := plain_certDir settings generation vhost.certificate.pk
  rw [tlsTrees, hprotocolsValue, hciphersValue]
  refine Lexes.cons (Lexes.simple_value ["ssl_certificate"] [] (by repeat constructor)
    (by repeat constructor) (by decide) (hcerts.append_chars (by decide))
    (by repeat constructor) .nil fun _ => rfl) ?_
  refine Lexes.cons (Lexes.simple_value ["ssl_certificate_key"] [] (by repeat constructor)
    (by repeat constructor) (by decide) (hcerts.append_chars (by decide))
    (by repeat constructor) .nil fun _ => rfl) ?_
  refine Lexes.cons (tlsLine_lexes (by repeat constructor) (by repeat constructor)
    (by decide) hprotocolsRe) ?_
  refine Lexes.cons (tlsLine_lexes (by repeat constructor) (by repeat constructor)
    (by decide) hciphersRe) ?_
  repeat
    refine Lexes.simple_cons (by repeat constructor) (by repeat constructor) (by decide) ?_
  exact Lexes.nil

theorem headerBlock_lexes {indent : String} (hindent : indent = "    " ∨ indent = "        ") :
    Lexes (headerBlock indent) (allTokens headerTrees) := by
  unfold headerBlock headerTrees
  cases hindent with
  | inl hfour =>
    subst hfour
    repeat
      refine Lexes.simple_cons (by repeat constructor) (by repeat constructor)
        (by decide +kernel) ?_
    exact Lexes.nil
  | inr height =>
    subst height
    repeat
      refine Lexes.simple_cons (by repeat constructor) (by repeat constructor)
        (by decide +kernel) ?_
    exact Lexes.nil

theorem safeBodySize_lexes {vhost : Vhost} {lines : List String}
    (hok : safeBodySize vhost = .ok lines) :
    Lexes lines
      (allTokens [.simple ["client_max_body_size", toString vhost.bodySizeMb ++ "m"]]) := by
  simp only [safeBodySize, bind_ok, pure_ok] at hok
  obtain ⟨size, hsize, rfl⟩ := hok
  rw [validateBodySizeMb_ok hsize]
  exact Lexes.simple_value ["client_max_body_size"] [] (by repeat constructor)
    (by repeat constructor) (by decide)
    ((plain_int _).append_chars (by decide)) (by repeat constructor) .nil fun _ => rfl

/-- An `if` block on one line that returns a status. -/
theorem guardLine_lexes {line status : String} {chars : List Char} {words : List String}
    {texts : List (List Char)} (hline : Spells line chars) (hwords : SpellsAll words texts)
    (hscan : scan .between (chars ++ ['\n']) = (.between, texts.map .word ++
      [.openBrace, .word "return".toList, .word status.toList, .semicolon, .closeBrace])) :
    Lexes [line] (allTokens [.block words [.simple ["return", status]]]) := by
  have hfixed := Lexes.fixed hline hwords hscan
  simpa [Directive.tokens, wordTokens] using hfixed

theorem blocklistGuards_lexes : Lexes blocklistGuards (allTokens guardTrees) := by
  refine Lexes.cons (guardLine_lexes (by repeat constructor) (by repeat constructor)
    (by decide)) ?_
  exact guardLine_lexes (by repeat constructor) (by repeat constructor) (by decide)

theorem impossiblePathLines_lexes (family : Family) :
    Lexes (impossiblePathLines family) (allTokens [impossibleTree family]) := by
  have hlines {comment line : String} {skipped chars : List Char} {words : List String}
      {texts : List (List Char)} (hcomment : Spells comment skipped)
      (hskip : scan .between (skipped ++ ['\n']) = (.between, [])) (hline : Spells line chars)
      (hwords : SpellsAll words texts)
      (hscan : scan .between (chars ++ ['\n']) = (.between, texts.map .word ++
        [.openBrace, .word "return".toList, .word "404".toList, .semicolon, .closeBrace])) :
      Lexes [comment, line, ""] (allTokens [.block words [.simple ["return", "404"]]]) := by
    have hguard := guardLine_lexes hline hwords hscan
    exact ((Lexes.skip hcomment hskip).trees hguard).trees Lexes.blank
  cases family with
  | adminTools =>
    exact hlines (by repeat constructor) (by decide) (by repeat constructor)
      (by repeat constructor) (by decide +kernel)
  | phpRuntime =>
    exact hlines (by repeat constructor) (by decide) (by repeat constructor)
      (by repeat constructor) (by decide)
  | secretFiles =>
    exact hlines (by repeat constructor) (by decide) (by repeat constructor)
      (by repeat constructor) (by decide)
  | wordpress =>
    exact hlines (by repeat constructor) (by decide) (by repeat constructor)
      (by repeat constructor) (by decide)

theorem impossiblePathLocations_lexes {vhost : Vhost} {lines : List String}
    (hok : impossiblePathLocations vhost = .ok lines) :
    Lexes lines (allTokens (impossibleTrees vhost)) := by
  simp only [impossiblePathLocations, bind_ok] at hok
  obtain ⟨policy, hpolicy, hlines⟩ := hok
  rw [impossibleTrees, hpolicy]
  cases policy with
  | none =>
    cases hlines
    exact Lexes.nil
  | some policy =>
    cases hlines
    have hall := Lexes.flatMap fun family (_ : family ∈ policy.families) =>
      impossiblePathLines_lexes family
    rw [← allTokens_flatMap] at hall
    change Lexes _ (allTokens (policy.families.map impossibleTree))
    rwa [List.map_eq_flatMap]

/-- The head begins with the line that opens the server block. -/
theorem serverHead_lexes {generation : Word} {vhost : Vhost} {serverName : String}
    {lines : List String} (hplain : Plain serverName.toList)
    (hok : serverHead settings knobs vhost generation serverName = .ok lines) :
    ∃ rest, lines = "server \x7b" :: rest ∧
      Lexes rest (allTokens (headTrees settings knobs (tlsWords knobs.tlsCiphers) vhost generation
        serverName)) := by
  simp only [serverHead, bind_ok, pure_ok] at hok
  obtain ⟨tls, htls, size, hsize, impossible, himpossible, rfl⟩ := hok
  have hopen : Lexes ["    listen 443 ssl;", "    listen [::]:443 ssl;", "    http2 on;",
      "    server_name " ++ serverName ++ ";"]
      (allTokens [.simple ["listen", "443", "ssl"], .simple ["listen", "[::]:443", "ssl"],
        .simple ["http2", "on"], .simple ["server_name", serverName]]) := by
    refine Lexes.simple_cons (by repeat constructor) (by repeat constructor) (by decide) ?_
    refine Lexes.simple_cons (by repeat constructor) (by repeat constructor) (by decide) ?_
    refine Lexes.simple_cons (by repeat constructor) (by repeat constructor) (by decide) ?_
    exact Lexes.simple_value ["server_name"] [] (by repeat constructor) (by repeat constructor)
      (by decide) hplain (by repeat constructor) .nil fun _ => rfl
  refine ⟨_, rfl, ?_⟩
  have hblocks := ((((hopen.trees Lexes.blank).trees (tlsBlock_lexes htls)).trees
    Lexes.blank).trees (headerBlock_lexes (.inl rfl))).trees Lexes.blank
  have hall := ((((hblocks.trees (safeBodySize_lexes hsize)).trees Lexes.blank).trees
    blocklistGuards_lexes).trees Lexes.blank).trees (impossiblePathLocations_lexes himpossible)
  simpa [headTrees] using hall

/-! ### Proxied locations -/

theorem proxyLocationBody_lexes {upstream : Option Upstream} {lines : List String}
    (hok : proxyLocationBody settings knobs upstream = .ok lines) :
    ∃ row, upstream = some row ∧ Lexes lines (allTokens (proxyTrees knobs row)) := by
  simp only [proxyLocationBody, bind_ok, pure_ok] at hok
  obtain ⟨destination, hdestination, rfl⟩ := hok
  cases upstream with
  | none => cases hdestination
  | some row =>
    simp only [proxyDestination, bind_ok, pure_ok] at hdestination
    obtain ⟨_, _, rfl⟩ := hdestination
    refine ⟨row, rfl, ?_⟩
    unfold proxyTrees
    refine (Lexes.trees (Lexes.trees ?_ (headerBlock_lexes (.inr rfl))) ?_)
    · refine Lexes.cons (Lexes.simple_value ["proxy_pass"] [] (by repeat constructor)
        (by repeat constructor) (by decide)
        (Plain.append_chars (by decide) (plainChars_digits _)) (by repeat constructor)
        .nil fun _ => rfl) ?_
      iterate 9
        refine Lexes.simple_cons (by repeat constructor) (by repeat constructor)
          (by decide) ?_
      refine Lexes.cons (Lexes.simple_value ["proxy_read_timeout"] [] (by repeat constructor)
        (by repeat constructor) (by decide)
        ((plain_int _).append_chars (by decide)) (by repeat constructor) .nil
        fun _ => rfl) ?_
      repeat
        refine Lexes.simple_cons (by repeat constructor) (by repeat constructor)
          (by decide) ?_
      exact Lexes.nil
    · repeat
        refine Lexes.simple_cons (by repeat constructor) (by repeat constructor)
          (by decide +kernel) ?_
      exact Lexes.nil

/-- The end of a location, and the blank line after it. -/
theorem closing_lexes : Lexes ["    \x7d"] [.closeBrace] := by
  change scan .between (lineChars ["    \x7d"]) = (.between, [.closeBrace])
  decide

theorem closingBlank_lexes : Lexes ["    \x7d", ""] [.closeBrace] :=
  closing_lexes.append Lexes.blank

/-- An exact location. -/
theorem exactLocation_lexes (path : String) {lines last : List String} {body : List Directive}
    (hpath : Plain path.toList) (hlines : Lexes lines (allTokens body))
    (hlast : Lexes last [.closeBrace]) :
    Lexes (["    location = " ++ path ++ " \x7b"] ++ lines ++ last)
      (allTokens [.block ["location", "=", path] body]) :=
  Lexes.block (Lexes.opening_value ["location", "="] (by repeat constructor)
    (by repeat constructor) (by decide) hpath (by repeat constructor) fun _ => rfl)
    hlines hlast

theorem quietLocation_lexes {path : Json} {upstream : Option Upstream} {lines : List String}
    (hok : quietLocation settings knobs path upstream = .ok lines) :
    ∃ row quiet, upstream = some row ∧ path = .str quiet ∧
      Lexes lines (allTokens [quietTree knobs row quiet]) := by
  simp only [quietLocation, bind_ok, pure_ok] at hok
  obtain ⟨quiet, hquiet, body, hbody, rfl⟩ := hok
  obtain ⟨hpath, hplain⟩ := validateRequestPath_ok hquiet
  obtain ⟨row, hrow, hproxy⟩ := proxyLocationBody_lexes hbody
  refine ⟨row, quiet, hrow, hpath, ?_⟩
  have hlog : Lexes ["        access_log " ++ (knobs.logDir.text ++ "/edge_watch.log") ++
      " edge_watch if=$edge_watch;", "        log_not_found off;"]
      (allTokens [.simple ["access_log", knobs.logDir.text ++ "/edge_watch.log", "edge_watch",
        "if=$edge_watch"], .simple ["log_not_found", "off"]]) := by
    refine Lexes.cons (Lexes.simple_value ["access_log"] ["edge_watch", "if=$edge_watch"]
      (by repeat constructor) (by repeat constructor) (by decide)
      (knobs.logDir.plain.append_chars (by decide)) (by repeat constructor)
      (by repeat constructor) fun _ => rfl) ?_
    refine Lexes.simple_cons (by repeat constructor) (by repeat constructor) (by decide) ?_
    exact Lexes.nil
  exact exactLocation_lexes quiet hplain (hlog.trees hproxy) closing_lexes

theorem quietPart_lexes {path : Json} {upstream : Option Upstream} {lines : List String}
    (hok : quietPart settings knobs path upstream = .ok lines) :
    ∃ row quiet, upstream = some row ∧ path = .str quiet ∧
      Lexes lines (allTokens [quietTree knobs row quiet]) := by
  simp only [quietPart, bind_ok, pure_ok] at hok
  obtain ⟨location, hlocation, rfl⟩ := hok
  obtain ⟨row, quiet, hrow, hpath, hlexes⟩ := quietLocation_lexes hlocation
  exact ⟨row, quiet, hrow, hpath, hlexes.trees Lexes.blank⟩

theorem receiverPart_lexes {upstream : Upstream} {lines : List String}
    (hok : receiverPart settings knobs (some upstream) = .ok lines) :
    Lexes lines (allTokens
      (if knobs.mojosecMode = .observe then receiverTrees knobs upstream else [])) := by
  unfold receiverPart at hok
  split at hok
  next hobserve =>
    simp only [receiverLocation, bind_ok, pure_ok] at hok
    obtain ⟨location, ⟨body, hbody, rfl⟩, rfl⟩ := hok
    obtain ⟨row, hrow, hproxy⟩ := proxyLocationBody_lexes hbody
    cases hrow
    have hlimit : Lexes (["        client_max_body_size " ++ receiverBodyLimit ++ ";"] ++ body)
        (allTokens (.simple ["client_max_body_size", receiverBodyLimit] ::
          proxyTrees knobs upstream)) :=
      Lexes.cons (Lexes.simple_cons (by repeat constructor) (by repeat constructor)
        (by decide) Lexes.nil) hproxy
    have hfirst := exactLocation_lexes receiverPath (by decide) hlimit
      closing_lexes
    have hsecond := exactLocation_lexes (receiverPath ++ "/") (by decide) hlimit
      closing_lexes
    have hboth := (hfirst.trees hsecond).trees Lexes.blank
    rw [if_pos hobserve]
    simpa [receiverTrees] using hboth
  next hoff =>
    cases hok
    rw [if_neg hoff]
    exact Lexes.nil

/-- The location of the static files, for the two ways it is opened. -/
theorem staticPart_lexes {vhost : Vhost} {path : String} {modifier : List String}
    (hopen : Lexes ["    location " ++ path ++ " \x7b"]
      (wordTokens (["location"] ++ modifier ++ ["/static/"]) ++ [.openBrace])) :
    Lexes (staticPart knobs vhost path) (allTokens (staticTrees knobs modifier vhost)) := by
  unfold staticPart staticTrees
  split
  next =>
    refine @Lexes.block [_] [_] ["    \x7d", ""] _ _ hopen ?_ closingBlank_lexes
    exact Lexes.simple_value ["alias"] [] (by repeat constructor) (by repeat constructor)
      (by decide) (knobs.djangoStaticRoot.plain.append_chars (by decide))
      (by repeat constructor) .nil fun _ => rfl
  next => exact Lexes.nil

/-! ### The kinds -/

/-- The parts that a loop renders, one after another. -/
theorem lexes_of_mapM {Item : Type} {items : List Item} {step : Item → Checked (List String)}
    {parts : List (List String)} {trees : Item → List Directive} (hok : items.mapM step = .ok parts)
    (hstep : ∀ item ∈ items, ∀ lines, step item = .ok lines →
      Lexes lines (allTokens (trees item))) :
    Lexes parts.flatten (allTokens (items.flatMap trees)) := by
  induction items generalizing parts with
  | nil =>
    cases hok
    exact Lexes.nil
  | cons item rest ih =>
    rw [List.mapM_cons] at hok
    simp only [bind_ok, pure_ok] at hok
    obtain ⟨lines, hlines, more, hmore, rfl⟩ := hok
    rw [List.flatten_cons, List.flatMap_cons]
    exact (hstep item List.mem_cons_self lines hlines).trees
      (ih hmore fun other hother => hstep other (List.mem_cons_of_mem _ hother))

theorem flatMap_filterMap_jsonText (paths : List Json) (trees : String → List Directive) :
    (paths.filterMap jsonText).flatMap trees =
      paths.flatMap fun path => (jsonText path).toList.flatMap trees := by
  induction paths with
  | nil => rfl
  | cons path rest ih =>
    rw [List.filterMap_cons, List.flatMap_cons, ← ih]
    cases jsonText path with
    | none => rfl
    | some text => simp

/-- The server block of a head and of what comes after it. -/
theorem server_reads {rest lines : List String} {head body : List Directive}
    (hhead : Lexes rest (allTokens head)) (hbody : Lexes lines (allTokens body)) :
    Reads (["server \x7b"] ++ (rest ++ lines) ++ ["\x7d", ""]) [.block ["server"] (head ++ body)] := by
  refine ⟨["server \x7b"] ++ (rest ++ lines) ++ ["\x7d"], by simp, ?_⟩
  refine Lexes.block (Lexes.fixed (by repeat constructor) (by repeat constructor)
    (by decide)) (hhead.trees hbody) ?_
  change scan .between (lineChars ["\x7d"]) = (.between, [.closeBrace])
  decide

theorem rootLocation_lexes {lines : List String} {body : List Directive}
    (hlines : Lexes lines (allTokens body)) :
    Lexes (["    location / \x7b"] ++ lines ++ ["    \x7d"])
      (allTokens [.block ["location", "/"] body]) :=
  Lexes.block (Lexes.fixed (by repeat constructor) (by repeat constructor) (by decide))
    hlines closing_lexes

theorem assetOpening_lexes : Lexes
    ["    location ~* \\.(css|js|mjs|map|ico|svg|gif|png|jpe?g|webp|avif|woff2?|ttf|otf|eot)$ \x7b"]
    (wordTokens ["location", "~*",
      "\\.(css|js|mjs|map|ico|svg|gif|png|jpe?g|webp|avif|woff2?|ttf|otf|eot)$"] ++
      [.openBrace]) :=
  Lexes.fixed (by repeat constructor) (by repeat constructor) (by decide +kernel)

theorem siteBody_lexes (vhost : Vhost) (generation : Word) :
    Lexes (siteBody settings vhost generation)
      (allTokens (siteTrees settings vhost generation)) := by
  have hroot : Lexes ["    root " ++ wwwDir settings generation vhost.pk ++ ";",
      "    index index.html;"] (allTokens [.simple ["root", wwwDir settings generation vhost.pk],
        .simple ["index", "index.html"]]) := by
    refine Lexes.cons (Lexes.simple_value ["root"] [] (by repeat constructor)
      (by repeat constructor) (by decide) (plain_wwwDir settings generation vhost.pk)
      (by repeat constructor) .nil fun _ => rfl) ?_
    refine Lexes.simple_cons (by repeat constructor) (by repeat constructor) (by decide) ?_
    exact Lexes.nil
  have herror : Lexes (if vhost.spa then [] else ["    error_page 404 /404.html;", ""])
      (allTokens (if vhost.spa then [] else [.simple ["error_page", "404", "/404.html"]])) := by
    cases vhost.spa with
    | true => exact Lexes.nil
    | false =>
      refine Lexes.simple_cons (by repeat constructor) (by repeat constructor)
        (by decide) ?_
      exact Lexes.blank
  have hassets : Lexes assetCacheLocation (allTokens [.block ["location", "~*",
      "\\.(css|js|mjs|map|ico|svg|gif|png|jpe?g|webp|avif|woff2?|ttf|otf|eot)$"]
      (headerTrees ++
        [.simple ["add_header", "Cache-Control", "public, max-age=31536000, immutable", "always"],
          .simple ["try_files", "$uri", "=404"]])]) := by
    have hbody : Lexes ["        add_header Cache-Control \"public, max-age=31536000, immutable\" always;",
        "        try_files $uri =404;"]
        (allTokens [.simple ["add_header", "Cache-Control", "public, max-age=31536000, immutable",
          "always"], .simple ["try_files", "$uri", "=404"]]) := by
      repeat
        refine Lexes.simple_cons (by repeat constructor) (by repeat constructor)
          (by decide +kernel) ?_
      exact Lexes.nil
    have hblock := Lexes.block assetOpening_lexes ((headerBlock_lexes (.inr rfl)).trees hbody)
      closing_lexes
    simpa [assetCacheLocation] using hblock
  have hfiles : Lexes [if vhost.spa then "        try_files $uri $uri/ /index.html;"
        else "        try_files $uri $uri/ =404;"]
      (allTokens [.simple ["try_files", "$uri", "$uri/",
        if vhost.spa then "/index.html" else "=404"]]) := by
    cases vhost.spa with
    | true =>
      exact Lexes.simple_cons (by repeat constructor) (by repeat constructor)
        (by decide) Lexes.nil
    | false =>
      exact Lexes.simple_cons (by repeat constructor) (by repeat constructor)
        (by decide) Lexes.nil
  have hall := ((((hroot.trees Lexes.blank).trees herror).trees hassets).trees
    Lexes.blank).trees (rootLocation_lexes hfiles)
  simpa [siteBody, siteTrees] using hall

theorem renderSite_reads {vhost : Vhost} {generation : Word} {serverName : String}
    {lines : List String} (hplain : Plain serverName.toList)
    (hok : renderSite settings knobs vhost generation serverName = .ok lines) :
    Reads lines [.block ["server"]
      (headTrees settings knobs (tlsWords knobs.tlsCiphers) vhost generation serverName ++
        siteTrees settings vhost generation)] := by
  simp only [renderSite, bind_ok, pure_ok] at hok
  obtain ⟨head, hhead, rfl⟩ := hok
  obtain ⟨rest, rfl, hrest⟩ := serverHead_lexes hplain hhead
  simpa using server_reads hrest (siteBody_lexes vhost generation)

theorem renderApi_reads {vhost : Vhost} {generation : Word} {serverName : String}
    {lines : List String} (hplain : Plain serverName.toList)
    (hok : renderApi settings knobs vhost generation serverName = .ok lines) :
    Reads lines [.block ["server"]
      (headTrees settings knobs (tlsWords knobs.tlsCiphers) vhost generation serverName ++
        apiTrees knobs vhost)] := by
  simp only [renderApi, bind_ok, pure_ok] at hok
  obtain ⟨head, hhead, paths, hpaths, quiet, hquiet, receiver, hreceiver, body, hbody, rfl⟩ := hok
  obtain ⟨rest, rfl, hrest⟩ := serverHead_lexes hplain hhead
  obtain ⟨upstream, hupstream, hproxy⟩ := proxyLocationBody_lexes hbody
  rw [hupstream] at hquiet hreceiver
  have hquietLexes : Lexes quiet.flatten
      (allTokens ((quietNames vhost).map (quietTree knobs upstream))) := by
    rw [quietNames, hpaths, List.map_eq_flatMap, flatMap_filterMap_jsonText]
    refine lexes_of_mapM hquiet fun path _ lines hlines => ?_
    obtain ⟨row, name, hrow, hpath, hlexes⟩ := quietPart_lexes hlines
    cases hrow
    subst hpath
    exact hlexes
  have hstatic := @staticPart_lexes knobs vhost "/static/" []
    (Lexes.fixed (by repeat constructor) (by repeat constructor) (by decide))
  have hall := server_reads hrest (((hquietLexes.trees (receiverPart_lexes hreceiver)).trees
    hstatic).trees (rootLocation_lexes hproxy))
  simpa [apiTrees, hupstream] using hall

theorem routedQuietPart_lexes {routes : List Route} {path : Json} {lines : List String}
    (hok : routedQuietPart settings knobs routes path = .ok lines) :
    Lexes lines (allTokens ((jsonText path).toList.flatMap (routedQuietTrees knobs routes))) := by
  simp only [routedQuietPart, bind_ok] at hok
  obtain ⟨covering, hcovering, hlines⟩ := hok
  cases covering with
  | none =>
    cases hlines
    unfold coveringRoute at hcovering
    split at hcovering
    next text =>
      simp only [jsonText, Option.toList_some, List.flatMap_singleton, routedQuietTrees,
        hcovering, found]
      exact Lexes.nil
    next hother =>
      have hnone : jsonText path = none := by
        unfold jsonText
        split
        next text => exact absurd rfl (hother text)
        next => rfl
      rw [hnone]
      exact Lexes.nil
  | some route =>
    obtain ⟨row, name, hrow, hpath, hlexes⟩ := quietPart_lexes hlines
    cases hrow
    subst hpath
    rw [coveringRoute] at hcovering
    simpa [jsonText, routedQuietTrees, hcovering, found] using hlexes

theorem routedReceiverPart_lexes {routes : List Route} {lines : List String}
    (hok : routedReceiverPart settings knobs routes = .ok lines) :
    Lexes lines (allTokens (routedReceiverTrees knobs routes)) := by
  simp only [routedReceiverPart, bind_ok] at hok
  obtain ⟨covering, hcovering, hlines⟩ := hok
  rw [routedReceiverTrees, hcovering, found]
  cases covering with
  | none =>
    cases hlines
    exact Lexes.nil
  | some route => exact receiverPart_lexes hlines

theorem honeypotParts_lexes {vhost : Vhost} {routes : List Route} {contract : Option Upstream}
    {parts : List (List String)} (hcontract : renderedContract settings vhost routes = .ok contract)
    (hok : honeypotParts settings knobs contract = .ok parts) :
    Lexes parts.flatten (allTokens (honeypotTrees settings knobs vhost routes)) := by
  rw [honeypotTrees, hcontract, found]
  cases contract with
  | none =>
    cases hok
    exact Lexes.nil
  | some upstream =>
    simp only
    rw [List.map_eq_flatMap]
    refine lexes_of_mapM hok fun path _ lines hlines => ?_
    simp only [honeypotPart, bind_ok, pure_ok] at hlines
    obtain ⟨pathPrefix, hpathPrefixed, body, hbody, rfl⟩ := hlines
    obtain ⟨row, hrow, hproxy⟩ := proxyLocationBody_lexes hbody
    cases hrow
    exact exactLocation_lexes path (validateRoutePrefix_ok hpathPrefixed).2.1 hproxy
      closingBlank_lexes

theorem routePart_lexes {route : Route} {lines : List String}
    (hok : routePart settings knobs route = .ok lines) :
    Lexes lines (allTokens [.block ["location", "^~", route.pathPrefix]
      (proxyTrees knobs route.upstream)]) := by
  simp only [routePart, bind_ok, pure_ok] at hok
  obtain ⟨pathPrefix, hvalid, body, hbody, rfl⟩ := hok
  obtain ⟨rfl, hplain, _⟩ := validateRoutePrefix_ok hvalid
  obtain ⟨row, hrow, hproxy⟩ := proxyLocationBody_lexes hbody
  cases hrow
  exact Lexes.block (Lexes.opening_value ["location", "^~"] (by repeat constructor)
    (by repeat constructor) (by decide) hplain (by repeat constructor) fun _ => rfl)
    hproxy closingBlank_lexes

theorem renderSiteApi_reads {vhost : Vhost} {generation : Word} {serverName : String}
    {lines : List String} (hplain : Plain serverName.toList)
    (hok : renderSiteApi settings knobs vhost generation serverName = .ok lines) :
    Reads lines [.block ["server"]
      (headTrees settings knobs (tlsWords knobs.tlsCiphers) vhost generation serverName ++
        siteApiTrees settings knobs vhost generation)] := by
  simp only [renderSiteApi, bind_ok, pure_ok] at hok
  obtain ⟨contract, hcontract, head, hhead, paths, hpaths, quiet, hquiet, receiver, hreceiver,
    honeypots, hhoneypots, proxied, hproxied, rfl⟩ := hok
  obtain ⟨rest, rfl, hrest⟩ := serverHead_lexes hplain hhead
  have hquietLexes : Lexes quiet.flatten (allTokens ((quietNames vhost).flatMap
      (routedQuietTrees knobs (sortedRoutes vhost)))) := by
    rw [quietNames, hpaths, flatMap_filterMap_jsonText]
    exact lexes_of_mapM hquiet fun path _ lines hlines => routedQuietPart_lexes hlines
  have hstatic := @staticPart_lexes knobs vhost "^~ /static/" ["^~"]
    (Lexes.fixed (by repeat constructor) (by repeat constructor) (by decide))
  have hhoneypotLexes := honeypotParts_lexes hcontract hhoneypots
  have hproxiedLexes : Lexes proxied.flatten (allTokens ((sortedRoutes vhost).map fun route =>
      .block ["location", "^~", route.pathPrefix] (proxyTrees knobs route.upstream))) := by
    rw [List.map_eq_flatMap]
    exact lexes_of_mapM hproxied fun route _ lines hlines => routePart_lexes hlines
  have hsite : Lexes (siteBody settings vhost generation)
      (allTokens (siteTrees settings vhost generation)) := siteBody_lexes vhost generation
  have hall := server_reads hrest (((((hquietLexes.trees
    (routedReceiverPart_lexes hreceiver)).trees hstatic).trees hhoneypotLexes).trees
    hproxiedLexes).trees hsite)
  simpa [siteApiTrees] using hall

theorem renderRedirect_reads {vhost : Vhost} {generation : Word} {serverName : String}
    {lines : List String} (hplain : Plain serverName.toList)
    (hok : renderRedirect settings knobs vhost generation serverName = .ok lines) :
    Reads lines [.block ["server"]
      (headTrees settings knobs (tlsWords knobs.tlsCiphers) vhost generation serverName ++
        [.simple ["return", "301",
          "https://" ++ (vhost.redirectTo.getD "" ++ "$request_uri")]])] := by
  simp only [renderRedirect, bind_ok, pure_ok] at hok
  obtain ⟨target, htarget, name, hname, head, hhead, rfl⟩ := hok
  obtain ⟨rest, rfl, hrest⟩ := serverHead_lexes hplain hhead
  rw [validateRedirectTarget_ok htarget, Option.getD_some]
  -- The target stays in the word that `https://` begins, and so does the variable after it.
  have hstays : staysInWord false false (target ++ "$request_uri").toList = true := by
    rw [String.toList_append]
    exact staysInWord_append (safeServerName_ok hname).2.chars (by decide)
  have hline : Lexes ["    return 301 " ++ ("https://" ++ (target ++ "$request_uri")) ++ ";"]
      (allTokens [.simple ["return", "301", "https://" ++ (target ++ "$request_uri")]]) := by
    have hbefore : scan .between "    return 301 ".toList = (.between,
        wordTokens ["return", "301"]) := by decide
    have hbegun : Plain "https://".toList := by decide
    have hend (text : List Char) (dollar : Bool) :
        scan (.word text false dollar) (";".toList ++ ['\n']) =
          (.between, .word text :: [.semicolon]) := rfl
    have hlexes := (LexesIff.line hbefore hbegun rfl hend).lexes hstays
    simpa [Directive.tokens, wordTokens] using hlexes
  simpa using server_reads hrest hline

theorem port80Block_reads {serverName : String} (hplain : Plain serverName.toList) :
    Reads (port80Block serverName knobs.acmeWebroot) [port80Tree knobs serverName] := by
  have hopen : Lexes ["    listen 80;", "    listen [::]:80;",
      "    server_name " ++ serverName ++ ";"] (allTokens [.simple ["listen", "80"],
        .simple ["listen", "[::]:80"], .simple ["server_name", serverName]]) := by
    refine Lexes.simple_cons (by repeat constructor) (by repeat constructor) (by decide) ?_
    refine Lexes.simple_cons (by repeat constructor) (by repeat constructor) (by decide) ?_
    exact Lexes.simple_value ["server_name"] [] (by repeat constructor) (by repeat constructor)
      (by decide) hplain (by repeat constructor) .nil fun _ => rfl
  have hroot : Lexes ["        root " ++ knobs.acmeWebroot.text ++ ";"]
      (allTokens [.simple ["root", knobs.acmeWebroot.text]]) :=
    Lexes.simple_value ["root"] [] (by repeat constructor) (by repeat constructor)
      (by decide) knobs.acmeWebroot.plain (by repeat constructor) .nil fun _ => rfl
  have hchallenge : Lexes ["    location /.well-known/acme-challenge/ \x7b"]
      (wordTokens ["location", "/.well-known/acme-challenge/"] ++ [.openBrace]) :=
    Lexes.fixed (by repeat constructor) (by repeat constructor) (by decide)
  have hreturn : Lexes ["        return 301 https://$host$request_uri;"]
      (allTokens [.simple ["return", "301", "https://$host$request_uri"]]) :=
    Lexes.simple_cons (by repeat constructor) (by repeat constructor) (by decide) Lexes.nil
  have hbody := (((hopen.trees Lexes.blank).trees
    (Lexes.block hchallenge hroot closing_lexes)).trees Lexes.blank).trees
    (rootLocation_lexes hreturn)
  have hnone : Lexes [] (allTokens []) := Lexes.nil
  have hall := server_reads hnone hbody
  simp only [List.nil_append, List.cons_append, List.append_nil] at hall
  rw [port80Block, port80Tree]
  exact hall

/-- Whatever the rows hold, the file of a virtual host that renders spells its
directives, with the words of the cipher setting as arguments. -/
theorem renderVhost_reads {vhost : Vhost} {generation : Word} {lines : List String}
    (hok : renderVhost settings knobs vhost generation = .ok lines) :
    Reads lines (vhostTrees settings knobs (tlsWords knobs.tlsCiphers) vhost generation) := by
  simp only [renderVhost, bind_ok, pure_ok] at hok
  obtain ⟨name, hname, serverName, hsafe, rendered, hrendered, rfl⟩ := hok
  obtain ⟨rfl, hplain⟩ := safeServerName_ok hsafe
  have hnamed : vhost.name = serverName := by rw [Vhost.name, hname]
  have hserver : Reads rendered
      [httpsTree settings knobs (tlsWords knobs.tlsCiphers) vhost generation] := by
    rw [httpsTree, hnamed, bodyTrees]
    unfold renderKind at hrendered
    cases hkind : vhost.kind with
    | site =>
      rw [hkind] at hrendered
      exact renderSite_reads hplain hrendered
    | api =>
      rw [hkind] at hrendered
      exact renderApi_reads hplain hrendered
    | siteApi =>
      rw [hkind] at hrendered
      exact renderSiteApi_reads hplain hrendered
    | redirect =>
      rw [hkind] at hrendered
      exact renderRedirect_reads hplain hrendered
    | other kind =>
      rw [hkind] at hrendered
      cases hrendered
  rw [vhostTrees, hnamed]
  split
  next => exact Reads.append hserver.lexes (port80Block_reads hplain)
  next => exact hserver

end DjangoMojo.Edge
