import DjangoMojo.Edge.BaseReads

/-! # Which rows can change the directives of a generation

A generation that renders is read file by file. All values but three kinds are held
to plain words when they are rendered. The path of a unix socket and the scope of a
network may leave their word, and the cipher setting may be several words.
-/

namespace DjangoMojo.Edge

open Foundation Nginx

variable {settings : Settings} {knobs : Knobs}

/-- Every file is read as the directives that the kinds of the rows call for. -/
def ReadsAsMeant (files : Files String) (meant : Files (List Directive)) : Prop :=
  ∀ name, (files.get name).map lex = (meant.get name).map fun trees => some (allTokens trees)

/-- Every value stays in the argument that it is rendered in. -/
structure Confined (knobs : Knobs) (rows : List BlocklistEntry) (vhosts : List Vhost) : Prop where
  networks : ∀ row ∈ geoRows (blocklistPayload rows), row.Fits
  upstreams : ∀ upstream ∈ referencedUpstreams vhosts, upstream.Fits
  ciphers : vhosts ≠ [] → (tlsWords knobs.tlsCiphers).length = 1

namespace Files

variable {Content : Type}

theorem get_append (first second : Files Content) (name : String) :
    Files.get (first ++ second) name = (Files.get second name).or (Files.get first name) := by
  rw [get, get, get, List.reverse_append, List.lookup_append]

theorem get_cons_self (name : String) (content : Content) (rest : Files Content)
    (hrest : ∀ file ∈ rest, file.1 ≠ name) :
    Files.get ((name, content) :: rest) name = some content := by
  have hnone : Files.get rest name = none := by
    rw [get, List.lookup_eq_none_iff]
    intro file hfile
    exact bne_iff_ne.mpr (hrest file (List.mem_reverse.mp hfile)).symm
  have happend := get_append [(name, content)] rest name
  rw [hnone] at happend
  simpa [get] using happend

theorem get_concat (files : Files Content) (name : String) (content : Content) :
    Files.get (files ++ [(name, content)]) name = some content := by
  rw [get_append]
  simp [get]

end Files

/-! ### Each file -/

theorem base_lex_iff {rows : List BlocklistEntry} {vhosts : List Vhost} {carryUpgradeMap : Bool}
    {lines : List String}
    (hok : renderHttpBase knobs (blocklistPayload rows) vhosts carryUpgradeMap = .ok lines) :
    lex (joined lines) =
        some (allTokens (baseTrees knobs (blocklistPayload rows) vhosts carryUpgradeMap)) ↔
      ∀ row ∈ geoRows (blocklistPayload rows), row.Fits := by
  obtain ⟨rest, rfl, hlexes⟩ := renderHttpBase_lexesIff hok
  exact lex_iff_of_lexesIff hlexes

theorem upstreams_lex_iff {vhosts : List Vhost} {lines : List String}
    (hok : renderUpstreams settings (referencedUpstreams vhosts) = .ok lines) :
    lex (joined lines) = some (allTokens (upstreamTrees vhosts)) ↔
      ∀ upstream ∈ referencedUpstreams vhosts, upstream.Fits := by
  obtain ⟨rest, rfl, hlexes⟩ := renderUpstreams_lexesIff hok
  exact lex_iff_of_lexesIff hlexes

theorem vhostTrees_inj {first second : List String} {vhost : Vhost} {generation : Word} :
    vhostTrees settings knobs first vhost generation =
      vhostTrees settings knobs second vhost generation ↔ first = second := by
  constructor
  · intro heq
    have hservers := (List.cons.inj heq).1
    simp only [httpsTree, headTrees, tlsTrees, Directive.block.injEq, true_and,
      List.append_assoc, List.append_cancel_left_eq, List.cons_append, List.cons.injEq,
      Directive.simple.injEq] at hservers
    exact hservers.1
  · exact fun heq => heq ▸ rfl

theorem tlsWords_eq_iff (value : Json) :
    tlsWords value = [tlsArgument value] ↔ (tlsWords value).length = 1 := by
  constructor
  · intro heq
    rw [heq]
    rfl
  · intro hlength
    obtain ⟨word, hword⟩ := List.length_eq_one_iff.mp hlength
    rw [tlsArgument, hword, String.intercalate_singleton]

theorem vhost_lex_iff {vhost : Vhost} {generation : Word} {lines : List String}
    (hok : renderVhost settings knobs vhost generation = .ok lines) :
    lex (joined lines) = some (allTokens
        (vhostTrees settings knobs [tlsArgument knobs.tlsCiphers] vhost generation)) ↔
      (tlsWords knobs.tlsCiphers).length = 1 := by
  rw [(renderVhost_reads hok).lex, Option.some.injEq, allTokens_inj, vhostTrees_inj,
    tlsWords_eq_iff]

/-! ### All files -/

def renderedVhosts (settings : Settings) (knobs : Knobs) (generation : Word)
    (vhosts : List Vhost) : Checked (Files (List String)) :=
  vhosts.mapM fun vhost => do
    let lines ← renderVhost settings knobs vhost generation
    return (vhost.confName, lines)

theorem renderedVhosts_ok_cons {vhost : Vhost} {vhosts : List Vhost} {generation : Word}
    {files : Files (List String)}
    (hok : renderedVhosts settings knobs generation (vhost :: vhosts) = .ok files) :
    ∃ lines rest, renderVhost settings knobs vhost generation = .ok lines ∧
      renderedVhosts settings knobs generation vhosts = .ok rest ∧
      files = (vhost.confName, lines) :: rest := by
  rw [renderedVhosts, List.mapM_cons] at hok
  simp only [bind_ok, pure_ok] at hok
  obtain ⟨_, ⟨lines, hlines, rfl⟩, rest, hrest, rfl⟩ := hok
  exact ⟨lines, rest, hlines, hrest, rfl⟩

theorem renderedVhosts_ok_concat {vhost : Vhost} {vhosts : List Vhost} {generation : Word}
    {files : Files (List String)}
    (hok : renderedVhosts settings knobs generation (vhosts ++ [vhost]) = .ok files) :
    ∃ lines rest, renderVhost settings knobs vhost generation = .ok lines ∧
      files = rest ++ [(vhost.confName, lines)] := by
  rw [renderedVhosts, List.mapM_append, List.mapM_cons, List.mapM_nil] at hok
  simp only [bind_ok, pure_ok] at hok
  obtain ⟨rest, _, _, ⟨_, ⟨lines, hlines, rfl⟩, _, rfl, rfl⟩, rfl⟩ := hok
  exact ⟨lines, rest, hlines, rfl⟩

/-- With a single cipher word the files of all virtual hosts are read as meant. -/
theorem renderedVhosts_lex {vhosts : List Vhost} {generation : Word}
    {files : Files (List String)} (hciphers : (tlsWords knobs.tlsCiphers).length = 1)
    (hok : renderedVhosts settings knobs generation vhosts = .ok files) :
    files.map (fun lines => lex (joined lines)) = vhosts.map fun vhost => (vhost.confName,
      some (allTokens
        (vhostTrees settings knobs [tlsArgument knobs.tlsCiphers] vhost generation))) := by
  induction vhosts generalizing files with
  | nil =>
    cases hok
    rfl
  | cons vhost rest ih =>
    obtain ⟨lines, more, hlines, hmore, rfl⟩ := renderedVhosts_ok_cons hok
    have hread := (vhost_lex_iff hlines).mpr hciphers
    have hrest := ih hmore
    rw [Files.map] at hrest ⊢
    rw [List.map_cons, List.map_cons, hrest, hread]

theorem confName_ne {vhost : Vhost} {name : String} (hname : name.toList.head? = some 'h') :
    vhost.confName ≠ name := by
  intro heq
  rw [← heq, Vhost.confName, String.toList_append, String.toList_append] at hname
  have hhead : "conf.d/".toList = 'c' :: "onf.d/".toList := by decide
  rw [hhead] at hname
  simp at hname

theorem renderedVhosts_names {vhosts : List Vhost} {generation : Word}
    {files : Files (List String)}
    (hok : renderedVhosts settings knobs generation vhosts = .ok files) {name : String}
    (hname : name.toList.head? = some 'h') : ∀ file ∈ files, file.1 ≠ name := by
  induction vhosts generalizing files with
  | nil =>
    cases hok
    exact fun _ hmem => nomatch hmem
  | cons vhost rest ih =>
    obtain ⟨lines, more, _, hmore, rfl⟩ := renderedVhosts_ok_cons hok
    intro file hfile
    cases List.mem_cons.mp hfile with
    | inl heq => exact heq ▸ confName_ne hname
    | inr hmem => exact ih hmore file hmem

theorem renderLines_ok {rows : List BlocklistEntry} {vhosts : List Vhost} {generation : Word}
    {carryUpgradeMap : Bool} {files : Files (List String)}
    (hok : renderLines settings knobs rows vhosts generation carryUpgradeMap = .ok files) :
    ∃ base upstreams rendered,
      renderHttpBase knobs (blocklistPayload rows) vhosts carryUpgradeMap = .ok base ∧
      renderUpstreams settings (referencedUpstreams vhosts) = .ok upstreams ∧
      renderedVhosts settings knobs generation vhosts = .ok rendered ∧
      files = (baseName, base) :: (upstreamsName, upstreams) :: rendered := by
  simp only [renderLines, bind_ok, pure_ok] at hok
  obtain ⟨base, hbase, upstreams, hupstreams, rendered, hrendered, rfl⟩ := hok
  exact ⟨base, upstreams, rendered, hbase, hupstreams, hrendered, rfl⟩

theorem readsAsMeant_map_iff {files : Files (List String)} {meant : Files (List Directive)} :
    ReadsAsMeant (files.map joined) meant ↔
      ∀ name, (files.get name).map (fun lines => lex (joined lines)) =
        (meant.get name).map fun trees => some (allTokens trees) := by
  unfold ReadsAsMeant
  refine forall_congr' fun name => ?_
  rw [Files.get_map, Option.map_map]
  rfl

variable {rows : List BlocklistEntry} {vhosts : List Vhost} {generation : Word}
  {carryUpgradeMap : Bool}

theorem readsAsMeant_of_confined {files : Files (List String)}
    (hok : renderLines settings knobs rows vhosts generation carryUpgradeMap = .ok files)
    (hconfined : Confined knobs rows vhosts) :
    ReadsAsMeant (files.map joined)
      (skeleton settings knobs rows vhosts generation carryUpgradeMap) := by
  obtain ⟨base, upstreams, rendered, hbase, hupstreams, hrendered, rfl⟩ := renderLines_ok hok
  have hvhosts : rendered.map (fun lines => lex (joined lines)) = vhosts.map fun vhost =>
      (vhost.confName, some (allTokens
        (vhostTrees settings knobs [tlsArgument knobs.tlsCiphers] vhost generation))) := by
    by_cases hnone : vhosts = []
    · subst hnone
      cases hrendered
      rfl
    · exact renderedVhosts_lex (hconfined.ciphers hnone) hrendered
  have hfiles : Files.map ((baseName, base) :: (upstreamsName, upstreams) :: rendered)
      (fun lines => lex (joined lines)) =
      (skeleton settings knobs rows vhosts generation carryUpgradeMap).map
        fun trees => some (allTokens trees) := by
    rw [Files.map] at hvhosts ⊢
    rw [List.map_cons, List.map_cons, hvhosts, (base_lex_iff hbase).mpr hconfined.networks,
      (upstreams_lex_iff hupstreams).mpr hconfined.upstreams]
    simp [skeleton, Files.map]
  rw [readsAsMeant_map_iff]
  intro name
  rw [← Files.get_map, ← Files.get_map, hfiles]

theorem skeleton_get_baseName :
    (skeleton settings knobs rows vhosts generation carryUpgradeMap).get baseName =
      some (baseTrees knobs (blocklistPayload rows) vhosts carryUpgradeMap) := by
  refine Files.get_cons_self _ _ _ fun file hfile => ?_
  rcases List.mem_cons.mp hfile with rfl | hmem
  · change upstreamsName ≠ baseName
    decide
  · obtain ⟨vhost, _, rfl⟩ := List.mem_map.mp hmem
    exact confName_ne (by decide)

theorem skeleton_get_upstreamsName :
    (skeleton settings knobs rows vhosts generation carryUpgradeMap).get upstreamsName =
      some (upstreamTrees vhosts) := by
  rw [skeleton, List.cons_append, List.singleton_append, ← List.singleton_append,
    Files.get_append]
  rw [Files.get_cons_self _ _ _ fun file hfile => ?_]
  · rfl
  · obtain ⟨vhost, _, rfl⟩ := List.mem_map.mp hfile
    exact confName_ne (by decide)

theorem confined_of_readsAsMeant {files : Files (List String)}
    (hok : renderLines settings knobs rows vhosts generation carryUpgradeMap = .ok files)
    (hreads : ReadsAsMeant (files.map joined)
      (skeleton settings knobs rows vhosts generation carryUpgradeMap)) :
    Confined knobs rows vhosts := by
  obtain ⟨base, upstreams, rendered, hbase, hupstreams, hrendered, rfl⟩ := renderLines_ok hok
  rw [readsAsMeant_map_iff] at hreads
  have hnames {name : String} (hname : name.toList.head? = some 'h') :=
    renderedVhosts_names hrendered hname
  constructor
  · have hread := hreads baseName
    rw [skeleton_get_baseName, Files.get_cons_self _ _ _ ?_] at hread
    · exact (base_lex_iff hbase).mp (Option.some.inj hread)
    · intro file hfile
      rcases List.mem_cons.mp hfile with rfl | hmem
      · change upstreamsName ≠ baseName
        decide
      · exact hnames (by decide) file hmem
  · have hread := hreads upstreamsName
    have hget : Files.get ((baseName, base) :: (upstreamsName, upstreams) :: rendered)
        upstreamsName = some upstreams := by
      rw [← List.singleton_append, Files.get_append,
        Files.get_cons_self _ _ _ (hnames (by decide))]
      rfl
    rw [skeleton_get_upstreamsName, hget] at hread
    exact (upstreams_lex_iff hupstreams).mp (Option.some.inj hread)
  · -- The file of the last virtual host is not replaced by another one.
    intro hsome
    obtain ⟨before, vhost, rfl⟩ := (List.eq_nil_or_concat' vhosts).resolve_left hsome
    obtain ⟨lines, front, hlines, rfl⟩ := renderedVhosts_ok_concat hrendered
    have hread := hreads vhost.confName
    have hget : Files.get ((baseName, base) :: (upstreamsName, upstreams) ::
        (front ++ [(vhost.confName, lines)])) vhost.confName = some lines := by
      rw [← List.cons_append, ← List.cons_append, Files.get_concat]
    have hmeant : (skeleton settings knobs rows (before ++ [vhost]) generation
        carryUpgradeMap).get vhost.confName =
        some (vhostTrees settings knobs [tlsArgument knobs.tlsCiphers] vhost generation) := by
      rw [skeleton, List.map_append, List.map_singleton, ← List.append_assoc, Files.get_concat]
    rw [hget, hmeant] at hread
    exact (vhost_lex_iff hlines).mp (Option.some.inj hread)

theorem renderLines_readsAsMeant_iff {files : Files (List String)}
    (hok : renderLines settings knobs rows vhosts generation carryUpgradeMap = .ok files) :
    ReadsAsMeant (files.map joined)
        (skeleton settings knobs rows vhosts generation carryUpgradeMap) ↔
      Confined knobs rows vhosts :=
  ⟨confined_of_readsAsMeant hok, readsAsMeant_of_confined hok⟩

/-- The files that render are read as meant if and only if each socket path and each
network stays in its word and the cipher setting is one word. -/
theorem renderGeneration_confined_iff {files : Files String}
    (hrender : renderGeneration settings knobs rows vhosts generation carryUpgradeMap =
      .ok files) :
    ReadsAsMeant files (skeleton settings knobs rows vhosts generation carryUpgradeMap) ↔
      Confined knobs rows vhosts := by
  simp only [renderGeneration, bind_ok, pure_ok] at hrender
  obtain ⟨lines, hlines, rfl⟩ := hrender
  exact renderLines_readsAsMeant_iff hlines

/-! ### A socket path with a space -/

def spacedUpstream : Upstream where
  pk := 1
  name := "app"
  kind := .unix
  socketPath := some "/run/mojo/a b.sock"

theorem spaced_renders : (renderGeneration plainSettings plainKnobs [] [apiVhost spacedUpstream]
    firstGeneration false).isOk = true := by
  decide

theorem spaced_not_confined : ¬Confined plainKnobs [] [apiVhost spacedUpstream] := by
  intro hconfined
  have hreferenced : referencedUpstreams [apiVhost spacedUpstream] = [spacedUpstream] := rfl
  have hfits : spacedUpstream.Fits :=
    hconfined.upstreams spacedUpstream (hreferenced ▸ List.mem_singleton_self _)
  have hstays : staysInWord false false "/run/mojo/a b.sock".toList = true := hfits rfl
  revert hstays
  decide

/-- The space splits the argument of `server` in the file of the upstreams. -/
theorem not_all_read_as_meant : ¬∀ (settings : Settings) (knobs : Knobs)
    (rows : List BlocklistEntry) (vhosts : List Vhost) (generation : Word)
    (carryUpgradeMap : Bool) (files : Files String),
    renderGeneration settings knobs rows vhosts generation carryUpgradeMap = .ok files →
    ReadsAsMeant files (skeleton settings knobs rows vhosts generation carryUpgradeMap) := by
  intro hall
  obtain ⟨files, hrender⟩ := exists_ok_of_isOk spaced_renders
  have hreads := hall _ _ _ _ _ _ _ hrender
  simp only [renderGeneration, bind_ok, pure_ok] at hrender
  obtain ⟨lines, hlines, rfl⟩ := hrender
  exact spaced_not_confined ((renderLines_readsAsMeant_iff hlines).mp hreads)

theorem spaced_renders_confined_iff : ∃ files,
    renderGeneration plainSettings plainKnobs [] [apiVhost spacedUpstream] firstGeneration false =
      .ok files ∧
    (ReadsAsMeant files (skeleton plainSettings plainKnobs [] [apiVhost spacedUpstream]
        firstGeneration false) ↔
      Confined plainKnobs [] [apiVhost spacedUpstream]) := by
  obtain ⟨files, hrender⟩ := exists_ok_of_isOk spaced_renders
  exact ⟨files, hrender, renderGeneration_confined_iff hrender⟩

end DjangoMojo.Edge
