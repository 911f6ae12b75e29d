import DjangoMojo.Edge.HealingTree
import DjangoMojo.Edge.PayloadRenders
import DjangoMojo.Foundation.JoinedKeys

/-! # The order in which virtual hosts are presented

The rows of the security log are sorted by the server name. In any order of the virtual
hosts the files are the same when no two with a policy have one server name, and they are
not when two have one.
-/

namespace DjangoMojo.Edge

open Foundation

variable {settings : Settings} {knobs : Knobs} {rows : List BlocklistEntry}
  {first second : List Vhost} {generation : Nginx.Word} {carryUpgradeMap : Bool}

/-! ### Evidence -/

def Vhost.HasPolicy (vhost : Vhost) : Prop :=
  ∃ policy, validateMojosecPolicy vhost.mojosecPolicy = .ok (some policy)

/-- No two virtual hosts with a policy have one server name. -/
def PoliciesApart (vhosts : List Vhost) : Prop :=
  ∀ one ∈ vhosts, ∀ other ∈ vhosts, one.HasPolicy → other.HasPolicy → one.name = other.name →
    one.pk = other.pk

theorem vhostEvidence_mem {vhost : Vhost} {found : List Evidence}
    (hok : vhostEvidence vhost = .ok found) {evidence : Evidence} (hmem : evidence ∈ found) :
    vhost.HasPolicy ∧ evidence.serverName = vhost.name ∧ evidence.vhost = vhost.pk ∧
      found = [evidence] := by
  simp only [vhostEvidence, bind_ok] at hok
  obtain ⟨policy, hpolicy, hok⟩ := hok
  cases policy with
  | none =>
    cases hok
    exact nomatch hmem
  | some policy =>
    simp only [bind_ok, pure_ok, safeServerName] at hok
    obtain ⟨name, hname, serverName, ⟨_, _, rfl⟩, rfl⟩ := hok
    rw [List.mem_singleton] at hmem
    subst hmem
    refine ⟨⟨policy, hpolicy⟩, ?_, rfl, rfl⟩
    rw [Vhost.name, hname]

theorem vhostEvidence_of_policy {vhost : Vhost} {found : List Evidence}
    (hok : vhostEvidence vhost = .ok found) (hpolicy : vhost.HasPolicy) :
    ∃ evidence, found = [evidence] := by
  obtain ⟨policy, hpolicy⟩ := hpolicy
  simp only [vhostEvidence, hpolicy, bind_ok] at hok
  obtain ⟨_, heq, hok⟩ := hok
  cases heq
  simp only [bind_ok, pure_ok] at hok
  obtain ⟨_, _, _, _, rfl⟩ := hok
  exact ⟨_, rfl⟩

theorem mojosecVhostEvidence_ok_iff {vhosts : List Vhost} {evidence : List Evidence} :
    mojosecVhostEvidence vhosts = .ok evidence ↔
      ∃ found, vhosts.mapM vhostEvidence = .ok found ∧ found.flatten = evidence := by
  simp only [mojosecVhostEvidence, bind_ok, pure_ok]

theorem mojosecVhostEvidence_mem {vhosts : List Vhost} {evidence : List Evidence}
    (hok : mojosecVhostEvidence vhosts = .ok evidence) {row : Evidence} (hrow : row ∈ evidence) :
    ∃ vhost ∈ vhosts, vhostEvidence vhost = .ok [row] ∧ vhost.HasPolicy ∧
      row.serverName = vhost.name ∧ row.vhost = vhost.pk := by
  obtain ⟨found, hfound, rfl⟩ := mojosecVhostEvidence_ok_iff.mp hok
  obtain ⟨part, hpart, hrow⟩ := List.mem_flatten.mp hrow
  obtain ⟨vhost, hvhost, hread⟩ := mapM_ok_mem hfound hpart
  obtain ⟨hpolicy, hname, hpk, rfl⟩ := vhostEvidence_mem hread hrow
  exact ⟨vhost, hvhost, hread, hpolicy, hname, hpk⟩

end DjangoMojo.Edge

/-! ## What the id of a generation settles

Rows with one id have one payload, and every file and every web root is a function of it, save
for one thing: rows of the security log with one server name stand in the order of the rows.
-/

namespace DjangoMojo.Edge

open Foundation

/-! ### Rows of one payload -/

structure Matched (settings : Settings) (one other : Vhost) : Prop where
  row : ∃ row, (∃ contract paths name, Described settings one row contract paths name) ∧
    ∃ contract paths name, Described settings other row contract paths name

namespace Matched

variable {settings : Settings} {one other : Vhost}

theorem symm (hmatched : Matched settings one other) : Matched settings other one := by
  obtain ⟨row, hone, hother⟩ := hmatched.row
  exact ⟨row, hother, hone⟩

theorem pk_eq (hmatched : Matched settings one other) : one.pk = other.pk := by
  obtain ⟨row, ⟨_, _, _, hone⟩, _, _, _, hother⟩ := hmatched.row
  have hpk := congrArg Vhost.pk (hone.made.symm.trans hother.made)
  exact hpk

theorem kind_eq (hmatched : Matched settings one other) : one.kind = other.kind := by
  obtain ⟨row, ⟨_, _, _, hone⟩, _, _, _, hother⟩ := hmatched.row
  have hkind := congrArg Vhost.kind (hone.made.symm.trans hother.made)
  exact hkind

theorem confName_eq (hmatched : Matched settings one other) : one.confName = other.confName := by
  obtain ⟨row, ⟨_, _, _, hone⟩, _, _, _, hother⟩ := hmatched.row
  rw [← hone.confName_eq, hother.confName_eq]

theorem serverName_eq (hmatched : Matched settings one other) :
    one.serverName = other.serverName := by
  obtain ⟨row, ⟨_, _, _, hone⟩, _, _, _, hother⟩ := hmatched.row
  rw [hone.named, hother.named, ← hone.serverName_eq, hother.serverName_eq]

theorem name_eq (hmatched : Matched settings one other) : one.name = other.name := by
  rw [Vhost.name, Vhost.name, hmatched.serverName_eq]

theorem vhostEvidence_eq (hmatched : Matched settings one other) :
    vhostEvidence one = vhostEvidence other := by
  obtain ⟨row, ⟨_, _, _, hone⟩, _, _, _, hother⟩ := hmatched.row
  rw [← hone.vhostEvidence_eq, hother.vhostEvidence_eq]

theorem renderVhost_ok (hmatched : Matched settings one other) {first second : Knobs}
    (hknobs : first.bare = second.bare) {generation : Nginx.Word} {lines : List String}
    (hok : renderVhost settings first one generation = .ok lines) :
    renderVhost settings second other generation = .ok lines := by
  obtain ⟨row, ⟨_, _, _, hone⟩, _, _, _, hother⟩ := hmatched.row
  have hfirst := @Described.renderVhost_eq settings first one row _ _ _ hone generation
  rw [← toOption_some, ← hother.renderVhost_eq, ← hknobs, hfirst, toOption_some]
  exact hok

theorem mem_upstreams {row : Vhost} {contract : Option Upstream} {paths : List Json} {name : String}
    (hrow : Described settings one row contract paths name) (upstream : Upstream) :
    upstream ∈ row.upstreams ↔ ∃ reached ∈ one.upstreams, reached.bare = upstream := by
  rw [hrow.upstreams_eq, ← List.mem_map, Vhost.upstreams, List.map_append, List.mem_append,
    List.mem_append, List.map_map, List.mem_map, List.mem_map]
  refine or_congr_right ?_
  simp only [sortedRoutes, List.mem_map, List.mem_insertionSort, Function.comp_apply]

theorem exists_upstream (hmatched : Matched settings one other) {upstream : Upstream}
    (hreached : upstream ∈ one.upstreams) :
    ∃ found ∈ other.upstreams, found.bare = upstream.bare := by
  obtain ⟨row, ⟨_, _, _, hone⟩, _, _, _, hother⟩ := hmatched.row
  exact (mem_upstreams hother _).mp ((mem_upstreams hone _).mpr ⟨upstream, hreached, rfl⟩)

end Matched

/-! ### Rows of one id -/

variable {settings : Settings} {first second : DesiredRows} {payload other : DesiredPayload}

theorem desiredState_ok (hok : desiredState settings first = .ok payload) : ∃ found,
    first.vhosts.mapM (vhostPayload settings) = .ok found ∧
    payload.vhosts = found.insertionSort (fun one other => one.id ≤ other.id) ∧
    payload.webapps = first.webApps ∧ payload.http = httpPayload first.knobs ∧
    payload.security = blocklistPayload first.security := by
  simp only [desiredState, bind_ok, pure_ok] at hok
  obtain ⟨found, hfound, rfl⟩ := hok
  exact ⟨found, hfound, rfl, rfl, rfl, rfl⟩

theorem exists_matched (hfirst : desiredState settings first = .ok payload)
    (hsecond : desiredState settings second = .ok other)
    (hsame : payload.canonical = other.canonical) {one : Vhost} (hone : one ∈ first.vhosts) :
    ∃ found ∈ second.vhosts, Matched settings one found := by
  obtain ⟨found, hfound, hvhosts, _⟩ := desiredState_ok hfirst
  obtain ⟨others, hothers, hvhosts', _⟩ := desiredState_ok hsecond
  have hcanonical : payload.vhosts.map VhostPayload.canonical =
      other.vhosts.map VhostPayload.canonical := congrArg DesiredPayload.vhosts hsame
  obtain ⟨made, hmade, hread⟩ := mapM_ok_exists hfound hone
  have hmem : made.canonical ∈ other.vhosts.map VhostPayload.canonical := by
    rw [← hcanonical, hvhosts]
    exact List.mem_map_of_mem ((List.mem_insertionSort _).mpr hmade)
  obtain ⟨match', hmatch, heq⟩ := List.mem_map.mp hmem
  rw [hvhosts', List.mem_insertionSort] at hmatch
  obtain ⟨vhost, hvhost, hreadOther⟩ := mapM_ok_mem hothers hmatch
  refine ⟨vhost, hvhost, made.canonical.row, described_row hread, ?_⟩
  rw [← heq]
  exact described_row hreadOther

theorem bare_eq (hfirst : desiredState settings first = .ok payload)
    (hsecond : desiredState settings second = .ok other)
    (hsame : payload.canonical = other.canonical) : first.knobs.bare = second.knobs.bare := by
  obtain ⟨_, _, _, _, hhttp, _⟩ := desiredState_ok hfirst
  obtain ⟨_, _, _, _, hhttp', _⟩ := desiredState_ok hsecond
  have hcanonical : payload.http.canonical = other.http.canonical :=
    congrArg DesiredPayload.http hsame
  rw [Knobs.bare, Knobs.bare, ← hhttp, ← hhttp', hcanonical]

theorem security_eq (hfirst : desiredState settings first = .ok payload)
    (hsecond : desiredState settings second = .ok other)
    (hsame : payload.canonical = other.canonical) :
    blocklistPayload first.security = blocklistPayload second.security := by
  obtain ⟨_, _, _, _, _, hsecurity⟩ := desiredState_ok hfirst
  obtain ⟨_, _, _, _, _, hsecurity'⟩ := desiredState_ok hsecond
  have hcanonical := congrArg DesiredPayload.security hsame
  rw [← hsecurity, ← hsecurity']
  exact hcanonical

theorem release_eq (hfirst : desiredState settings first = .ok payload)
    (hsecond : desiredState settings second = .ok other)
    (hsame : payload.canonical = other.canonical) (pools : List (String × String))
    (generation : Nginx.Word) (vhost : Nat) :
    (first.desired pools generation).release vhost =
      (second.desired pools generation).release vhost := by
  obtain ⟨_, _, _, hwebapps, _⟩ := desiredState_ok hfirst
  obtain ⟨_, _, _, hwebapps', _⟩ := desiredState_ok hsecond
  have hcanonical : payload.webapps.map WebAppRow.canonical =
      other.webapps.map WebAppRow.canonical := congrArg DesiredPayload.webapps hsame
  have hrows := congrArg (List.map fun row : WebAppRow => (row.vhost, row.release.version))
    hcanonical
  rw [List.map_map, List.map_map, hwebapps, hwebapps'] at hrows
  have hsameRows : (first.desired pools generation).webApps =
      (second.desired pools generation).webApps := hrows
  rw [Desired.release, Desired.release, hsameRows]

/-! ### The shared files -/

/-- A virtual host with what a payload keeps of its upstreams. -/
def Vhost.withBare (vhost : Vhost) : Vhost :=
  { vhost with
    upstream := vhost.upstream.map Upstream.bare
    routes := vhost.routes.map Route.bare }

theorem upstreams_withBare (vhost : Vhost) :
    vhost.withBare.upstreams = vhost.upstreams.map Upstream.bare := by
  rw [Vhost.upstreams, Vhost.upstreams, List.map_append, List.map_map]
  change (vhost.upstream.map Upstream.bare).toList ++ (vhost.routes.map Route.bare).map _ = _
  rw [Option.toList_map, List.map_map]
  rfl

theorem flatMap_withBare (vhosts : List Vhost) :
    (vhosts.map Vhost.withBare).flatMap Vhost.upstreams =
      (vhosts.flatMap Vhost.upstreams).map Upstream.bare := by
  induction vhosts with
  | nil => rfl
  | cons vhost rest ih =>
    rw [List.map_cons, List.flatMap_cons, List.flatMap_cons, List.map_append, ih,
      upstreams_withBare]

theorem foldl_seeUpstream_bare (upstreams seen : List Upstream) :
    (upstreams.map Upstream.bare).foldl seeUpstream (seen.map Upstream.bare) =
      (upstreams.foldl seeUpstream seen).map Upstream.bare := by
  induction upstreams generalizing seen with
  | nil => rfl
  | cons upstream rest ih =>
    rw [List.map_cons, List.foldl_cons, List.foldl_cons, ← ih]
    congr 1
    rw [seeUpstream, seeUpstream, List.map_append, List.filter_map]
    rfl

theorem sort_bare (upstreams : List Upstream) :
    (upstreams.insertionSort fun one other => one.pk ≤ other.pk).map Upstream.bare =
      (upstreams.map Upstream.bare).insertionSort fun one other => one.pk ≤ other.pk :=
  List.map_insertionSort _ _ _ _ fun _ _ _ _ => Iff.rfl

theorem referencedUpstreams_bare (vhosts : List Vhost) :
    referencedUpstreams (vhosts.map Vhost.withBare) =
      (referencedUpstreams vhosts).map Upstream.bare := by
  have hseen := foldl_seeUpstream_bare (vhosts.flatMap Vhost.upstreams) []
  rw [referencedUpstreams, referencedUpstreams, flatMap_withBare, sort_bare, ← hseen]
  rfl

theorem renderUpstreams_bare (settings : Settings) (upstreams : List Upstream) :
    renderUpstreams settings (upstreams.map Upstream.bare) = renderUpstreams settings upstreams := by
  unfold renderUpstreams
  rw [← sort_bare, List.mapM_map]
  rfl

theorem OneRowPerKey.bare {upstreams : List Upstream} (hrows : OneRowPerKey upstreams) :
    OneRowPerKey (upstreams.map Upstream.bare) := by
  intro one hone other hother hpk
  obtain ⟨row, hrow, rfl⟩ := List.mem_map.mp hone
  obtain ⟨row', hrow', rfl⟩ := List.mem_map.mp hother
  rw [hrows row hrow row' hrow' hpk]

theorem renderUpstreams_eq (hfirst : desiredState settings first = .ok payload)
    (hsecond : desiredState settings second = .ok other)
    (hsame : payload.canonical = other.canonical) :
    renderUpstreams settings (referencedUpstreams first.vhosts) =
      renderUpstreams settings (referencedUpstreams second.vhosts) := by
  have hreaches : ∀ {one two : DesiredRows} {made read : DesiredPayload},
      desiredState settings one = .ok made → desiredState settings two = .ok read →
      made.canonical = read.canonical → ∀ upstream,
        upstream ∈ (one.vhosts.flatMap Vhost.upstreams).map Upstream.bare →
        upstream ∈ (two.vhosts.flatMap Vhost.upstreams).map Upstream.bare := by
    intro one two made read hone htwo heq upstream hupstream
    obtain ⟨reached, hreached, rfl⟩ := List.mem_map.mp hupstream
    obtain ⟨vhost, hvhost, hreached⟩ := List.mem_flatMap.mp hreached
    obtain ⟨found, hfound, hmatched⟩ := exists_matched hone htwo heq hvhost
    obtain ⟨again, hagain, hbare⟩ := hmatched.exists_upstream hreached
    exact List.mem_map.mpr ⟨again, List.mem_flatMap.mpr ⟨found, hfound, hagain⟩, hbare⟩
  rw [← renderUpstreams_bare, ← renderUpstreams_bare settings (referencedUpstreams second.vhosts),
    ← referencedUpstreams_bare, ← referencedUpstreams_bare]
  congr 1
  refine referencedUpstreams_congr ?_ ?_ fun upstream => ?_
  · rw [flatMap_withBare]
    exact OneRowPerKey.bare first.upstreams_eq
  · rw [flatMap_withBare]
    exact OneRowPerKey.bare second.upstreams_eq
  · rw [flatMap_withBare, flatMap_withBare]
    exact ⟨hreaches hfirst hsecond hsame upstream, hreaches hsecond hfirst hsame.symm upstream⟩

/-! ### The security log -/

theorem evidence_nodup {vhosts : List Vhost} (hkeys : (vhosts.map Vhost.pk).Nodup)
    {evidence : List Evidence} (hok : mojosecVhostEvidence vhosts = .ok evidence) :
    (evidence.map Evidence.vhost).Nodup := by
  obtain ⟨found, hfound, rfl⟩ := mojosecVhostEvidence_ok_iff.mp hok
  refine List.Nodup.sublist ?_ hkeys
  rw [mapM_ok_iff] at hfound
  clear hok hkeys
  induction hfound with
  | nil => exact List.Sublist.refl _
  | @cons vhost part rest parts hread _ ih =>
    rw [List.flatten_cons, List.map_append, List.map_cons]
    cases hpart : part with
    | nil => exact ih.cons _
    | cons evidence more =>
      have hmem : evidence ∈ part := hpart ▸ List.mem_cons_self
      obtain ⟨_, _, hpk, hone⟩ := vhostEvidence_mem hread hmem
      rw [hpart] at hone
      rw [hone, List.map_singleton, hpk]
      exact ih.cons_cons _

theorem evidence_perm {first second : List Vhost} (hfirst : (first.map Vhost.pk).Nodup)
    (hsecond : (second.map Vhost.pk).Nodup)
    (hmatched : ∀ one ∈ first, ∃ other ∈ second, Matched settings one other)
    (hmatched' : ∀ one ∈ second, ∃ other ∈ first, Matched settings one other)
    {evidence : List Evidence} (hok : mojosecVhostEvidence first = .ok evidence) :
    ∃ found, mojosecVhostEvidence second = .ok found ∧ evidence.Perm found := by
  obtain ⟨parts, hparts, rfl⟩ := mojosecVhostEvidence_ok_iff.mp hok
  obtain ⟨others, hothers⟩ : ∃ others, second.mapM vhostEvidence = .ok others := by
    refine mapM_ok_of_forall fun vhost hvhost => ?_
    obtain ⟨found, hfound, heq⟩ := hmatched' vhost hvhost
    obtain ⟨part, _, hread⟩ := mapM_ok_exists hparts hfound
    exact ⟨part, heq.vhostEvidence_eq.trans hread⟩
  have hread : mojosecVhostEvidence second = .ok others.flatten :=
    mojosecVhostEvidence_ok_iff.mpr ⟨others, hothers, rfl⟩
  refine ⟨others.flatten, hread, ?_⟩
  have hincluded : ∀ {one two : List Vhost} {read made : List (List Evidence)},
      one.mapM vhostEvidence = .ok read → two.mapM vhostEvidence = .ok made →
      (∀ vhost ∈ one, ∃ other ∈ two, Matched settings vhost other) →
      ∀ row ∈ read.flatten, row ∈ made.flatten := by
    intro one two read made hone htwo hall row hrow
    obtain ⟨part, hpart, hrow⟩ := List.mem_flatten.mp hrow
    obtain ⟨vhost, hvhost, hreadPart⟩ := mapM_ok_mem hone hpart
    obtain ⟨found, hfound, heq⟩ := hall vhost hvhost
    obtain ⟨again, hagain, hreadAgain⟩ := mapM_ok_exists htwo hfound
    rw [heq.vhostEvidence_eq, hreadAgain] at hreadPart
    cases hreadPart
    exact List.mem_flatten.mpr ⟨_, hagain, hrow⟩
  refine (List.perm_ext_iff_of_nodup (evidence_nodup hfirst hok).of_map
    (evidence_nodup hsecond hread).of_map).mpr fun row => ?_
  exact ⟨hincluded hparts hothers hmatched row, hincluded hothers hparts hmatched' row⟩

theorem evidence_apart {vhosts : List Vhost} (hkeys : (vhosts.map Vhost.pk).Nodup)
    (hapart : PoliciesApart vhosts) {evidence : List Evidence}
    (hok : mojosecVhostEvidence vhosts = .ok evidence) :
    ∀ one ∈ evidence, ∀ other ∈ evidence, one.serverName = other.serverName → one = other := by
  intro one hone other hother hname
  obtain ⟨vhost, hvhost, _, hpolicy, hserver, hpk⟩ := mojosecVhostEvidence_mem hok hone
  obtain ⟨vhost', hvhost', _, hpolicy', hserver', hpk'⟩ := mojosecVhostEvidence_mem hok hother
  have hsame := hapart vhost hvhost vhost' hvhost' hpolicy hpolicy'
    (hserver.symm.trans (hname.trans hserver'))
  exact List.inj_on_of_nodup_map (evidence_nodup hkeys hok) hone hother
    (hpk.trans (hsame.trans hpk'.symm))

theorem mojosecHttpLog_eq (knobs : Knobs) {evidence found : List Evidence}
    (hperm : evidence.Perm found) (hkeys : ∀ one ∈ evidence, ∀ other ∈ evidence,
      one.serverName = other.serverName → one = other) :
    mojosecHttpLog knobs evidence = mojosecHttpLog knobs found := by
  unfold mojosecHttpLog
  rw [insertionSort_perm Evidence.serverName hperm hkeys]

/-! ### The http base -/

theorem renderHttpBase_bare (knobs : Knobs) (security : List BlocklistEntry) (vhosts : List Vhost)
    (carryUpgradeMap : Bool) :
    renderHttpBase knobs.bare security vhosts carryUpgradeMap =
      renderHttpBase knobs security vhosts carryUpgradeMap := rfl

theorem renderHttpBase_ok (hfirst : desiredState settings first = .ok payload)
    (hsecond : desiredState settings second = .ok other)
    (hsame : payload.canonical = other.canonical)
    (hapart : first.knobs.mojosecMode = .observe → PoliciesApart first.vhosts)
    {carryUpgradeMap : Bool} {base : List String}
    (hok : renderHttpBase first.knobs (blocklistPayload first.security) first.vhosts
      carryUpgradeMap = .ok base) :
    renderHttpBase second.knobs (blocklistPayload second.security) second.vhosts
      carryUpgradeMap = .ok base := by
  rw [← renderHttpBase_bare, ← bare_eq hfirst hsecond hsame, renderHttpBase_bare,
    ← security_eq hfirst hsecond hsame]
  simp only [renderHttpBase, bind_ok] at hok ⊢
  obtain ⟨part, hpart, hrest⟩ := hok
  refine ⟨part, ?_, hrest⟩
  unfold mojosecPart at hpart ⊢
  split at hpart
  next hobserve =>
    rw [if_pos hobserve]
    simp only [bind_ok, pure_ok] at hpart ⊢
    obtain ⟨evidence, hevidence, rfl⟩ := hpart
    obtain ⟨found, hfound, hperm⟩ := evidence_perm first.keys_nodup second.keys_nodup
      (fun _ => exists_matched hfirst hsecond hsame)
      (fun _ => exists_matched hsecond hfirst hsame.symm) hevidence
    exact ⟨found, hfound, (mojosecHttpLog_eq _ hperm
      (evidence_apart first.keys_nodup (hapart hobserve) hevidence)).symm⟩
  next hoff =>
    rw [if_neg hoff]
    exact hpart

/-! ### All files -/

/-- Files with the same names and bodies, and no name twice, are the same files. -/
theorem Files.get_congr {files found : Files String} (hfiles : (List.map Prod.fst files).Nodup)
    (hfound : (List.map Prod.fst found).Nodup) (hmem : ∀ file ∈ files, file ∈ found)
    (hmem' : ∀ file ∈ found, file ∈ files) (name : String) : files.get name = found.get name := by
  by_cases hname : name ∈ List.map Prod.fst files
  · obtain ⟨file, hfile, rfl⟩ := List.mem_map.mp hname
    rw [Files.get_of_mem hfiles hfile, Files.get_of_mem hfound (hmem file hfile)]
  · have hnone : name ∉ List.map Prod.fst found := by
      intro hother
      obtain ⟨file, hfile, rfl⟩ := List.mem_map.mp hother
      exact hname (List.mem_map_of_mem (hmem' file hfile))
    rw [not_ne_iff.mp (mt Files.get_ne_none_iff.mp hname),
      not_ne_iff.mp (mt Files.get_ne_none_iff.mp hnone)]

theorem renderedVhosts_included (hfirst : desiredState settings first = .ok payload)
    (hsecond : desiredState settings second = .ok other)
    (hsame : payload.canonical = other.canonical) {generation : Nginx.Word}
    {rendered found : Files (List String)}
    (hrendered : renderedVhosts settings first.knobs generation first.vhosts = .ok rendered)
    (hfound : renderedVhosts settings second.knobs generation second.vhosts = .ok found) :
    ∀ file ∈ rendered, file ∈ found := by
  rintro ⟨name, lines⟩ hfile
  obtain ⟨vhost, hvhost, hlines, rfl⟩ := (mem_renderedVhosts hrendered name lines).mp hfile
  obtain ⟨match', hmatch, hmatched⟩ := exists_matched hfirst hsecond hsame hvhost
  refine (mem_renderedVhosts hfound _ lines).mpr ⟨match', hmatch, ?_, hmatched.confName_eq⟩
  exact hmatched.renderVhost_ok (bare_eq hfirst hsecond hsame) hlines

theorem renderedVhosts_exists (hfirst : desiredState settings first = .ok payload)
    (hsecond : desiredState settings second = .ok other)
    (hsame : payload.canonical = other.canonical) {generation : Nginx.Word}
    {rendered : Files (List String)}
    (hrendered : renderedVhosts settings first.knobs generation first.vhosts = .ok rendered) :
    ∃ found, renderedVhosts settings second.knobs generation second.vhosts = .ok found := by
  refine mapM_ok_of_forall fun vhost hvhost => ?_
  obtain ⟨one, hone, hmatched⟩ := exists_matched hsecond hfirst hsame.symm hvhost
  obtain ⟨file, _, hread⟩ := mapM_ok_exists hrendered hone
  simp only [bind_ok, pure_ok] at hread ⊢
  obtain ⟨lines, hlines, _⟩ := hread
  exact ⟨_, lines, hmatched.symm.renderVhost_ok (bare_eq hfirst hsecond hsame) hlines, rfl⟩

theorem renderGeneration_same (hfirst : desiredState settings first = .ok payload)
    (hsecond : desiredState settings second = .ok other)
    (hsame : payload.canonical = other.canonical)
    (hapart : first.knobs.mojosecMode = .observe → PoliciesApart first.vhosts)
    {generation : Nginx.Word} {carryUpgradeMap : Bool} {files : Files String}
    (hok : renderGeneration settings first.knobs first.security first.vhosts generation
      carryUpgradeMap = .ok files) :
    ∃ found, renderGeneration settings second.knobs second.security second.vhosts generation
      carryUpgradeMap = .ok found ∧ ∀ name, found.get name = files.get name := by
  have hnames := renderGeneration_names hok first.keys_nodup
  obtain ⟨base, upstreams, rendered, hbase, hupstreams, hrendered, rfl⟩ := renderGeneration_ok hok
  obtain ⟨found, hfound⟩ := renderedVhosts_exists hfirst hsecond hsame hrendered
  have hbase' := renderHttpBase_ok hfirst hsecond hsame hapart hbase
  have hupstreams' := hupstreams
  rw [renderUpstreams_eq hfirst hsecond hsame] at hupstreams'
  have hok' : renderGeneration settings second.knobs second.security second.vhosts generation
      carryUpgradeMap = .ok ((baseName, Nginx.joined base) ::
        (upstreamsName, Nginx.joined upstreams) :: found.map Nginx.joined) := by
    simp only [renderGeneration, renderLines, bind_ok, pure_ok]
    exact ⟨_, ⟨base, hbase', upstreams, hupstreams', found, hfound, rfl⟩, rfl⟩
  refine ⟨_, hok', fun name => Files.get_congr
    (renderGeneration_names hok' second.keys_nodup) hnames ?_ ?_ name⟩
  · intro file hfile
    simp only [List.mem_cons, Files.map, List.mem_map] at hfile ⊢
    obtain rfl | rfl | ⟨row, hrow, rfl⟩ := hfile
    · exact .inl rfl
    · exact .inr (.inl rfl)
    · exact .inr (.inr ⟨row, renderedVhosts_included hsecond hfirst hsame.symm hfound hrendered row
        hrow, rfl⟩)
  · intro file hfile
    simp only [List.mem_cons, Files.map, List.mem_map] at hfile ⊢
    obtain rfl | rfl | ⟨row, hrow, rfl⟩ := hfile
    · exact .inl rfl
    · exact .inr (.inl rfl)
    · exact .inr (.inr ⟨row, renderedVhosts_included hfirst hsecond hsame hrendered hfound row hrow,
        rfl⟩)

/-! ### Rows in another order -/

def DesiredRows.reorder (rows : DesiredRows) (vhosts : List Vhost)
    (hperm : rows.vhosts.Perm vhosts) : DesiredRows :=
  { rows with
    vhosts := vhosts
    keys_nodup := (hperm.map Vhost.pk).nodup_iff.mp rows.keys_nodup
    upstreams_eq := by
      intro one hone two htwo
      have hmem (upstream : Upstream) : upstream ∈ vhosts.flatMap Vhost.upstreams ↔
          upstream ∈ rows.vhosts.flatMap Vhost.upstreams := by
        simp only [List.mem_flatMap, hperm.mem_iff]
      exact rows.upstreams_eq one ((hmem one).mp hone) two ((hmem two).mp htwo) }

theorem vhostPayload_id {vhost : Vhost} {made : VhostPayload}
    (hmade : vhostPayload settings vhost = .ok made) : made.id = vhost.pk := by
  simp only [vhostPayload, bind_ok, pure_ok] at hmade
  obtain ⟨_, _, _, _, _, _, rfl⟩ := hmade
  rfl

theorem vhostPayload_ids {vhosts : List Vhost} {found : List VhostPayload}
    (hfound : vhosts.mapM (vhostPayload settings) = .ok found) :
    vhosts.map Vhost.pk = found.map VhostPayload.id := by
  rw [mapM_ok_iff] at hfound
  induction hfound with
  | nil => rfl
  | cons hread _ ih => rw [List.map_cons, List.map_cons, ih, vhostPayload_id hread]

theorem desiredState_reorder (hfirst : desiredState settings first = .ok payload)
    {vhosts : List Vhost} (hperm : first.vhosts.Perm vhosts) :
    desiredState settings (first.reorder vhosts hperm) = .ok payload := by
  simp only [desiredState, bind_ok, pure_ok] at hfirst ⊢
  obtain ⟨found, hfound, rfl⟩ := hfirst
  obtain ⟨others, hothers, hsame⟩ := mapM_ok_perm hperm hfound
  have hnodup : (found.map VhostPayload.id).Nodup := vhostPayload_ids hfound ▸ first.keys_nodup
  have hsorted := insertionSort_perm VhostPayload.id hsame fun one hone two htwo heq =>
    List.inj_on_of_nodup_map hnodup hone htwo heq
  refine ⟨others, hothers, ?_⟩
  rw [← hsorted]
  rfl

/-! ### Rows of the log with one server name -/

theorem resourceLine_chars (row : Evidence) :
    Nginx.lineChars (resourceLine row) = "    \"".toList ++ (row.serverName.toList ++
      ("\" \"vhost:".toList ++ ((toString row.vhost).toList ++ '"' :: [';', '\n']))) := by
  rw [resourceLine, Nginx.lineChars, List.flatMap_singleton, Evidence.resourceId]
  simp only [String.toList_append, List.append_assoc]
  rfl

theorem resourceLine_ne {one two : Evidence} (hname : one.serverName = two.serverName)
    (hpk : one.vhost ≠ two.vhost) (left right : List Char) :
    Nginx.lineChars (resourceLine one) ++ left ≠ Nginx.lineChars (resourceLine two) ++ right := by
  have hquote (number : Nat) : '"' ∉ (toString number).toList :=
    JoinedKeys.not_mem_number (by decide)
  intro heq
  rw [resourceLine_chars, resourceLine_chars, hname] at heq
  simp only [List.append_assoc, List.append_cancel_left_eq, List.cons_append] at heq
  exact hpk (JoinedKeys.number_inj (JoinedKeys.first_inj (hquote _) (hquote _) heq).1)

/-- The logs of two orders differ where two rows with one server name change places. -/
theorem renderHttpBase_ne {knobs : Knobs} (hobserve : knobs.mojosecMode = .observe)
    {security : List BlocklistEntry} {one two : Vhost} {rest : List Vhost}
    {carryUpgradeMap : Bool} (hone : one.HasPolicy) (htwo : two.HasPolicy)
    (hname : one.name = two.name) (hpk : one.pk ≠ two.pk) {base other : List String}
    (hbase : renderHttpBase knobs security (one :: two :: rest) carryUpgradeMap = .ok base)
    (hother : renderHttpBase knobs security (two :: one :: rest) carryUpgradeMap = .ok other) :
    Nginx.joined base ≠ Nginx.joined other := by
  simp only [renderHttpBase, mojosecPart, if_pos hobserve, mojosecVhostEvidence, List.mapM_cons,
    bind_ok, pure_ok] at hbase hother
  obtain ⟨_, ⟨_, ⟨_, ⟨first, hfirst, _, ⟨second, hsecond, others, hothers, rfl⟩, rfl⟩, rfl⟩, rfl⟩,
    blocklist, hblocklist, rfl⟩ := hbase
  obtain ⟨_, ⟨_, ⟨_, ⟨second', hsecond', _, ⟨first', hfirst', others', hothers', rfl⟩, rfl⟩, rfl⟩,
    rfl⟩, blocklist', hblocklist', rfl⟩ := hother
  rw [hfirst] at hfirst'
  rw [hsecond] at hsecond'
  rw [hothers] at hothers'
  rw [hblocklist] at hblocklist'
  cases hfirst'
  cases hsecond'
  cases hothers'
  cases hblocklist'
  obtain ⟨row, rfl⟩ := vhostEvidence_of_policy hfirst hone
  obtain ⟨row', rfl⟩ := vhostEvidence_of_policy hsecond htwo
  obtain ⟨_, hserver, hvhost, _⟩ := vhostEvidence_mem hfirst (List.mem_singleton_self row)
  obtain ⟨_, hserver', hvhost', _⟩ := vhostEvidence_mem hsecond (List.mem_singleton_self row')
  have htied : row.serverName = row'.serverName := by rw [hserver, hserver', hname]
  obtain ⟨before, after, hsorted, hsorted'⟩ :=
    insertionSort_tied Evidence.serverName htied others.flatten
  intro heq
  have hchars := congrArg String.toList heq
  rw [Nginx.toList_joined_append_nil, Nginx.toList_joined_append_nil] at hchars
  simp only [mojosecHttpLog, List.flatten_cons, List.singleton_append, hsorted, hsorted',
    List.flatMap_append, List.flatMap_cons, Nginx.lineChars_append, List.append_assoc,
    List.append_cancel_left_eq] at hchars
  refine resourceLine_ne htied ?_ _ _ hchars
  rw [hvhost, hvhost']
  exact hpk

/-! ### What a node makes of a generation -/

def CollisionFree (sha256 : HashedPayload → Nginx.Word) (framework : String)
    (payload : DesiredPayload) : Prop :=
  ∀ hashed, sha256 hashed = generationId sha256 framework payload →
    hashed = ⟨payload.canonical, tempPaths, framework⟩

/-- `render_generation` of rows that are all installable, on a node. -/
def DesiredRows.render (node : Node) (rows : DesiredRows) (generation : Nginx.Word)
    (carryUpgradeMap : Bool) : Checked (Files String) :=
  renderGeneration node.settings rows.knobs rows.security rows.vhosts
    (node.localGenerationId generation carryUpgradeMap) carryUpgradeMap

/-- Both rows render to the same files, and every virtual host that serves files has the same web
root in both. -/
structure SameOnNode (node : Node) (generation : Nginx.Word) (carryUpgradeMap : Bool)
    (first second : DesiredRows) : Prop where
  files : ∃ files found, first.render node generation carryUpgradeMap = .ok files ∧
    second.render node generation carryUpgradeMap = .ok found ∧
    ∀ name, found.get name = files.get name
  roots : ∀ pools, ∀ one ∈ first.vhosts, one.servesFiles = true → ∃ other ∈ second.vhosts,
    other.pk = one.pk ∧ other.servesFiles = true ∧
      (second.desired pools generation).rootOf node other =
        (first.desired pools generation).rootOf node one

theorem canonical_eq {sha256 : HashedPayload → Nginx.Word} {framework : String}
    (hfree : CollisionFree sha256 framework payload)
    (hid : generationId sha256 framework other = generationId sha256 framework payload) :
    payload.canonical = other.canonical :=
  (congrArg HashedPayload.payload (hfree _ hid)).symm

theorem rootOf_eq {node : Node} (hfirst : desiredState node.settings first = .ok payload)
    (hsecond : desiredState node.settings second = .ok other)
    (hsame : payload.canonical = other.canonical) (generation : Nginx.Word)
    (pools : List (String × String)) {one : Vhost} (hone : one ∈ first.vhosts)
    (hserves : one.servesFiles = true) : ∃ found ∈ second.vhosts, found.pk = one.pk ∧
      found.servesFiles = true ∧ (second.desired pools generation).rootOf node found =
        (first.desired pools generation).rootOf node one := by
  obtain ⟨found, hfound, hmatched⟩ := exists_matched hfirst hsecond hsame hone
  refine ⟨found, hfound, hmatched.pk_eq.symm, ?_, ?_⟩
  · rw [Vhost.servesFiles, ← hmatched.kind_eq]
    exact hserves
  · rw [Desired.rootOf, Desired.rootOf, ← hmatched.pk_eq, ← hmatched.name_eq,
      release_eq hfirst hsecond hsame]

/-- Two orders of the rows that swap two policies with one server name differ on a node. -/
theorem not_sameOnNode_swapped {node : Node} (hobserve : first.knobs.mojosecMode = .observe)
    (hsame : second.knobs = first.knobs) (hsecurity : second.security = first.security)
    {one two : Vhost} {rest : List Vhost} (hfirst : first.vhosts = one :: two :: rest)
    (hsecond : second.vhosts = two :: one :: rest) (hone : one.HasPolicy) (htwo : two.HasPolicy)
    (hname : one.name = two.name) (hpk : one.pk ≠ two.pk) {generation : Nginx.Word}
    {carryUpgradeMap : Bool} {files found : Files String}
    (hfiles : first.render node generation carryUpgradeMap = .ok files)
    (hfound : second.render node generation carryUpgradeMap = .ok found) :
    found.get baseName ≠ files.get baseName := by
  have hnames := renderGeneration_names hfiles first.keys_nodup
  have hnames' := renderGeneration_names hfound second.keys_nodup
  obtain ⟨base, _, _, hbase, _, _, rfl⟩ := renderGeneration_ok hfiles
  obtain ⟨base', _, _, hbase', _, _, rfl⟩ := renderGeneration_ok hfound
  rw [hsame, hsecurity, hsecond] at hbase'
  rw [hfirst] at hbase
  have hfile := Files.get_of_mem hnames (@List.mem_cons_self _ (baseName, Nginx.joined base) _)
  have hfile' := Files.get_of_mem hnames' (@List.mem_cons_self _ (baseName, Nginx.joined base') _)
  rw [hfile, hfile']
  intro heq
  exact renderHttpBase_ne hobserve hone htwo hname hpk hbase hbase' (Option.some.inj heq).symm

/-- Rows with a generation's id make the same of it on a node, in any order, exactly when no two
policies that are in force have one server name. -/
theorem sameOnNode_iff (node : Node) (sha256 : HashedPayload → Nginx.Word) (framework : String)
    (carryUpgradeMap : Bool) {rows : DesiredRows} {payload : DesiredPayload}
    {files : Files String} (hpayload : desiredState node.settings rows = .ok payload)
    (hfree : CollisionFree sha256 framework payload)
    (hfiles : rows.render node (generationId sha256 framework payload) carryUpgradeMap =
      .ok files) :
    (∀ other : DesiredRows, desiredGeneration node.settings sha256 framework other =
        .ok (generationId sha256 framework payload) →
      SameOnNode node (generationId sha256 framework payload) carryUpgradeMap rows other) ↔
    (rows.knobs.mojosecMode = .observe → PoliciesApart rows.vhosts) := by
  constructor
  · intro hall hobserve one hone two htwo hpolicy hpolicy' hname
    by_contra hpk
    -- the two in front, in both orders
    obtain ⟨left, right, hsplit⟩ := List.append_of_mem hone
    have hfront : rows.vhosts.Perm (one :: (left ++ right)) := by
      rw [hsplit]
      exact List.perm_middle
    have hmem : two ∈ left ++ right := by
      rcases List.mem_cons.mp (hfront.mem_iff.mp htwo) with rfl | hrest
      · exact absurd rfl hpk
      · exact hrest
    obtain ⟨before, after, hsplit'⟩ := List.append_of_mem hmem
    have hboth : rows.vhosts.Perm (one :: two :: (before ++ after)) := by
      refine hfront.trans (List.Perm.cons _ ?_)
      rw [hsplit']
      exact List.perm_middle
    have hswapped : rows.vhosts.Perm (two :: one :: (before ++ after)) :=
      hboth.trans (List.Perm.swap _ _ _)
    have hid : ∀ vhosts (hperm : rows.vhosts.Perm vhosts), desiredGeneration node.settings sha256
        framework (rows.reorder vhosts hperm) = .ok (generationId sha256 framework payload) := by
      intro vhosts hperm
      simp only [desiredGeneration, bind_ok, pure_ok]
      exact ⟨payload, desiredState_reorder hpayload hperm, rfl⟩
    obtain ⟨_, found, hok, hfound, hsame⟩ := (hall _ (hid _ hboth)).files
    obtain ⟨_, found', hok', hfound', hsame'⟩ := (hall _ (hid _ hswapped)).files
    rw [hok] at hok'
    cases hok'
    refine @not_sameOnNode_swapped (rows.reorder _ hboth) (rows.reorder _ hswapped) node hobserve
      rfl rfl one two _ rfl rfl hpolicy hpolicy' hname hpk _ _ _ _ hfound hfound' ?_
    rw [hsame, hsame']
  · intro hapart other hother
    simp only [desiredGeneration, bind_ok, pure_ok] at hother
    obtain ⟨read, hread, hid⟩ := hother
    have hsame := canonical_eq hfree hid
    obtain ⟨found, hfound, heq⟩ := renderGeneration_same hpayload hread hsame hapart hfiles
    exact ⟨⟨files, found, hfiles, hfound, heq⟩, fun pools one hone hserves =>
      rootOf_eq hpayload hread hsame _ pools hone hserves⟩

section Sample

def observedPolicy : Json :=
  .obj [("version", .int 1), ("impossible_path_families", .arr []),
    ("response_class", .str "static_site")]

def observedSite (pk : Nat) (domain : Domain) (label : String) : Vhost where
  pk := pk
  domain := domain
  label := label
  kind := .site
  certificate := { pk := pk, domain := domain.pk, commonName := "a.b.io" }
  mojosecPolicy := observedPolicy

/-- One name, by the label in one domain and as the apex of another. -/
def byLabel : Vhost := observedSite 1 ⟨1, "b.io", none⟩ "a"

def asApex : Vhost := observedSite 2 ⟨2, "a.b.io", none⟩ ""

def observedRows (vhosts : List Vhost) (hkeys : (vhosts.map Vhost.pk).Nodup)
    (hsites : vhosts.flatMap Vhost.upstreams = []) : DesiredRows where
  vhosts := vhosts
  webApps := []
  knobs := { plainKnobs with mojosecMode := .observe }
  security := []
  keys_nodup := hkeys
  upstreams_eq := by
    rw [hsites]
    exact nofun

theorem plain_two : Nginx.Plain "2".toList := by decide

open Classical in
noncomputable def ownDigest (framework : String) (payload : DesiredPayload) :
    HashedPayload → Nginx.Word := fun hashed =>
  if hashed = ⟨payload.canonical, tempPaths, framework⟩ then firstGeneration else ⟨"2", plain_two⟩

theorem ownDigest_self (framework : String) (payload : DesiredPayload) :
    generationId (ownDigest framework payload) framework payload = firstGeneration := by
  classical
  exact if_pos rfl

theorem ownDigest_free (framework : String) (payload : DesiredPayload) :
    CollisionFree (ownDigest framework payload) framework payload := by
  classical
  intro hashed heq
  rw [ownDigest_self, ownDigest] at heq
  split at heq
  next hsame => exact hsame
  next => exact absurd (congrArg Nginx.Word.text heq) (by decide)

def oneSite : DesiredRows := observedRows [byLabel] (by decide) rfl

def twoSites : DesiredRows := observedRows [byLabel, asApex] (by decide) rfl

theorem oneSite_payload : (desiredState plainSettings oneSite).isOk = true := by decide +kernel

theorem oneSite_renders : (oneSite.render plainNode firstGeneration false).isOk = true := by
  decide +kernel

theorem twoSites_payload : (desiredState plainSettings twoSites).isOk = true := by decide +kernel

theorem twoSites_render : (twoSites.render plainNode firstGeneration false).isOk = true := by
  decide +kernel

/-- One site with a policy. -/
theorem sameOnNode_oneSite : ∃ payload, desiredState plainSettings oneSite = .ok payload ∧
    ∀ other : DesiredRows,
      desiredGeneration plainNode.settings (ownDigest "1.0" payload) "1.0" other =
        .ok (generationId (ownDigest "1.0" payload) "1.0" payload) →
      SameOnNode plainNode (generationId (ownDigest "1.0" payload) "1.0" payload) false oneSite
        other := by
  obtain ⟨payload, hpayload⟩ := exists_ok_of_isOk oneSite_payload
  obtain ⟨files, hfiles⟩ := exists_ok_of_isOk oneSite_renders
  rw [← ownDigest_self "1.0" payload] at hfiles
  refine ⟨payload, hpayload, ?_⟩
  refine (sameOnNode_iff plainNode (ownDigest "1.0" payload) "1.0" false hpayload
    (ownDigest_free "1.0" payload) hfiles).mpr ?_
  intro _ one hone other hother _ _ _
  rw [List.mem_singleton.mp hone, List.mem_singleton.mp hother]

/-- Two sites with one name and a policy each, in both orders. -/
theorem not_sameOnNode_twoOrders : ¬ ∀ (node : Node) (sha256 : HashedPayload → Nginx.Word)
    (framework : String) (carryUpgradeMap : Bool) (first second : DesiredRows)
    (payload : DesiredPayload), desiredState node.settings first = .ok payload →
    CollisionFree sha256 framework payload →
    desiredGeneration node.settings sha256 framework second =
      .ok (generationId sha256 framework payload) →
    (∃ files, first.render node (generationId sha256 framework payload) carryUpgradeMap =
      .ok files) →
    SameOnNode node (generationId sha256 framework payload) carryUpgradeMap first second := by
  intro hall
  have hperm : twoSites.vhosts.Perm [asApex, byLabel] := List.Perm.swap _ _ _
  obtain ⟨payload, hpayload⟩ := exists_ok_of_isOk twoSites_payload
  obtain ⟨files, hfiles⟩ := exists_ok_of_isOk twoSites_render
  rw [← ownDigest_self "1.0" payload] at hfiles
  have hid : desiredGeneration plainNode.settings (ownDigest "1.0" payload) "1.0"
      (twoSites.reorder _ hperm) = .ok (generationId (ownDigest "1.0" payload) "1.0" payload) := by
    simp only [desiredGeneration, bind_ok, pure_ok]
    exact ⟨payload, desiredState_reorder hpayload hperm, rfl⟩
  have hsame := hall plainNode (ownDigest "1.0" payload) "1.0" false twoSites
    (twoSites.reorder _ hperm) payload hpayload (ownDigest_free "1.0" payload) hid ⟨files, hfiles⟩
  obtain ⟨_, found, hok, hfound, heq⟩ := hsame.files
  have hpolicy : byLabel.HasPolicy ∧ asApex.HasPolicy := ⟨⟨_, rfl⟩, ⟨_, rfl⟩⟩
  exact @not_sameOnNode_swapped twoSites (twoSites.reorder _ hperm) plainNode rfl rfl rfl byLabel
    asApex [] rfl rfl hpolicy.1 hpolicy.2 rfl (by decide) _ _ _ _ hok hfound (heq _)

end Sample

end DjangoMojo.Edge
