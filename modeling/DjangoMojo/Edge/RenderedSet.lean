import DjangoMojo.Edge.Injection

/-! # How a rendered file depends on the set of virtual hosts

The file of a virtual host depends on that one alone. The file of the upstreams depends
on which upstreams are reached, and the http base on the policies that are in force.
-/

namespace DjangoMojo.Edge

open Foundation

/-! ### Upstreams -/

def OneRowPerKey (upstreams : List Upstream) : Prop :=
  ∀ first ∈ upstreams, ∀ second ∈ upstreams, first.pk = second.pk → first = second

theorem OneRowPerKey.subset {all some : List Upstream} (hall : OneRowPerKey all)
    (hsub : ∀ upstream ∈ some, upstream ∈ all) : OneRowPerKey some := fun first hfirst second hsecond =>
  hall first (hsub first hfirst) second (hsub second hsecond)

theorem mem_seeUpstream {seen : List Upstream} {upstream : Upstream}
    (hrows : OneRowPerKey (upstream :: seen)) (other : Upstream) :
    other ∈ seeUpstream seen upstream ↔ other = upstream ∨ other ∈ seen := by
  simp only [seeUpstream, List.mem_append, List.mem_filter, List.mem_singleton, ne_eq,
    decide_not, Bool.not_eq_true', decide_eq_false_iff_not]
  constructor
  · rintro (⟨hother, _⟩ | rfl)
    · exact .inr hother
    · exact .inl rfl
  · rintro (rfl | hother)
    · exact .inr rfl
    · by_cases hkey : other.pk = upstream.pk
      · exact .inr (hrows other (List.mem_cons_of_mem _ hother) upstream List.mem_cons_self hkey)
      · exact .inl ⟨hother, hkey⟩

theorem mem_foldl_seeUpstream {seen upstreams : List Upstream}
    (hrows : OneRowPerKey (upstreams ++ seen)) (other : Upstream) :
    other ∈ upstreams.foldl seeUpstream seen ↔ other ∈ upstreams ∨ other ∈ seen := by
  induction upstreams generalizing seen with
  | nil => simp
  | cons upstream rest ih =>
    have hhead : OneRowPerKey (upstream :: seen) := hrows.subset fun row hrow => by
      simp only [List.mem_cons, List.mem_append] at hrow ⊢
      tauto
    have hmem := mem_seeUpstream hhead
    have hrest : OneRowPerKey (rest ++ seeUpstream seen upstream) := hrows.subset fun row hrow => by
      simp only [List.mem_cons, List.mem_append, hmem] at hrow ⊢
      tauto
    rw [List.foldl_cons, ih hrest, hmem, List.mem_cons]
    tauto

theorem foldl_seeUpstream_keys {seen : List Upstream} (upstreams : List Upstream)
    (hseen : seen.Pairwise fun first second => first.pk ≠ second.pk) :
    (upstreams.foldl seeUpstream seen).Pairwise fun first second => first.pk ≠ second.pk := by
  induction upstreams generalizing seen with
  | nil => exact hseen
  | cons upstream rest ih =>
    refine ih ?_
    rw [seeUpstream, List.pairwise_append]
    refine ⟨hseen.filter _, List.pairwise_singleton _ _, ?_⟩
    intro first hfirst second hsecond
    rw [List.mem_singleton.mp hsecond]
    simpa using (List.mem_filter.mp hfirst).2

theorem mem_referencedUpstreams {vhosts : List Vhost}
    (hrows : OneRowPerKey (vhosts.flatMap Vhost.upstreams)) (upstream : Upstream) :
    upstream ∈ referencedUpstreams vhosts ↔ upstream ∈ vhosts.flatMap Vhost.upstreams := by
  rw [referencedUpstreams, List.mem_insertionSort,
    mem_foldl_seeUpstream (by rwa [List.append_nil])]
  simp

/-- Virtual hosts that reach the same upstreams have the same file of upstreams. -/
theorem referencedUpstreams_congr {first second : List Vhost}
    (hfirst : OneRowPerKey (first.flatMap Vhost.upstreams))
    (hsecond : OneRowPerKey (second.flatMap Vhost.upstreams))
    (hsame : ∀ upstream, upstream ∈ first.flatMap Vhost.upstreams ↔
      upstream ∈ second.flatMap Vhost.upstreams) :
    referencedUpstreams first = referencedUpstreams second := by
  have hkeys (vhosts : List Vhost) : (referencedUpstreams vhosts).Pairwise
      fun one other => one.pk ≠ other.pk := by
    have hseen := foldl_seeUpstream_keys (vhosts.flatMap Vhost.upstreams) List.Pairwise.nil
    exact (List.perm_insertionSort _ _).symm.pairwise hseen fun hne => hne.symm
  have hnodup (vhosts : List Vhost) : (referencedUpstreams vhosts).Nodup :=
    (hkeys vhosts).imp fun hne heq => hne (congrArg Upstream.pk heq)
  have hperm : (referencedUpstreams first).Perm (referencedUpstreams second) := by
    rw [List.perm_ext_iff_of_nodup (hnodup first) (hnodup second)]
    intro upstream
    rw [mem_referencedUpstreams hfirst, mem_referencedUpstreams hsecond, hsame]
  have hsorted (vhosts : List Vhost) : (referencedUpstreams vhosts).Pairwise
      fun one other => one.pk ≤ other.pk := List.pairwise_insertionSort _ _
  refine List.Perm.eq_of_pairwise ?_ (hsorted first) (hsorted second) hperm
  intro one other hone hother hle hge
  have hmem : one ∈ second.flatMap Vhost.upstreams :=
    (hsame one).mp ((mem_referencedUpstreams hfirst one).mp hone)
  exact hsecond one hmem other ((mem_referencedUpstreams hsecond other).mp hother)
    (Nat.le_antisymm hle hge)

/-! ### Policies -/

/-- A virtual host without a policy has no evidence. -/
theorem mojosecVhostEvidence_filter {vhosts : List Vhost} {evidence : List Evidence}
    (keeps : Vhost → Bool) (hok : mojosecVhostEvidence vhosts = .ok evidence)
    (hleft : ∀ vhost ∈ vhosts, keeps vhost = false → vhostEvidence vhost = .ok []) :
    mojosecVhostEvidence (vhosts.filter keeps) = .ok evidence := by
  induction vhosts generalizing evidence with
  | nil => exact hok
  | cons vhost rest ih =>
    simp only [mojosecVhostEvidence, List.mapM_cons, bind_ok, pure_ok] at hok
    obtain ⟨_, ⟨head, hhead, tail, htail, rfl⟩, rfl⟩ := hok
    have hevidence : mojosecVhostEvidence rest = .ok tail.flatten := by
      simp only [mojosecVhostEvidence, bind_ok, pure_ok]
      exact ⟨tail, htail, rfl⟩
    have hrest := ih hevidence fun other hother => hleft other (List.mem_cons_of_mem _ hother)
    rw [List.filter_cons]
    split
    next =>
      simp only [mojosecVhostEvidence, List.mapM_cons, bind_ok, pure_ok] at hrest ⊢
      obtain ⟨kept, hkept, heq⟩ := hrest
      exact ⟨head :: kept, ⟨head, hhead, kept, hkept, rfl⟩, by rw [List.flatten_cons,
        List.flatten_cons, heq]⟩
    next hdrop =>
      have hnone := hleft vhost List.mem_cons_self (by simpa using hdrop)
      rw [hhead] at hnone
      cases hnone
      simpa using hrest

/-! ### The files of virtual hosts -/

theorem toString_nat_inj {first second : Nat} (heq : toString first = toString second) :
    first = second := by
  have hdigits := congrArg String.toList heq
  rw [Nat.toString_eq_ofList_toDigits, Nat.toString_eq_ofList_toDigits, String.toList_ofList,
    String.toList_ofList] at hdigits
  have hread := congrArg (fun digits => Nat.ofDigitChars 10 digits 0) hdigits
  simpa only [Nat.ofDigitChars_ten_toDigits] using hread

theorem confName_inj {first second : Vhost} (heq : first.confName = second.confName) :
    first.pk = second.pk := by
  have hlist := congrArg String.toList heq
  simp only [Vhost.confName, String.toList_append, List.append_assoc,
    List.append_cancel_left_eq, List.append_cancel_right_eq] at hlist
  exact toString_nat_inj (String.toList_inj.mp hlist)

variable {settings : Settings} {knobs : Knobs} {rows : List BlocklistEntry} {vhosts : List Vhost}
  {generation : Nginx.Word} {carryUpgradeMap : Bool} {files : Files String}

theorem renderedVhosts_map_fst {rendered : Files (List String)}
    (hok : renderedVhosts settings knobs generation vhosts = .ok rendered) :
    List.map Prod.fst rendered = vhosts.map Vhost.confName := by
  induction vhosts generalizing rendered with
  | nil =>
    cases hok
    rfl
  | cons vhost rest ih =>
    obtain ⟨lines, more, _, hmore, rfl⟩ := renderedVhosts_ok_cons hok
    rw [List.map_cons, List.map_cons, ih hmore]

theorem renderGeneration_ok (hok : renderGeneration settings knobs rows vhosts generation
    carryUpgradeMap = .ok files) : ∃ base upstreams rendered,
      renderHttpBase knobs (blocklistPayload rows) vhosts carryUpgradeMap = .ok base ∧
      renderUpstreams settings (referencedUpstreams vhosts) = .ok upstreams ∧
      renderedVhosts settings knobs generation vhosts = .ok rendered ∧
      files = (baseName, Nginx.joined base) :: (upstreamsName, Nginx.joined upstreams) ::
        rendered.map Nginx.joined := by
  simp only [renderGeneration, bind_ok, pure_ok] at hok
  obtain ⟨lines, hlines, rfl⟩ := hok
  obtain ⟨base, upstreams, rendered, hbase, hupstreams, hrendered, rfl⟩ := renderLines_ok hlines
  exact ⟨base, upstreams, rendered, hbase, hupstreams, hrendered, rfl⟩

theorem renderGeneration_map_fst (hok : renderGeneration settings knobs rows vhosts generation
    carryUpgradeMap = .ok files) :
    List.map Prod.fst files = baseName :: upstreamsName :: vhosts.map Vhost.confName := by
  obtain ⟨base, upstreams, rendered, _, _, hrendered, rfl⟩ := renderGeneration_ok hok
  rw [← renderedVhosts_map_fst hrendered, Files.map, List.map_cons, List.map_cons, List.map_map]
  rfl

theorem Files.get_ne_none_iff {Content : Type} {files : Files Content} {name : String} :
    files.get name ≠ none ↔ name ∈ List.map Prod.fst files := by
  rw [Files.get, ne_eq, List.lookup_eq_none_iff, not_forall]
  simp only [List.mem_reverse, bne_iff_ne, ne_eq, Classical.not_imp, not_not, List.mem_map]
  exact exists_congr fun file => and_congr_right fun _ => eq_comm

end DjangoMojo.Edge
