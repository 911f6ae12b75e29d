import Mathlib.Data.List.MinMax
import Mathlib.Data.Option.Basic
import DjangoMojo.Edge.PlainValues
import DjangoMojo.Edge.Skeleton

/-! # The maps of the blocklist

The rows of the blocklist become entries of four maps: the networks of two `geo` blocks, and
the user agents of two maps. Rows are told apart by the values that they store, but a network
is rendered from its parse: two spellings of one network are two entries with one key.
-/

namespace DjangoMojo.Edge

open Foundation

/-! ### Rows -/

def FirstOfValue (security : List BlocklistEntry) (row : BlocklistEntry) : Prop :=
  (security.filter fun other => other.kind = row.kind).find? (fun other =>
    other.value = row.value) = some row

/-- The rows of a map, in the order in which they are rendered. -/
def mapRows (security : List BlocklistEntry) (kind : BlocklistKind) (mode : BlocklistMode) :
    List BlocklistEntry :=
  rowsOf security kind .allow ++ rowsOf security kind mode

def mapValue (row : BlocklistEntry) : Nat := if row.mode = .allow then 0 else row.id

def AllowFirst (rows : List BlocklistEntry) : Prop :=
  rows.Pairwise fun first second => second.mode = .allow → first.mode = .allow

def NormalNetwork (network : IpNetwork) : Prop :=
  let width := if network.isV6 then 128 else 32
  network.length ≤ width ∧
    IpNetwork.masked width network.length network.address = network.address

/-! ### What nginx makes of a `geo` block -/

/-- An entry of a `geo` block. -/
structure GeoEntry where
  network : IpNetwork
  row : BlocklistEntry

/-- The entries of a `geo` block. -/
def geoEntries (security : List BlocklistEntry) (mode : BlocklistMode) : List GeoEntry :=
  (mapRows security .ip mode).filterMap fun row =>
    (IpNetwork.parse row.value).map fun network => ⟨network, row⟩

/-- The entry of the longest network that contains the address. -/
def longestEntry (entries : List GeoEntry) (address : IpAddress) : Option GeoEntry :=
  (entries.filter fun entry => entry.network.contains address).argmax fun entry =>
    entry.network.length

/-- The value of the variable of a `geo` block, zero by default. -/
def geoValue (entries : List GeoEntry) (address : IpAddress) : Nat :=
  (longestEntry entries address).elim 0 fun entry => mapValue entry.row

/-! ### The claims of the maps -/

/-- No two entries of the maps of a mode have the same key, what they are made of is normal, and
allowed rows come first. -/
structure MapsHold (security : List BlocklistEntry) (mode : BlocklistMode) : Prop where
  networks : ((mapRows security .ip mode).map networkText).Nodup
  patterns : ((mapRows security .ua mode).map fun row => "~*" ++ row.value).Nodup
  normal : ∀ row ∈ mapRows security .ip mode, ∃ network,
    IpNetwork.parse row.value = some network ∧ NormalNetwork network
  allowFirst : ∀ kind, AllowFirst (mapRows security kind mode)

/-- An address is blocked only by the longest network that contains it, of an enforced row. -/
def BlocksEnforced (security : List BlocklistEntry) : Prop :=
  ∀ address, geoValue (geoEntries security .enforce) address ≠ 0 →
    ∃ entry ∈ geoEntries security .enforce, entry.row.mode = .enforce ∧
      entry.network.contains address = true ∧
      ∀ other ∈ geoEntries security .enforce, other.network.contains address = true →
        other.network.length ≤ entry.network.length

/-- Rows of a mode, or allowed ones, that are the first with their values have one value if
they have one network. -/
def SpelledOnce (security : List BlocklistEntry) (mode : BlocklistMode) : Prop :=
  ∀ first second : BlocklistEntry, FirstOfValue security first → FirstOfValue security second →
    first.kind = .ip → second.kind = .ip → (first.mode = .allow ∨ first.mode = mode) →
    (second.mode = .allow ∨ second.mode = mode) → networkText first = networkText second →
    first.value = second.value

def geoLines (security : List BlocklistEntry) (name : String) (mode : BlocklistMode) :
    List String :=
  ["geo $" ++ name ++ " \x7b", "    default 0;"] ++
    (mapRows security .ip mode).map (fun row =>
      "    " ++ networkText row ++ (" " ++ toString (mapValue row) ++ ";")) ++ ["\x7d"]

def uaLines (security : List BlocklistEntry) (name : String) (mode : BlocklistMode) :
    List String :=
  ["map $http_user_agent $" ++ name ++ " \x7b", "    default 0;"] ++
    (mapRows security .ua mode).map (fun row =>
      "    \"~*" ++ row.value ++ ("\" " ++ toString (mapValue row) ++ ";")) ++ ["\x7d"]

/-! ### The rows that are kept -/

section Rows

variable {rows security : List BlocklistEntry} {kind : BlocklistKind} {mode : BlocklistMode}
  {row : BlocklistEntry}

/-- The rows that the loop of `_dedupe_rows` has kept. -/
def dedupeOnto (kept rows : List BlocklistEntry) : List BlocklistEntry :=
  rows.foldl (fun kept row =>
    if kept.any fun other => other.value = row.value then kept else kept ++ [row]) kept

theorem dedupeOnto_cons (kept : List BlocklistEntry) (row : BlocklistEntry)
    (rest : List BlocklistEntry) : dedupeOnto kept (row :: rest) =
      dedupeOnto (if kept.any fun other => other.value = row.value then kept else kept ++ [row])
        rest := rfl

theorem mem_dedupeOnto {kept : List BlocklistEntry} : row ∈ dedupeOnto kept rows ↔
    row ∈ kept ∨ (∀ other ∈ kept, other.value ≠ row.value) ∧
      rows.find? (fun other => other.value = row.value) = some row := by
  induction rows generalizing kept with
  | nil => simp [dedupeOnto]
  | cons first rest ih =>
    rw [dedupeOnto_cons, ih, List.find?_cons]
    by_cases hseen : kept.any (fun other => other.value = first.value) = true
    · rw [if_pos hseen]
      obtain ⟨other, hother, hsame⟩ := List.any_eq_true.mp hseen
      have hsame : other.value = first.value := of_decide_eq_true hsame
      by_cases heq : first.value = row.value
      · have hkept : ¬ ∀ other ∈ kept, other.value ≠ row.value := fun hall =>
          hall other hother (hsame.trans heq)
        simp only [hkept, false_and]
      · simp only [heq, decide_false]
    · rw [if_neg hseen]
      have hfresh : ∀ other ∈ kept, other.value ≠ first.value := fun other hother hsame =>
        hseen (List.any_eq_true.mpr ⟨other, hother, decide_eq_true hsame⟩)
      by_cases heq : first.value = row.value
      · simp only [heq, decide_true, List.mem_append, List.mem_singleton, Option.some.injEq]
        constructor
        · rintro ((hmem | rfl) | ⟨hall, _⟩)
          · exact .inl hmem
          · exact .inr ⟨hfresh, rfl⟩
          · exact absurd heq (hall first (.inr rfl))
        · rintro (hmem | ⟨_, rfl⟩)
          · exact .inl (.inl hmem)
          · exact .inl (.inr rfl)
      · have hne : row ≠ first := fun hsame => heq (hsame ▸ rfl)
        simp only [heq, decide_false, List.mem_append, List.mem_singleton, hne, or_false,
          or_imp, forall_and, forall_eq]
        simp only [ne_eq, heq, not_false_eq_true, and_true]

theorem nodup_dedupeOnto {kept : List BlocklistEntry}
    (hkept : (kept.map BlocklistEntry.value).Nodup) :
    ((dedupeOnto kept rows).map BlocklistEntry.value).Nodup := by
  induction rows generalizing kept with
  | nil => exact hkept
  | cons first rest ih =>
    rw [dedupeOnto_cons]
    refine ih ?_
    split
    · exact hkept
    next hfresh =>
      rw [List.map_append, List.nodup_append]
      refine ⟨hkept, List.nodup_singleton _, ?_⟩
      rintro value hvalue _ hsingle rfl
      obtain ⟨other, hother, rfl⟩ := List.mem_map.mp hvalue
      rw [List.map_singleton, List.mem_singleton] at hsingle
      exact hfresh (List.any_eq_true.mpr ⟨other, hother, decide_eq_true hsingle⟩)

theorem mem_rowsOf : row ∈ rowsOf security kind mode ↔
    row.kind = kind ∧ row.mode = mode ∧ FirstOfValue security row := by
  have hdedupe : dedupeRows (security.filter fun row => row.kind = kind) =
      dedupeOnto [] (security.filter fun row => row.kind = kind) := rfl
  rw [rowsOf, List.mem_filter, hdedupe, mem_dedupeOnto, decide_eq_true_iff]
  simp only [List.not_mem_nil, false_or, false_implies, implies_true, true_and]
  constructor
  · rintro ⟨hfirst, hmode⟩
    have hkind : row.kind = kind :=
      of_decide_eq_true (List.mem_filter.mp (List.mem_of_find?_eq_some hfirst)).2
    refine ⟨hkind, hmode, ?_⟩
    rw [FirstOfValue, hkind]
    exact hfirst
  · rintro ⟨rfl, hmode, hfirst⟩
    exact ⟨hfirst, hmode⟩

theorem mem_mapRows : row ∈ mapRows security kind mode ↔
    row.kind = kind ∧ (row.mode = .allow ∨ row.mode = mode) ∧ FirstOfValue security row := by
  rw [mapRows, List.mem_append, mem_rowsOf, mem_rowsOf]
  constructor
  · rintro (⟨hkind, hmode, hfirst⟩ | ⟨hkind, hmode, hfirst⟩)
    · exact ⟨hkind, .inl hmode, hfirst⟩
    · exact ⟨hkind, .inr hmode, hfirst⟩
  · rintro ⟨hkind, hmode | hmode, hfirst⟩
    · exact .inl ⟨hkind, hmode, hfirst⟩
    · exact .inr ⟨hkind, hmode, hfirst⟩

theorem FirstOfValue.eq {other : BlocklistEntry} (hfirst : FirstOfValue security row)
    (hother : FirstOfValue security other) (hkind : row.kind = other.kind)
    (hvalue : row.value = other.value) : row = other := by
  rw [FirstOfValue, hkind, hvalue] at hfirst
  exact Option.some.inj (hfirst.symm.trans hother)

theorem nodup_rowsOf (security : List BlocklistEntry) (kind : BlocklistKind)
    (mode : BlocklistMode) : ((rowsOf security kind mode).map BlocklistEntry.value).Nodup :=
  have hnil : (([] : List BlocklistEntry).map BlocklistEntry.value).Nodup := List.nodup_nil
  (nodup_dedupeOnto hnil).sublist (List.filter_sublist.map _)

theorem nodup_mapRows (security : List BlocklistEntry) (kind : BlocklistKind)
    (hmode : mode ≠ .allow) : ((mapRows security kind mode).map BlocklistEntry.value).Nodup := by
  rw [mapRows, List.map_append, List.nodup_append]
  refine ⟨nodup_rowsOf security kind .allow, nodup_rowsOf security kind mode, ?_⟩
  rintro value hallowed _ hactive rfl
  obtain ⟨first, hfirst, rfl⟩ := List.mem_map.mp hallowed
  obtain ⟨second, hsecond, hvalue⟩ := List.mem_map.mp hactive
  obtain ⟨hfirstKind, hfirstMode, hfirst⟩ := mem_rowsOf.mp hfirst
  obtain ⟨hsecondKind, hsecondMode, hsecond⟩ := mem_rowsOf.mp hsecond
  have hsame := hsecond.eq hfirst (hsecondKind.trans hfirstKind.symm) hvalue
  rw [hsame] at hsecondMode
  exact hmode (hsecondMode.symm.trans hfirstMode)

theorem allowFirst_mapRows (security : List BlocklistEntry) (kind : BlocklistKind)
    (mode : BlocklistMode) : AllowFirst (mapRows security kind mode) := by
  have hallowed : ∀ row ∈ rowsOf security kind .allow, row.mode = .allow := fun row hmem =>
    (mem_rowsOf.mp hmem).2.1
  rw [mapRows, AllowFirst, List.pairwise_append]
  refine ⟨?_, ?_, fun first hfirst _ _ _ => hallowed first hfirst⟩
  · exact List.pairwise_of_forall_mem_list fun first hfirst _ _ _ => hallowed first hfirst
  · refine List.pairwise_of_forall_mem_list fun first hfirst second hsecond hmode => ?_
    rw [(mem_rowsOf.mp hfirst).2.1, ← (mem_rowsOf.mp hsecond).2.1]
    exact hmode

theorem nodup_networks_iff (hmode : mode ≠ .allow) :
    ((mapRows security .ip mode).map networkText).Nodup ↔ SpelledOnce security mode := by
  constructor
  · intro hnodup first second hfirst hsecond hfirstKind hsecondKind hfirstMode hsecondMode htext
    have hsame := List.inj_on_of_nodup_map hnodup
      (mem_mapRows.mpr ⟨hfirstKind, hfirstMode, hfirst⟩)
      (mem_mapRows.mpr ⟨hsecondKind, hsecondMode, hsecond⟩) htext
    rw [hsame]
  · intro honce
    have hrows := List.Nodup.of_map _ (nodup_mapRows security .ip hmode)
    refine List.Nodup.map_on (fun first hfirst second hsecond htext => ?_) hrows
    obtain ⟨hfirstKind, hfirstMode, hfirst⟩ := mem_mapRows.mp hfirst
    obtain ⟨hsecondKind, hsecondMode, hsecond⟩ := mem_mapRows.mp hsecond
    exact hfirst.eq hsecond (hfirstKind.trans hsecondKind.symm) (honce first second hfirst hsecond
      hfirstKind hsecondKind hfirstMode hsecondMode htext)

theorem nodup_patterns (security : List BlocklistEntry) (hmode : mode ≠ .allow) :
    ((mapRows security .ua mode).map fun row => "~*" ++ row.value).Nodup := by
  have hvalues := nodup_mapRows security .ua hmode
  have hinjective : Function.Injective fun value : String => "~*" ++ value := fun first second =>
    (String.append_right_inj "~*").mp
  have hmap : ((mapRows security .ua mode).map fun row => "~*" ++ row.value) =
      ((mapRows security .ua mode).map BlocklistEntry.value).map fun value => "~*" ++ value := by
    rw [List.map_map]
    rfl
  rw [hmap]
  exact hvalues.map hinjective

end Rows

/-! ### Networks -/

theorem masked_masked (width length address : Nat) :
    IpNetwork.masked width length (IpNetwork.masked width length address) =
      IpNetwork.masked width length address := by
  have hpositive : 0 < 2 ^ (width - length) := Nat.two_pow_pos _
  rw [IpNetwork.masked, IpNetwork.masked, Nat.mul_div_cancel _ hpositive]

theorem parseLength_le {width length : Nat} {text : List Char}
    (hparse : IpNetwork.parseLength width text = some length) : length ≤ width := by
  unfold IpNetwork.parseLength at hparse
  split at hparse
  · cases hparse
  · split at hparse
    next hle =>
      cases hparse
      exact hle
    · cases hparse

theorem maskLength_le {mask length : Nat} (hlength : IpNetwork.maskLength mask = some length) :
    length ≤ 32 :=
  Nat.lt_succ_iff.mp (List.mem_range.mp (List.mem_of_find?_eq_some hlength))

theorem normal_ofV4 {address : List Char} {mask : Option (List Char)} {network : IpNetwork}
    (hparse : IpNetwork.ofV4 address mask = some network) : NormalNetwork network := by
  obtain ⟨number, _, hparse⟩ := Option.bind_eq_some_iff.mp hparse
  obtain ⟨length, hlength, rfl⟩ := Option.map_eq_some_iff.mp hparse
  refine ⟨?_, masked_masked _ _ _⟩
  cases mask with
  | none =>
    cases hlength
    exact Nat.le_refl 32
  | some text =>
    rcases (Option.orElse_eq_some _ _ _).mp hlength with hlength | ⟨_, hmask⟩
    · exact parseLength_le hlength
    · obtain ⟨number, _, hmask⟩ := Option.bind_eq_some_iff.mp hmask
      rcases (Option.orElse_eq_some _ _ _).mp hmask with hmask | ⟨_, hmask⟩
      · exact maskLength_le hmask
      · exact maskLength_le hmask

theorem normal_ofV6 {address : List Char} {mask : Option (List Char)} {network : IpNetwork}
    (hparse : IpNetwork.ofV6 address mask = some network) : NormalNetwork network := by
  obtain ⟨⟨number, scope⟩, _, hparse⟩ := Option.bind_eq_some_iff.mp hparse
  obtain ⟨length, hlength, rfl⟩ := Option.map_eq_some_iff.mp hparse
  refine ⟨?_, masked_masked _ _ _⟩
  cases mask with
  | none =>
    cases hlength
    exact Nat.le_refl 128
  | some text => exact parseLength_le hlength

theorem normal_of_parse {text : String} {network : IpNetwork}
    (hparse : IpNetwork.parse text = some network) : NormalNetwork network := by
  unfold IpNetwork.parse at hparse
  split at hparse
  · rcases (Option.orElse_eq_some _ _ _).mp hparse with hparse | ⟨_, hparse⟩
    · exact normal_ofV4 hparse
    · exact normal_ofV6 hparse
  · rcases (Option.orElse_eq_some _ _ _).mp hparse with hparse | ⟨_, hparse⟩
    · exact normal_ofV4 hparse
    · exact normal_ofV6 hparse
  · cases hparse

/-! ### The rendered section -/

section Section

variable {knobs : Knobs} {security : List BlocklistEntry} {mode : BlocklistMode} {name : String}
  {lines : List String}

theorem geoLines_of_mapM {value : BlocklistEntry → String} {rows : List BlocklistEntry}
    {parts : List (List String)} (hok : rows.mapM (geoLine value) = .ok parts) :
    parts.flatten = rows.map (fun row =>
        "    " ++ networkText row ++ (" " ++ value row ++ ";")) ∧
      ∀ row ∈ rows, ∃ network, IpNetwork.parse row.value = some network := by
  induction rows generalizing parts with
  | nil =>
    cases hok
    exact ⟨rfl, fun _ hmem => nomatch hmem⟩
  | cons row rest ih =>
    rw [List.mapM_cons] at hok
    simp only [bind_ok, pure_ok] at hok
    obtain ⟨line, hline, more, hmore, rfl⟩ := hok
    obtain ⟨hflatten, hparsed⟩ := ih hmore
    simp only [geoLine, safeBlocklistIp, bind_ok, pure_ok] at hline
    obtain ⟨network, hnetwork, rfl⟩ := hline
    split at hnetwork
    next parsed hparse =>
      cases hnetwork
      have htext : networkText row = network.text := by
        rw [networkText, hparse]
      rw [List.flatten_cons, List.map_cons, hflatten, htext]
      exact ⟨rfl, List.forall_mem_cons.mpr ⟨⟨network, hparse⟩, hparsed⟩⟩
    · cases hnetwork

theorem uaLines_of_mapM {value : BlocklistEntry → String} {rows : List BlocklistEntry}
    {parts : List (List String)} (hok : rows.mapM (uaLine value) = .ok parts) :
    parts.flatten = rows.map fun row =>
      "    \"~*" ++ row.value ++ ("\" " ++ value row ++ ";") := by
  induction rows generalizing parts with
  | nil =>
    cases hok
    rfl
  | cons row rest ih =>
    rw [List.mapM_cons] at hok
    simp only [bind_ok, pure_ok] at hok
    obtain ⟨line, hline, more, hmore, rfl⟩ := hok
    simp only [uaLine, safeBlocklistUa, bind_ok, check_ok, pure_ok] at hline
    obtain ⟨pattern, ⟨stated, hstated, _, _, rfl⟩, rfl⟩ := hline
    obtain ⟨hrow, _⟩ := safe_ok hstated
    rw [List.flatten_cons, List.map_cons, ih hmore, ← Json.str.inj hrow]
    rfl

theorem map_mapRows (security : List BlocklistEntry) (kind : BlocklistKind)
    (hmode : mode ≠ .allow) (entry : BlocklistEntry → String → String) :
    (rowsOf security kind .allow).map (fun row => entry row "0") ++
        (rowsOf security kind mode).map (fun row => entry row (toString row.id)) =
      (mapRows security kind mode).map fun row => entry row (toString (mapValue row)) := by
  rw [mapRows, List.map_append]
  congr 1
  · refine List.map_congr_left fun row hmem => ?_
    rw [mapValue, if_pos (mem_rowsOf.mp hmem).2.1]
    rfl
  · refine List.map_congr_left fun row hmem => ?_
    have hactive : row.mode ≠ .allow := by
      rw [(mem_rowsOf.mp hmem).2.1]
      exact hmode
    rw [mapValue, if_neg hactive]

theorem geoBlock_lines (hmode : mode ≠ .allow) (hok : geoBlock security name mode = .ok lines) :
    lines = geoLines security name mode ∧
      ∀ row ∈ mapRows security .ip mode, ∃ network, IpNetwork.parse row.value = some network := by
  simp only [geoBlock, bind_ok, pure_ok] at hok
  obtain ⟨allowed, hallowed, active, hactive, rfl⟩ := hok
  obtain ⟨hallowedLines, hallowedParsed⟩ := geoLines_of_mapM hallowed
  obtain ⟨hactiveLines, hactiveParsed⟩ := geoLines_of_mapM hactive
  constructor
  · rw [geoLines, ← map_mapRows security .ip hmode fun row value =>
      "    " ++ networkText row ++ (" " ++ value ++ ";"), hallowedLines, hactiveLines]
    simp only [List.append_assoc]
  · intro row hmem
    rcases List.mem_append.mp hmem with hmem | hmem
    · exact hallowedParsed row hmem
    · exact hactiveParsed row hmem

theorem uaMap_lines (hmode : mode ≠ .allow) (hok : uaMap security name mode = .ok lines) :
    lines = uaLines security name mode := by
  simp only [uaMap, bind_ok, pure_ok] at hok
  obtain ⟨allowed, hallowed, active, hactive, rfl⟩ := hok
  rw [uaLines, ← map_mapRows security .ua hmode fun row value =>
    "    \"~*" ++ row.value ++ ("\" " ++ value ++ ";"), uaLines_of_mapM hallowed,
    uaLines_of_mapM hactive]
  simp only [List.append_assoc]

def sectionLines (knobs : Knobs) (security : List BlocklistEntry) : List String :=
  geoLines security "edge_block_ip" .enforce ++ [""] ++ geoLines security "edge_watch_ip" .log ++
    [""] ++ uaLines security "edge_block_ua" .enforce ++ [""] ++
    uaLines security "edge_watch_ua" .log ++ watchLog ++
    ["access_log " ++ (knobs.logDir.text ++ "/edge_watch.log") ++ " edge_watch if=$edge_watch;"]

theorem mapsHold_of_spelledOnce (hmode : mode ≠ .allow)
    (hparsed : ∀ row ∈ mapRows security .ip mode, ∃ network,
      IpNetwork.parse row.value = some network) :
    MapsHold security mode ↔ SpelledOnce security mode := by
  constructor
  · exact fun hholds => (nodup_networks_iff hmode).mp hholds.networks
  · intro honce
    refine ⟨(nodup_networks_iff hmode).mpr honce, nodup_patterns security hmode, ?_, ?_⟩
    · intro row hmem
      obtain ⟨network, hparse⟩ := hparsed row hmem
      exact ⟨network, hparse, normal_of_parse hparse⟩
    · exact fun kind => allowFirst_mapRows security kind mode

theorem blocksEnforced (security : List BlocklistEntry) : BlocksEnforced security := by
  intro address hvalue
  unfold geoValue at hvalue
  cases hentry : longestEntry (geoEntries security .enforce) address with
  | none =>
    rw [hentry] at hvalue
    exact absurd rfl hvalue
  | some entry =>
    rw [hentry, Option.elim_some] at hvalue
    obtain ⟨hmem, hcontains⟩ := List.mem_filter.mp (List.argmax_mem hentry)
    refine ⟨entry, hmem, ?_, hcontains, fun other hother hinside => ?_⟩
    · obtain ⟨row, hrow, hsome⟩ := List.mem_filterMap.mp hmem
      obtain ⟨network, _, rfl⟩ := Option.map_eq_some_iff.mp hsome
      rcases (mem_mapRows.mp hrow).2.1 with hallow | henforce
      · rw [mapValue, if_pos hallow] at hvalue
        exact absurd rfl hvalue
      · exact henforce
    · have hmem : other ∈ (geoEntries security .enforce).filter fun entry =>
          entry.network.contains address := List.mem_filter.mpr ⟨hother, hinside⟩
      exact List.le_of_mem_argmax (f := fun entry => entry.network.length) hmem hentry

/-- The maps of a section that renders hold exactly when each network is spelled in one way. -/
theorem mapsHold_iff_spelledOnce (knobs : Knobs) {security : List BlocklistEntry}
    {lines : List String} (hok : blocklistSection knobs security = .ok lines) :
    lines = sectionLines knobs security ∧
      ((MapsHold security .enforce ∧ MapsHold security .log ∧ BlocksEnforced security) ↔
        SpelledOnce security .enforce ∧ SpelledOnce security .log) := by
  simp only [blocklistSection, bind_ok, pure_ok] at hok
  obtain ⟨blockIp, hblockIp, watchIp, hwatchIp, blockUa, hblockUa, watchUa, hwatchUa, rfl⟩ := hok
  obtain ⟨hblockLines, hblockParsed⟩ := geoBlock_lines (by decide) hblockIp
  obtain ⟨hwatchLines, hwatchParsed⟩ := geoBlock_lines (by decide) hwatchIp
  have henforce : BlocklistMode.enforce ≠ .allow := by decide
  have hlog : BlocklistMode.log ≠ .allow := by decide
  constructor
  · rw [sectionLines, ← hblockLines, ← hwatchLines, ← uaMap_lines henforce hblockUa,
      ← uaMap_lines hlog hwatchUa]
  · rw [mapsHold_of_spelledOnce henforce hblockParsed, mapsHold_of_spelledOnce hlog hwatchParsed,
      and_iff_left (blocksEnforced security)]

def onceSpelled : List BlocklistEntry := [⟨1, .ip, "10.0.0.0/8", .enforce⟩]

theorem mapsHold_onceSpelled :
    (MapsHold onceSpelled .enforce ∧ MapsHold onceSpelled .log ∧ BlocksEnforced onceSpelled) ↔
      SpelledOnce onceSpelled .enforce ∧ SpelledOnce onceSpelled .log := by
  have hok : blocklistSection plainKnobs onceSpelled =
      .ok (sectionLines plainKnobs onceSpelled) := rfl
  exact (mapsHold_iff_spelledOnce plainKnobs hok).2

/-- Two spellings of one network, the second written around `save`. -/
def twiceSpelled : List BlocklistEntry :=
  [⟨1, .ip, "10.0.0.0/8", .enforce⟩, ⟨2, .ip, "10.0.0.1/8", .enforce⟩]

theorem not_mapsHold_twiceSpelled :
    ¬ ∀ lines, blocklistSection plainKnobs twiceSpelled = .ok lines →
      MapsHold twiceSpelled .enforce := by
  intro hall
  have hholds := hall _ rfl
  have hnetworks := hholds.networks
  revert hnetworks
  decide +kernel

end Section

end DjangoMojo.Edge
