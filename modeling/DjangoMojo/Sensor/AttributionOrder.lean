import DjangoMojo.Sensor.Attribution

/-! # The order of login records does not matter

What a resolver knows of a session, and the row that the store keeps of it, is what all
records of the session say together, whatever their order and whichever of them came in
earlier polls, as long as the row is not dropped for its age or for the number of rows.
-/

namespace DjangoMojo.Sensor

open Foundation

theorem mem_ofKey {key : SessionKey} {sessions : List SshSession} {session : SshSession} :
    session ∈ ofKey key sessions ↔ session ∈ sessions ∧ session.key = key := by
  rw [ofKey, List.mem_filter, decide_eq_true_iff]

theorem ofKey_cons_of_eq {key : SessionKey} {session : SshSession} (hkey : session.key = key)
    (rest : List SshSession) : ofKey key (session :: rest) = session :: ofKey key rest :=
  List.filter_cons_of_pos (by simpa using hkey)

theorem ofKey_cons_of_ne {key : SessionKey} {session : SshSession} (hkey : session.key ≠ key)
    (rest : List SshSession) : ofKey key (session :: rest) = ofKey key rest :=
  List.filter_cons_of_neg (by simpa using hkey)

theorem FoundSession.tombstoned (found : FoundSession) : found.session.Tombstoned :=
  fun hambiguous => nomatch hambiguous

/-! ### The resolver folds the records of each session -/

namespace Resolver

variable {key : SessionKey} {resolver : Resolver}

theorem sessions_addPersisted_of_eq {row : SshSession} (hkey : row.key = key)
    (hboot : key.1 ≠ "") : (resolver.addPersisted row).sessions key =
      some (mergeSession (resolver.sessions key) row) := by
  rw [addPersisted, if_neg (by rw [hkey]; exact hboot), hkey]
  exact Function.update_self ..

theorem sessions_addPersisted_of_ne {row : SshSession} (hkey : row.key ≠ key) :
    (resolver.addPersisted row).sessions key = resolver.sessions key := by
  unfold addPersisted
  split
  · rfl
  · exact Function.update_of_ne (Ne.symm hkey) ..

theorem sessions_overlayOne_of_eq {found : FoundSession} (hkey : found.key = key) :
    (resolver.overlayOne found).sessions key =
      some (mergeSession (resolver.sessions key) found.session) := by
  subst hkey
  exact Function.update_self ..

theorem sessions_overlayOne_of_ne {found : FoundSession} (hkey : found.key ≠ key) :
    (resolver.overlayOne found).sessions key = resolver.sessions key :=
  Function.update_of_ne (Ne.symm hkey) ..

theorem sessions_foldl_addPersisted (hboot : key.1 ≠ "") (rows : List SshSession) :
    (rows.foldl addPersisted resolver).sessions key =
      mergeOnto (resolver.sessions key) (ofKey key rows) := by
  induction rows generalizing resolver with
  | nil => rfl
  | cons row rest ih =>
    rw [List.foldl_cons, ih]
    by_cases hkey : row.key = key
    · rw [ofKey_cons_of_eq hkey, sessions_addPersisted_of_eq hkey hboot, mergeOnto_cons]
    · rw [ofKey_cons_of_ne hkey, sessions_addPersisted_of_ne hkey]

theorem sessions_ofPersisted (hboot : key.1 ≠ "") (rows : List SshSession) :
    (ofPersisted rows).sessions key = mergeOnto none (ofKey key rows) :=
  sessions_foldl_addPersisted hboot rows

theorem sessions_ofPersisted_of_empty (hboot : key.1 = "") (rows : List SshSession) :
    (ofPersisted rows).sessions key = none := by
  have hkept : ∀ resolver : Resolver, resolver.sessions key = none →
      (rows.foldl addPersisted resolver).sessions key = none := by
    induction rows with
    | nil => exact fun _ hnone => hnone
    | cons row rest ih =>
      intro resolver hnone
      refine ih _ ?_
      by_cases hkey : row.key = key
      · rw [addPersisted, if_pos (by rw [hkey]; exact hboot)]
        exact hnone
      · rw [sessions_addPersisted_of_ne hkey]
        exact hnone
  exact hkept _ rfl

theorem newSessions_ofPersisted (rows : List SshSession) : (ofPersisted rows).newSessions = [] := by
  have hkept : ∀ resolver : Resolver,
      (rows.foldl addPersisted resolver).newSessions = resolver.newSessions := by
    induction rows with
    | nil => exact fun _ => rfl
    | cons row rest ih =>
      intro resolver
      rw [List.foldl_cons, ih, addPersisted]
      split <;> rfl
  exact hkept _

theorem sessions_overlay (found : List FoundSession) :
    (resolver.overlay found).sessions key =
      mergeOnto (resolver.sessions key) (ofKey key (found.map FoundSession.session)) := by
  induction found generalizing resolver with
  | nil => rfl
  | cons first rest ih =>
    rw [overlay, List.foldl_cons, ← overlay, ih, List.map_cons]
    by_cases hkey : first.key = key
    · rw [ofKey_cons_of_eq hkey, sessions_overlayOne_of_eq hkey, mergeOnto_cons]
    · rw [ofKey_cons_of_ne hkey, sessions_overlayOne_of_ne hkey]

/-- Each new session is one record merged onto what was known and found before it. -/
theorem mem_newSessions_overlay {found : List FoundSession} {session : SshSession} :
    session ∈ (resolver.overlay found).newSessions ↔
      session ∈ resolver.newSessions ∨ ∃ before last after, found = before ++ last :: after ∧
        session = mergeSession ((resolver.overlay before).sessions last.key) last.session := by
  induction found generalizing resolver with
  | nil =>
    refine ⟨.inl, ?_⟩
    rintro (hold | ⟨before, last, after, hsplit, _⟩)
    · exact hold
    · exact absurd hsplit (by simp)
  | cons first rest ih =>
    rw [overlay, List.foldl_cons, ← overlay, ih]
    have hfirst : session ∈ (resolver.overlayOne first).newSessions ↔
        session ∈ resolver.newSessions ∨
          session = mergeSession (resolver.sessions first.key) first.session := by
      rw [overlayOne, List.mem_append, List.mem_singleton]
    rw [hfirst]
    constructor
    · rintro ((hold | hhere) | ⟨before, last, after, hsplit, hlast⟩)
      · exact .inl hold
      · exact .inr ⟨[], first, rest, rfl, hhere⟩
      · exact .inr ⟨first :: before, last, after, by rw [hsplit, List.cons_append], hlast⟩
    · rintro (hold | ⟨before, last, after, hsplit, hlast⟩)
      · exact .inl (.inl hold)
      · cases before with
        | nil =>
          obtain ⟨rfl, rfl⟩ := List.cons.inj hsplit
          exact .inl (.inr hlast)
        | cons head before =>
          obtain ⟨rfl, rfl⟩ := List.cons.inj hsplit
          exact .inr ⟨before, last, after, rfl, hlast⟩

section Overlaid

variable {rows : List SshSession} {found : List FoundSession} {session : SshSession}

theorem key_sessions_overlay
    (hkept : ∀ known, resolver.sessions key = some known → known.key = key) :
    ∀ known, (resolver.overlay found).sessions key = some known → known.key = key := by
  intro known hknown
  rw [sessions_overlay] at hknown
  exact key_mergeOnto hkept (fun record hmem => (mem_ofKey.mp hmem).2) known hknown

theorem key_sessions_ofPersisted :
    ∀ known, (ofPersisted rows).sessions key = some known → known.key = key := by
  intro known hknown
  by_cases hboot : key.1 = ""
  · rw [sessions_ofPersisted_of_empty hboot] at hknown
    cases hknown
  · rw [sessions_ofPersisted hboot] at hknown
    exact key_mergeOnto_none (fun record hmem => (mem_ofKey.mp hmem).2) known hknown

theorem exists_of_mem_newSessions (hmem : session ∈ ((ofPersisted rows).overlay found).newSessions) :
    ∃ before last after, found = before ++ last :: after ∧ session.key = last.key ∧
      session = mergeSession (((ofPersisted rows).overlay before).sessions last.key)
        last.session := by
  rcases mem_newSessions_overlay.mp hmem with hold | ⟨before, last, after, hsplit, hsession⟩
  · rw [newSessions_ofPersisted] at hold
    cases hold
  · refine ⟨before, last, after, hsplit, ?_, hsession⟩
    rw [hsession]
    exact key_mergeSession_of_known fun known hknown =>
      key_sessions_overlay key_sessions_ofPersisted known hknown

theorem mem_newSessions_of_split (rows : List SshSession) {before after : List FoundSession}
    {last : FoundSession} (hsplit : found = before ++ last :: after) :
    mergeSession (((ofPersisted rows).overlay before).sessions last.key) last.session ∈
      ((ofPersisted rows).overlay found).newSessions :=
  mem_newSessions_overlay.mpr (.inr ⟨before, last, after, hsplit, rfl⟩)

/-- What was known and the new sessions say what was known and the records found say. -/
theorem sup_togetherSay_newSessions :
    knownSays ((ofPersisted rows).sessions key) ⊔
        togetherSay (ofKey key ((ofPersisted rows).overlay found).newSessions) =
      knownSays ((ofPersisted rows).sessions key) ⊔
        togetherSay (ofKey key (found.map FoundSession.session)) := by
  apply le_antisymm
  · refine sup_le le_sup_left (togetherSay_le.mpr ?_)
    intro session hmem
    obtain ⟨hnew, hkey⟩ := mem_ofKey.mp hmem
    obtain ⟨before, last, after, rfl, hlast, rfl⟩ := exists_of_mem_newSessions hnew
    rw [hlast] at hkey
    have hlastMem : last.session ∈
        ofKey key ((before ++ last :: after).map FoundSession.session) :=
      mem_ofKey.mpr ⟨List.mem_map_of_mem (by simp), hkey⟩
    rw [← knownSays_some, knownSays_mergeSession, hkey, sessions_overlay, knownSays_mergeOnto]
    refine sup_le (sup_le le_sup_left (le_sup_of_le_right (togetherSay_le.mpr ?_)))
      (le_sup_of_le_right (reading_le_togetherSay hlastMem))
    intro record hrecord
    obtain ⟨hbefore, hrecordKey⟩ := mem_ofKey.mp hrecord
    refine reading_le_togetherSay (mem_ofKey.mpr ⟨?_, hrecordKey⟩)
    rw [List.map_append]
    exact List.mem_append_left _ hbefore
  · refine sup_le le_sup_left (togetherSay_le.mpr ?_)
    intro record hmem
    obtain ⟨hrecord, hkey⟩ := mem_ofKey.mp hmem
    obtain ⟨last, hlast, rfl⟩ := List.mem_map.mp hrecord
    obtain ⟨before, after, hsplit⟩ := List.append_of_mem hlast
    have hnew := mem_newSessions_of_split rows hsplit
    have hnewKey : (mergeSession (((ofPersisted rows).overlay before).sessions last.key)
        last.session).key = last.key :=
      key_mergeSession_of_known fun known hknown =>
        key_sessions_overlay key_sessions_ofPersisted known hknown
    have hmerged : last.session.reading ≤
        knownSays (some (mergeSession (((ofPersisted rows).overlay before).sessions last.key)
          last.session)) := by
      rw [knownSays_mergeSession]
      exact le_sup_right
    exact le_sup_of_le_right (hmerged.trans
      (reading_le_togetherSay (mem_ofKey.mpr ⟨hnew, hnewKey.trans hkey⟩)))

end Overlaid

end Resolver

/-! ### Records divided among rows -/

/-- The rows that blocks of records leave, each block folded on its own. -/
def rowsOf (blocks : List (List FoundSession)) : List SshSession :=
  blocks.filterMap fun block => mergeOnto none (block.map FoundSession.session)

section Blocks

variable {key : SessionKey} {blocks : List (List FoundSession)}

theorem togetherSay_rowsOf :
    togetherSay (rowsOf blocks) = togetherSay (blocks.flatten.map FoundSession.session) := by
  induction blocks with
  | nil => rfl
  | cons block rest ih =>
    have hblock : knownSays (mergeOnto none (block.map FoundSession.session)) =
        togetherSay (block.map FoundSession.session) := knownSays_mergeOnto_none
    rw [List.flatten_cons, List.map_append, ← Multiset.coe_add, togetherSay_add, ← ih, ← hblock,
      rowsOf, List.filterMap_cons]
    cases mergeOnto none (block.map FoundSession.session) with
    | none => exact (bot_sup_eq _).symm
    | some row => exact togetherSay_cons row (rowsOf rest)

theorem ofKey_rowsOf (hkey : ∀ record ∈ blocks.flatten, record.key = key) :
    ofKey key (rowsOf blocks) = rowsOf blocks := by
  refine List.filter_eq_self.mpr ?_
  intro row hrow
  obtain ⟨block, hblock, hmerged⟩ := List.mem_filterMap.mp hrow
  rw [decide_eq_true_iff]
  refine key_mergeOnto_none ?_ row hmerged
  intro record hrecord
  obtain ⟨found, hfound, rfl⟩ := List.mem_map.mp hrecord
  exact hkey found (List.mem_flatten.mpr ⟨block, hblock, hfound⟩)

theorem tombstoned_rowsOf : ∀ row ∈ rowsOf blocks, row.Tombstoned := by
  intro row hrow
  obtain ⟨block, _, hmerged⟩ := List.mem_filterMap.mp hrow
  refine tombstoned_mergeOnto_none ?_ row hmerged
  intro record hrecord
  obtain ⟨found, _, rfl⟩ := List.mem_map.mp hrecord
  exact found.tombstoned

/-- What the resolver knows of a session is what the records behind the rows and the new
records say together. -/
theorem knownSays_resolver (hboot : key.1 ≠ "")
    (hkey : ∀ record ∈ blocks.flatten, record.key = key) (found : List FoundSession) :
    knownSays (((Resolver.ofPersisted (rowsOf blocks)).overlay found).sessions key) =
      togetherSay (blocks.flatten.map FoundSession.session) ⊔
        togetherSay (ofKey key (found.map FoundSession.session)) := by
  rw [Resolver.sessions_overlay, knownSays_mergeOnto, Resolver.sessions_ofPersisted hboot,
    ofKey_rowsOf hkey, knownSays_mergeOnto_none, togetherSay_rowsOf]

theorem tombstoned_resolver (hboot : key.1 ≠ "") (found : List FoundSession) :
    ∀ session ∈ ((Resolver.ofPersisted (rowsOf blocks)).overlay found).sessions key,
      session.Tombstoned := by
  rw [Resolver.sessions_overlay, Resolver.sessions_ofPersisted hboot]
  refine tombstoned_mergeOnto (tombstoned_mergeOnto_none ?_) ?_
  · exact fun row hrow => tombstoned_rowsOf row (mem_ofKey.mp hrow).1
  · intro _ record hrecord
    obtain ⟨found, _, rfl⟩ := List.mem_map.mp (mem_ofKey.mp hrecord).1
    exact found.tombstoned

/-- The fold over records in any order has the verdict of what they say together. -/
theorem map_verdict_mergeOnto_found (records : List FoundSession) :
    (mergeOnto none (records.map FoundSession.session)).map SshSession.verdict =
      (togetherSay (records.map FoundSession.session)).verdict := by
  rw [map_verdict_of_tombstoned, knownSays_mergeOnto_none]
  refine tombstoned_mergeOnto_none ?_
  intro record hrecord
  obtain ⟨found, _, rfl⟩ := List.mem_map.mp hrecord
  exact found.tombstoned

end Blocks

/-! ### What a resolved source rests on -/

theorem Resolver.resolveByWho_ne_auditSession {actor tty : String} {observed : Option Time}
    {allowWho : Bool} {whoSessions : List WhoSession} :
    (resolveByWho actor tty observed allowWho whoSessions).2 ≠ .auditSession := by
  unfold resolveByWho
  cases observed with
  | none => exact fun heq => nomatch heq
  | some observed =>
    simp only
    split
    · exact fun heq => nomatch heq
    · split
      · exact fun heq => nomatch heq
      · exact fun heq => nomatch heq

/-- A source that comes from an audit session is that of a session of the actor, which is
not ambiguous. -/
theorem Resolver.reading_of_resolve {tables : TextTables} {resolver : Resolver}
    {context after : AuditContext} {observed : Option Time} {actor tty sourceIp : String}
    {allowWho : Bool} {whoSessions : List WhoSession}
    (hresolve : resolver.resolve tables context observed actor tty allowWho whoSessions =
      (sourceIp, .auditSession, after)) :
    ∃ session, context.auditSession = some session ∧ context.bootId ≠ "" ∧
      ∃ sessionTty, knownSays (resolver.sessions (context.bootId, session)) =
        .agreed (canonicalUser actor) sourceIp sessionTty := by
  unfold Resolver.resolve at hresolve
  by_cases hboot : context.bootId = ""
  · simp only [hboot, if_true] at hresolve
    exact absurd (congrArg (fun answer => answer.2.1) hresolve) resolveByWho_ne_auditSession
  cases hsession : context.auditSession with
  | none =>
    simp only [hboot, hsession, if_false, Option.bind_none] at hresolve
    exact absurd (congrArg (fun answer => answer.2.1) hresolve) resolveByWho_ne_auditSession
  | some session =>
    simp only [hboot, hsession, if_false, Option.bind_some] at hresolve
    refine ⟨session, rfl, hboot, ?_⟩
    cases hknown : resolver.sessions (context.bootId, session) with
    | none =>
      simp only [hknown] at hresolve
      exact absurd (congrArg (fun answer => answer.2.1) hresolve) resolveByWho_ne_auditSession
    | some known =>
      simp only [hknown] at hresolve
      split at hresolve
      next hmatches =>
        simp only [Bool.and_eq_true, Bool.not_eq_true', decide_eq_true_iff] at hmatches
        cases hresolve
        refine ⟨known.tty, ?_⟩
        rw [knownSays_some, SshSession.reading, hmatches.1.1, hmatches.1.2]
        rfl
      · cases hresolve

end DjangoMojo.Sensor
