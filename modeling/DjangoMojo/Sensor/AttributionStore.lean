import DjangoMojo.Sensor.AttributionOrder

/-! # Login sessions kept by the store

The store folds the merged sessions of a poll onto its rows once more. Merging a session
again changes nothing of what it says, so that the row of a session says what all its
recorded records say together, in every run in which the row is not dropped.
-/

namespace DjangoMojo.Sensor

open Foundation

namespace OriginStore

variable {store next : OriginStore} {key : SessionKey} {now : Time}

def sessionOf (store : OriginStore) (key : SessionKey) : Option SshSession :=
  (store.sshSessions.get key).map SshRow.session

def SessionsKeyed (store : OriginStore) : Prop :=
  ∀ key session, store.sessionOf key = some session → session.key = key

/-! ### One call of `_record_ssh_sessions` -/

theorem sessionOf_recordSshSession (store : OriginStore) (incoming : SshSession)
    (hrecent : now - seconds sshSessionTtlSeconds ≤ incoming.observedAt) :
    (store.recordSshSession now incoming).sessionOf key =
      if key = incoming.key then
        some (mergeSession (store.sessionOf incoming.key) incoming)
      else store.sessionOf key := by
  rw [recordSshSession, if_neg (not_lt.mpr hrecent)]
  change ((store.sshSessions.put incoming.key _).get key).map SshRow.session = _
  rw [Table.get_put]
  split <;> rfl

theorem sessionOf_recordSshSession_of_ne {incoming : SshSession} (hkey : incoming.key ≠ key) :
    (store.recordSshSession now incoming).sessionOf key = store.sessionOf key := by
  by_cases hrecent : now - seconds sshSessionTtlSeconds ≤ incoming.observedAt
  · rw [sessionOf_recordSshSession store incoming hrecent, if_neg (Ne.symm hkey)]
  · rw [recordSshSession, if_pos (not_le.mp hrecent)]

theorem sessionOf_foldl_recordSshSession {sessions : List SshSession}
    (hrecent : ∀ session ∈ ofKey key sessions,
      now - seconds sshSessionTtlSeconds ≤ session.observedAt) :
    (sessions.foldl (recordSshSession now) store).sessionOf key =
      mergeOnto (store.sessionOf key) (ofKey key sessions) := by
  induction sessions generalizing store with
  | nil => rfl
  | cons first rest ih =>
    rw [List.foldl_cons]
    by_cases hkey : first.key = key
    · rw [ofKey_cons_of_eq hkey] at hrecent ⊢
      obtain ⟨hfirst, hrest⟩ := List.forall_mem_cons.mp hrecent
      rw [ih hrest, sessionOf_recordSshSession store first hfirst, if_pos hkey.symm, hkey,
        mergeOnto_cons]
    · rw [ofKey_cons_of_ne hkey] at hrecent ⊢
      rw [ih hrecent, sessionOf_recordSshSession_of_ne hkey]

theorem sessionOf_dropOldSshSessions
    (hrecent : ∀ session, store.sessionOf key = some session →
      now - seconds sshSessionTtlSeconds ≤ session.observedAt) :
    (store.dropOldSshSessions now).sessionOf key = store.sessionOf key := by
  have hkept : key ∉ expiredBefore store.sshSessions (fun row => row.session.observedAt)
      (now - seconds sshSessionTtlSeconds) := by
    intro hmem
    obtain ⟨row, hrow, hold⟩ := Table.mem_select.mp hmem
    have hsession : store.sessionOf key = some row.session := by rw [sessionOf, hrow]; rfl
    exact absurd (of_decide_eq_true hold) (not_lt.mpr (hrecent _ hsession))
  exact congrArg (Option.map SshRow.session) (Table.get_deleteKeys_of_not_mem hkept)

theorem sessionOf_of_deleteKeys {other : OriginStore} {keys : List SessionKey}
    (hrows : other.sshSessions = store.sshSessions.deleteKeys keys) {session : SshSession}
    (hsession : other.sessionOf key = some session) : store.sessionOf key = some session := by
  obtain ⟨row, hrow, rfl⟩ := Option.map_eq_some_iff.mp hsession
  rw [hrows] at hrow
  rw [sessionOf, Table.get_of_get_deleteKeys hrow]
  rfl

theorem SessionsKeyed.recordSshSessions (hkeyed : store.SessionsKeyed)
    (sessions : List SshSession) : (store.recordSshSessions now sessions).SessionsKeyed := by
  have hfold : ∀ before : OriginStore, before.SessionsKeyed →
      (sessions.foldl (recordSshSession now) before).SessionsKeyed := by
    induction sessions with
    | nil => exact fun _ hbefore => hbefore
    | cons first rest ih =>
      intro before hbefore
      refine ih _ ?_
      intro key session hsession
      by_cases hkey : first.key = key
      · by_cases hrecent : now - seconds sshSessionTtlSeconds ≤ first.observedAt
        · rw [sessionOf_recordSshSession before first hrecent, if_pos hkey.symm] at hsession
          cases hsession
          exact (key_mergeSession_of_known (hbefore first.key)).trans hkey
        · rw [recordSshSession, if_pos (not_le.mp hrecent)] at hsession
          exact hbefore key session hsession
      · rw [sessionOf_recordSshSession_of_ne hkey] at hsession
        exact hbefore key session hsession
  have hdropped : (store.dropOldSshSessions now).SessionsKeyed :=
    fun key session hsession => hkeyed key session (sessionOf_of_deleteKeys rfl hsession)
  exact fun key session hsession =>
    hfold _ hdropped key session (sessionOf_of_deleteKeys rfl hsession)

/-! ### A call of `ingest` -/

def SameSessions (store next : OriginStore) : Prop := next.sshSessions = store.sshSessions

theorem sshSessions_recordCrondLaunches (store : OriginStore) (launches : List CrondLaunch) :
    (store.recordCrondLaunches now launches).sshSessions = store.sshSessions := by
  have hfold : ∀ before : OriginStore,
      (launches.foldl (recordCrondLaunch now) before).sshSessions = before.sshSessions := by
    induction launches with
    | nil => exact fun _ => rfl
    | cons first rest ih => exact fun before => ih _
  exact hfold _

theorem sshSessions_recordJobmanOrigin {origins : SessionKey → Option OriginRow} {anchor : Anchor}
    (hnext : recordJobmanOrigin now origins store anchor = some next) :
    SameSessions store next := by
  unfold recordJobmanOrigin at hnext
  repeat' split at hnext
  all_goals first
    | cases hnext; rfl
    | cases hnext

theorem sshSessions_recordJobmanOrigins {anchors : List Anchor}
    (hnext : store.recordJobmanOrigins now anchors = some next) :
    SameSessions store next := by
  refine run_relates ?_ ?_ ?_ hnext
  · exact fun _ => rfl
  · exact fun hfirst hsecond => Eq.trans hsecond hfirst
  · exact fun _ _ _ hstep => sshSessions_recordJobmanOrigin hstep

theorem sshSessions_recordLocalOrigins (store : OriginStore) (observations : List Observation) :
    (observations.foldl (recordLocalOrigin now) store).sshSessions = store.sshSessions := by
  induction observations generalizing store with
  | nil => rfl
  | cons first rest ih =>
    rw [List.foldl_cons, ih]
    unfold recordLocalOrigin
    split
    · rfl
    · split <;> rfl

theorem sshSessions_ingest {call : OriginCall} {sessions : List SshSession}
    (hsessions : call.sshSessions = some sessions) (hnext : store.ingest call = some next) :
    next.sshSessions = (store.recordSshSessions call.now sessions).sshSessions := by
  unfold ingest at hnext
  rw [hsessions] at hnext
  obtain ⟨claimed, hclaimed, hrest⟩ := Option.bind_eq_some_iff.mp hnext
  cases hrest
  change (call.observations.foldl (recordLocalOrigin call.now) claimed).sshSessions = _
  exact (sshSessions_recordLocalOrigins _ _).trans
    ((sshSessions_recordJobmanOrigins hclaimed).trans (sshSessions_recordCrondLaunches _ _))

/-! ### Sessions that a poll loads -/

theorem sessionOf_of_mem_load (hkeyed : store.SessionsKeyed) {loadedAt : Time}
    {session : SshSession} (hmem : session ∈ ofKey key (store.loadSshSessions loadedAt)) :
    store.sessionOf key = some session := by
  obtain ⟨hloaded, hkey⟩ := mem_ofKey.mp hmem
  obtain ⟨other, _, hother⟩ := List.mem_filterMap.mp hloaded
  have hown : store.sessionOf other = some session := hother
  rw [← hkeyed other session hown, hkey] at hown
  exact hown

theorem knownSays_load_le (key : SessionKey) (hkeyed : store.SessionsKeyed) (loadedAt : Time) :
    knownSays ((Resolver.ofPersisted (store.loadSshSessions loadedAt)).sessions key) ≤
      knownSays (store.sessionOf key) := by
  by_cases hboot : key.1 = ""
  · rw [Resolver.sessions_ofPersisted_of_empty hboot]
    exact bot_le
  · rw [Resolver.sessions_ofPersisted hboot, knownSays_mergeOnto_none]
    refine togetherSay_le.mpr fun session hmem => ?_
    rw [sessionOf_of_mem_load hkeyed hmem, knownSays_some]

def Loads (store : OriginStore) (key : SessionKey) (loadedAt : Time) : Prop :=
  ∀ session, store.sessionOf key = some session → session ∈ store.loadSshSessions loadedAt

theorem knownSays_load (hkeyed : store.SessionsKeyed) (hboot : key.1 ≠ "") {loadedAt : Time}
    (hloads : store.Loads key loadedAt) :
    knownSays ((Resolver.ofPersisted (store.loadSshSessions loadedAt)).sessions key) =
      knownSays (store.sessionOf key) := by
  refine le_antisymm (knownSays_load_le key hkeyed loadedAt) ?_
  rw [Resolver.sessions_ofPersisted hboot, knownSays_mergeOnto_none]
  cases hsession : store.sessionOf key with
  | none => exact bot_le
  | some session =>
    exact reading_le_togetherSay
      (mem_ofKey.mpr ⟨hloads session hsession, hkeyed key session hsession⟩)

/-- What the store keeps of a session is what the records say together. -/
structure Stands (store : OriginStore) (key : SessionKey) (records : List SshSession) : Prop where
  tombstoned : ∀ session, store.sessionOf key = some session → session.Tombstoned
  reading : knownSays (store.sessionOf key) = togetherSay records

theorem Stands.verdict {records : List SshSession} (hstands : store.Stands key records) :
    (store.sessionOf key).map SshSession.verdict = (togetherSay records).verdict := by
  rw [map_verdict_of_tombstoned hstands.tombstoned, hstands.reading]

end OriginStore

/-! ### Runs in which a session is kept -/

namespace JournalPoll

variable {poll : JournalPoll} {store next : OriginStore} {key : SessionKey}

/-- What the store keeps and what the poll finds of the session are recent enough when the
poll is recorded, and its row is there afterwards. -/
def Keeps (poll : JournalPoll) (key : SessionKey) (store : OriginStore) : Prop :=
  ∀ next, poll.ingested store = some next →
    (∀ session, store.sessionOf key = some session →
      poll.call.now - seconds sshSessionTtlSeconds ≤ session.observedAt) ∧
    (∀ session ∈ poll.sessionsOf key,
      poll.call.now - seconds sshSessionTtlSeconds ≤ session.observedAt) ∧
    ((store.sessionOf key).isSome ∨ poll.sessionsOf key ≠ [] → (next.sessionOf key).isSome)

theorem sshSessions_ingested (hnext : poll.ingested store = some next) :
    next.sshSessions =
      (store.recordSshSessions poll.call.now (poll.resolver store).newSessions).sshSessions := by
  unfold ingested at hnext
  split at hnext
  · exact (OriginStore.sshSessions_ingest rfl hnext :)
  · cases hnext

theorem sessionsKeyed_step (hkeyed : store.SessionsKeyed) : (poll.step store).SessionsKeyed := by
  unfold step
  cases hnext : poll.ingested store with
  | none => exact hkeyed
  | some next =>
    intro key session hsession
    rw [Option.getD_some, OriginStore.sessionOf, sshSessions_ingested hnext] at hsession
    exact hkeyed.recordSshSessions _ key session hsession

theorem recent_newSessions {cutoff : Time}
    (hrecent : ∀ session ∈ poll.sessionsOf key, cutoff ≤ session.observedAt) :
    ∀ session ∈ ofKey key (poll.resolver store).newSessions, cutoff ≤ session.observedAt := by
  intro session hmem
  obtain ⟨hnew, hkey⟩ := mem_ofKey.mp hmem
  obtain ⟨before, last, after, hsplit, hlast, rfl⟩ := Resolver.exists_of_mem_newSessions hnew
  refine (hrecent last.session (mem_ofKey.mpr ⟨?_, hlast.symm.trans hkey⟩)).trans
    (observedAt_le_mergeSession _ _)
  rw [hsplit]
  exact List.mem_map_of_mem (by simp)

theorem newSessions_eq_nil (hnone : poll.sessionsOf key = []) :
    ofKey key (poll.resolver store).newSessions = [] := by
  refine List.eq_nil_iff_forall_not_mem.mpr fun session hmem => ?_
  obtain ⟨hnew, hkey⟩ := mem_ofKey.mp hmem
  obtain ⟨before, last, after, hsplit, hlast, _⟩ := Resolver.exists_of_mem_newSessions hnew
  have hmem : last.session ∈ poll.sessionsOf key := by
    refine mem_ofKey.mpr ⟨?_, hlast.symm.trans hkey⟩
    rw [hsplit]
    exact List.mem_map_of_mem (by simp)
  rw [hnone] at hmem
  cases hmem

theorem sessionOf_ingested (hkeeps : poll.Keeps key store)
    (hnext : poll.ingested store = some next) :
    next.sessionOf key =
      mergeOnto (store.sessionOf key) (ofKey key (poll.resolver store).newSessions) := by
  obtain ⟨hrow, hfound, hthere⟩ := hkeeps next hnext
  have hfold : ((poll.resolver store).newSessions.foldl
      (OriginStore.recordSshSession poll.call.now)
        (store.dropOldSshSessions poll.call.now)).sessionOf key =
      mergeOnto (store.sessionOf key) (ofKey key (poll.resolver store).newSessions) := by
    rw [OriginStore.sessionOf_foldl_recordSshSession (recent_newSessions hfound),
      OriginStore.sessionOf_dropOldSshSessions hrow]
  rw [← hfold]
  cases hafter : next.sessionOf key with
  | some session =>
    exact (OriginStore.sessionOf_of_deleteKeys (sshSessions_ingested hnext) hafter).symm
  | none =>
    obtain ⟨hno, hnothing⟩ := not_or.mp fun hsome => by
      have hthere := hthere hsome
      rw [hafter] at hthere
      cases hthere
    rw [hfold, newSessions_eq_nil (not_not.mp hnothing), mergeOnto_nil]
    exact (Option.not_isSome_iff_eq_none.mp hno).symm

theorem stands_of_ingested {records : List SshSession} (hkeyed : store.SessionsKeyed)
    (hstands : store.Stands key records) (hkeeps : poll.Keeps key store)
    (hnext : poll.ingested store = some next) :
    next.Stands key (records ++ poll.sessionsOf key) := by
  have hsession := sessionOf_ingested hkeeps hnext
  refine ⟨?_, ?_⟩
  · rw [hsession]
    refine tombstoned_mergeOnto hstands.tombstoned fun _ session hmem => ?_
    obtain ⟨_, last, _, _, _, rfl⟩ := Resolver.exists_of_mem_newSessions (mem_ofKey.mp hmem).1
    exact tombstoned_mergeSession_of_incoming _ last.tombstoned
  · have hknown := OriginStore.knownSays_load_le key hkeyed poll.loadedAt
    rw [hsession, knownSays_mergeOnto, ← sup_eq_left.mpr hknown, sup_assoc, resolver,
      Resolver.sup_togetherSay_newSessions, ← sup_assoc, sup_eq_left.mpr hknown, hstands.reading,
      ← Multiset.coe_add, togetherSay_add]
    rfl

end JournalPoll

def KeptThroughout (key : SessionKey) : OriginStore → List JournalPoll → Prop
  | _, [] => True
  | store, poll :: rest => poll.Keeps key store ∧ KeptThroughout key (poll.step store) rest

theorem OriginStore.SessionsKeyed.pollJournal {store : OriginStore} (hkeyed : store.SessionsKeyed)
    (polls : List JournalPoll) : (pollJournal store polls).SessionsKeyed := by
  induction polls generalizing store with
  | nil => exact hkeyed
  | cons poll rest ih => exact ih (JournalPoll.sessionsKeyed_step hkeyed)

theorem OriginStore.Stands.pollJournal {key : SessionKey} {polls : List JournalPoll}
    {store : OriginStore} {records : List SshSession} (hkeyed : store.SessionsKeyed)
    (hstands : store.Stands key records) (hkept : KeptThroughout key store polls) :
    (pollJournal store polls).Stands key (records ++ recordedSessions key store polls) := by
  induction polls generalizing store records with
  | nil =>
    rw [recordedSessions, List.append_nil]
    exact hstands
  | cons poll rest ih =>
    obtain ⟨hkeeps, hrest⟩ := hkept
    have hstep : (poll.step store).Stands key (records ++
        if (poll.ingested store).isSome then poll.sessionsOf key else []) := by
      unfold JournalPoll.step
      cases hnext : poll.ingested store with
      | none =>
        rw [Option.isSome_none, if_neg Bool.false_ne_true, List.append_nil]
        exact hstands
      | some next =>
        exact JournalPoll.stands_of_ingested hkeyed hstands hkeeps hnext
    have hall := ih (JournalPoll.sessionsKeyed_step hkeyed) hstep hrest
    rw [List.append_assoc] at hall
    exact hall

theorem tombstoned_recordedSessions {key : SessionKey} {store : OriginStore}
    {polls : List JournalPoll} :
    ∀ record ∈ recordedSessions key store polls, record.Tombstoned := by
  induction polls generalizing store with
  | nil => exact fun record hmem => nomatch hmem
  | cons poll rest ih =>
    intro record hmem
    rw [recordedSessions] at hmem
    rcases List.mem_append.mp hmem with hhere | hlater
    · split at hhere
      · obtain ⟨found, _, rfl⟩ := List.mem_map.mp (mem_ofKey.mp hhere).1
        exact found.tombstoned
      · cases hhere
    · exact ih record hlater

/-! ### Attribution -/

/-- A poll that loads what is kept of a session knows what the records of the row and its own
say together. -/
theorem JournalPoll.knownSays_resolver_of_loads {store : OriginStore} {key : SessionKey}
    {records : List SshSession} (poll : JournalPoll) (hkeyed : store.SessionsKeyed)
    (hboot : key.1 ≠ "") (hloads : store.Loads key poll.loadedAt)
    (hstands : store.Stands key records) :
    knownSays ((poll.resolver store).sessions key) =
      togetherSay ((records ++ poll.sessionsOf key : List SshSession)) := by
  rw [JournalPoll.resolver, Resolver.sessions_overlay, knownSays_mergeOnto,
    OriginStore.knownSays_load hkeyed hboot hloads, hstands.reading, ← Multiset.coe_add,
    togetherSay_add]
  rfl

/-- All records are of the actor and from the source, and have no terminal but one. -/
def AllAgree (records : List SshSession) (actor sourceIp : String) : Prop :=
  (∀ record ∈ records, record.actor = actor ∧ record.sourceIp = sourceIp) ∧
    ∀ first ∈ records, ∀ second ∈ records, first.tty ≠ "" → second.tty ≠ "" →
      first.tty = second.tty

theorem allAgree_of_togetherSay {records : List SshSession} {actor sourceIp tty : String}
    (hsay : togetherSay records = .agreed actor sourceIp tty) :
    AllAgree records actor sourceIp := by
  refine ⟨?_, ?_⟩
  · intro record hmem
    obtain ⟨hactor, hip, _⟩ := agree_of_togetherSay hsay hmem
    exact ⟨hactor, hip⟩
  · intro first hfirst second hsecond hfirstTty hsecondTty
    have hone := (agree_of_togetherSay hsay hfirst).2.2.resolve_left hfirstTty
    have htwo := (agree_of_togetherSay hsay hsecond).2.2.resolve_left hsecondTty
    exact hone.trans htwo.symm

/-- The verdict on a session depends neither on the order of its records nor on how they are
divided between rows and new records, at the resolver as at the store, and a source is
attributed to the session only when all of them agree. -/
theorem attribution_orderFree (tables : TextTables) (key : SessionKey) :
    (∀ records others : List SshSession, records.Perm others →
      (mergeOnto none records).map SshSession.verdict =
        (mergeOnto none others).map SshSession.verdict) ∧
    (∀ (blocks : List (List FoundSession)) (found records : List FoundSession), key.1 ≠ "" →
      (∀ record ∈ records, record.key = key) → records.Perm (blocks.flatten ++ found) →
      let resolver := (Resolver.ofPersisted (rowsOf blocks)).overlay found
      (resolver.sessions key).map SshSession.verdict =
          (mergeOnto none (records.map FoundSession.session)).map SshSession.verdict ∧
        ∀ tty observed actor commandTty allowWho whoSessions sourceIp context,
          resolver.resolve tables ⟨key.1, some key.2, tty⟩ observed actor commandTty allowWho
              whoSessions = (sourceIp, .auditSession, context) →
            AllAgree (records.map FoundSession.session) (canonicalUser actor) sourceIp) ∧
    ∀ polls, KeptThroughout key {} polls →
      let store := pollJournal {} polls
      (∀ records, records.Perm (recordedSessions key {} polls) →
        (store.sessionOf key).map SshSession.verdict =
          (mergeOnto none records).map SshSession.verdict) ∧
      ∀ poll : JournalPoll, store.Loads key poll.loadedAt →
        ∀ tty observed actor commandTty allowWho whoSessions sourceIp context,
          (poll.resolver store).resolve tables ⟨key.1, some key.2, tty⟩ observed actor commandTty
              allowWho whoSessions = (sourceIp, .auditSession, context) →
            AllAgree (recordedSessions key {} polls ++ poll.sessionsOf key)
              (canonicalUser actor) sourceIp := by
  refine ⟨fun records others hperm => map_verdict_mergeOnto_of_perm hperm, ?_, ?_⟩
  · intro blocks found records hboot hkey hperm
    have hall : ∀ record ∈ blocks.flatten ++ found, record.key = key :=
      fun record hmem => hkey record (hperm.mem_iff.mpr hmem)
    obtain ⟨hblocks, hfound⟩ := List.forall_mem_append.mp hall
    have hown : ofKey key (found.map FoundSession.session) = found.map FoundSession.session := by
      refine List.filter_eq_self.mpr fun session hmem => ?_
      obtain ⟨record, hrecord, rfl⟩ := List.mem_map.mp hmem
      exact decide_eq_true (hfound record hrecord)
    have hknown := knownSays_resolver hboot hblocks found
    rw [hown, ← togetherSay_add, Multiset.coe_add, ← List.map_append,
      ← Multiset.coe_eq_coe.mpr (hperm.map FoundSession.session)] at hknown
    refine ⟨?_, ?_⟩
    · rw [map_verdict_of_tombstoned (tombstoned_resolver hboot found), hknown,
        map_verdict_mergeOnto_found]
    · intro tty observed actor commandTty allowWho whoSessions sourceIp context hresolve
      obtain ⟨session, hsession, _, sessionTty, hagreed⟩ := Resolver.reading_of_resolve hresolve
      cases hsession
      exact allAgree_of_togetherSay (hknown.symm.trans hagreed)
  · intro polls hkept
    have hkeyed : OriginStore.SessionsKeyed {} := fun key session hnone => nomatch hnone
    have hempty : OriginStore.Stands {} key [] := ⟨fun session hnone => (nomatch hnone), rfl⟩
    have hstands := hempty.pollJournal hkeyed hkept
    rw [List.nil_append] at hstands
    refine ⟨?_, ?_⟩
    · intro records hperm
      rw [hstands.verdict, map_verdict_mergeOnto_of_perm hperm, map_verdict_of_tombstoned
        (tombstoned_mergeOnto_none tombstoned_recordedSessions), knownSays_mergeOnto_none]
    · intro poll hloads tty observed actor commandTty allowWho whoSessions sourceIp context hresolve
      obtain ⟨session, hsession, hboot, sessionTty, hagreed⟩ :=
        Resolver.reading_of_resolve hresolve
      cases hsession
      have hknown := poll.knownSays_resolver_of_loads (hkeyed.pollJournal polls) hboot hloads hstands
      exact allAgree_of_togetherSay (hknown.symm.trans hagreed)

end DjangoMojo.Sensor
