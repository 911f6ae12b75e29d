import DjangoMojo.Sensor.Origins

/-! # Ambiguity of origins

Three of the four writers leave an ambiguous row ambiguous and mark one that another
kind claimed before. A session of SSH takes the row over as if it were its own: the
ambiguity lasts in every run in which it finds no row that is ambiguous or of another
kind, or is ambiguous itself.
-/

namespace DjangoMojo.Sensor

open Foundation

/-- A row that was ambiguous or that two kinds have claimed is ambiguous. -/
def OriginRow.Sticky (row : OriginRow) : Prop :=
  (row.wasAmbiguous = true ∨ ∃ first ∈ row.claims, ∃ second ∈ row.claims, first ≠ second) →
    row.ambiguous = true

def StickyOrigins (store : OriginStore) : Prop :=
  store.originSessions.All OriginRow.Sticky

/-- The session finds no row of another kind and no ambiguous one, unless it is ambiguous
once it is merged, or too old to be recorded. -/
def SparesOrigin (now : Time) (store : OriginStore) (incoming : SshSession) : Prop :=
  incoming.observedAt < now - seconds sshSessionTtlSeconds ∨
    (mergeSession ((store.sshSessions.get incoming.key).map SshRow.session)
      incoming).ambiguous = true ∨
    ∀ row, store.originSessions.get incoming.key = some row →
      row.ambiguous = false ∧ row.originKind = .ssh

/-- Every session of SSH that a committed ingestion records spares the origins it finds. -/
def SparesOrigins (store : OriginStore) (action : OriginAction) : Prop :=
  action.commits = true → ∀ sessions, action.call.sshSessions = some sessions →
    EachStep (fun store session => some (store.recordSshSession action.call.now session))
      (fun before session _ => SparesOrigin action.call.now before session)
      (store.dropOldSshSessions action.call.now) sessions

/-! ### What every writer preserves -/

/-- A row is ambiguous, or never was and is claimed by its own kind only. -/
def OriginRow.Sound (row : OriginRow) : Prop :=
  row.ambiguous = true ∨ row.wasAmbiguous = false ∧ ∀ kind ∈ row.claims, kind = row.originKind

def OriginStore.Sound (store : OriginStore) : Prop := store.originSessions.All OriginRow.Sound

namespace OriginRow

variable {row : OriginRow}

theorem Sound.sticky (hrow : row.Sound) : row.Sticky := by
  intro htainted
  rcases hrow with hambiguous | ⟨hnever, hclaims⟩
  · exact hambiguous
  · rcases htainted with hwas | ⟨first, hfirst, second, hsecond, hdiffer⟩
    · rw [hnever] at hwas
      cases hwas
    · exact absurd ((hclaims first hfirst).trans (hclaims second hsecond).symm) hdiffer

theorem sound_contested (now : Time) (claims : List OriginKind) (row : OriginRow) :
    (row.contested now claims).Sound := .inl rfl

theorem Sound.anchored {anchor : Anchor} {now : Time} (hrow : row.Sound)
    (hkind : row.originKind = .cronJobman) : (row.anchored anchor now).Sound := by
  rcases hrow with hambiguous | ⟨hnever, hclaims⟩
  · exact .inl hambiguous
  · refine .inr ⟨hnever, ?_⟩
    intro kind hclaimed
    rcases List.mem_cons.mp hclaimed with rfl | hold
    · exact hkind.symm
    · exact hclaims kind hold

theorem Sound.claimedByUser {actor : String} {now : Time} (hrow : row.Sound) :
    (row.claimedByUser actor now).Sound := by
  unfold OriginRow.claimedByUser
  split
  · exact sound_contested _ _ _
  next hown =>
    have hkind : row.originKind = .localSystemdUser := by
      by_contra hother
      exact hown (by simp [hother])
    rcases hrow with hambiguous | ⟨hnever, hclaims⟩
    · exact .inl hambiguous
    · refine .inr ⟨hnever, ?_⟩
      intro kind hclaimed
      rcases List.mem_cons.mp hclaimed with rfl | hold
      · exact hkind.symm
      · exact hclaims kind hold

theorem sound_claimedBySsh {old : Option OriginRow} {session : SshSession} {now : Time}
    (hold : ∀ row, old = some row → row.Sound)
    (hspares : session.ambiguous = true ∨
      ∀ row, old = some row → row.ambiguous = false ∧ row.originKind = .ssh) :
    (claimedBySsh old session now).Sound := by
  by_cases hambiguous : session.ambiguous = true
  · exact .inl hambiguous
  right
  have hspared := hspares.resolve_left hambiguous
  simp only [Bool.not_eq_true] at hambiguous
  cases old with
  | none =>
    refine ⟨?_, ?_⟩
    · simp [claimedBySsh, hambiguous]
    · intro kind hclaimed
      exact List.mem_singleton.mp hclaimed
  | some row =>
    obtain ⟨hplain, hkind⟩ := hspared row rfl
    rcases hold row rfl with hrow | ⟨hnever, hclaims⟩
    · rw [hplain] at hrow
      cases hrow
    · refine ⟨?_, ?_⟩
      · simp [claimedBySsh, hambiguous, hnever]
      · intro kind hclaimed
        rcases List.mem_cons.mp hclaimed with rfl | hearlier
        · rfl
        · exact (hclaims kind hearlier).trans hkind

end OriginRow

namespace OriginStore

variable {store next : OriginStore} {now : Time}

theorem Sound.recordSshSession {incoming : SshSession} (hstore : store.Sound)
    (hspares : SparesOrigin now store incoming) : (store.recordSshSession now incoming).Sound := by
  unfold OriginStore.recordSshSession
  split
  · exact hstore
  next hrecent =>
    refine Table.All.put hstore _ (OriginRow.sound_claimedBySsh ?_ ?_)
    · exact fun row hrow => hstore _ row hrow
    · exact hspares.resolve_left hrecent

theorem Sound.recordSshSessions {sessions : List SshSession} (hstore : store.Sound)
    (hspares : EachStep (fun store session => some (store.recordSshSession now session))
      (fun before session _ => SparesOrigin now before session)
      (store.dropOldSshSessions now) sessions) :
    (store.recordSshSessions now sessions).Sound := by
  have hfold : ∀ (sessions : List SshSession) (before : OriginStore), before.Sound →
      EachStep (fun store session => some (store.recordSshSession now session))
        (fun before session _ => SparesOrigin now before session) before sessions →
      (sessions.foldl (OriginStore.recordSshSession now) before).Sound := by
    intro sessions
    induction sessions with
    | nil => exact fun before hbefore _ => hbefore
    | cons session rest ih =>
      intro before hbefore hsteps
      obtain ⟨hsession, hrest⟩ := hsteps _ rfl
      exact ih _ (hbefore.recordSshSession hsession) hrest
  have hdropped : (store.dropOldSshSessions now).Sound := hstore
  have hrecorded := hfold sessions _ hdropped hspares
  exact Table.All.deleteKeys (Table.All.deleteKeys hrecorded _) _

theorem originSessions_recordCrondLaunches (launches : List CrondLaunch) :
    (store.recordCrondLaunches now launches).originSessions = store.originSessions := by
  unfold OriginStore.recordCrondLaunches
  have hfold : ∀ (launches : List CrondLaunch) (before : OriginStore),
      (launches.foldl (recordCrondLaunch now) before).originSessions = before.originSessions := by
    intro launches
    induction launches with
    | nil => exact fun _ => rfl
    | cons launch rest ih => exact fun before => ih _
  exact hfold launches _

/-- What the loop over the anchors keeps of the rows it started from: their kinds. -/
def KeepsKinds (origins : SessionKey → Option OriginRow) (store : OriginStore) : Prop :=
  ∀ key loaded row, origins key = some loaded → store.originSessions.get key = some row →
    row.originKind = loaded.originKind

theorem KeepsKinds.modify {origins : SessionKey → Option OriginRow} {change : OriginRow → OriginRow}
    (hkeeps : KeepsKinds origins store) (key : SessionKey)
    (hchange : ∀ row, (change row).originKind = row.originKind) :
    KeepsKinds origins
      { store with originSessions := store.originSessions.modify key change } := by
  intro other loaded row hloaded hrow
  rw [Table.get_modify] at hrow
  split at hrow
  · obtain ⟨old, hold, rfl⟩ := Option.map_eq_some_iff.mp hrow
    rw [hchange]
    exact hkeeps other loaded old hloaded hold
  · exact hkeeps other loaded row hloaded hrow

theorem recordJobmanOrigin_sound {origins : SessionKey → Option OriginRow} {anchor : Anchor}
    (hstore : store.Sound) (hkeeps : KeepsKinds origins store)
    (hnext : recordJobmanOrigin now origins store anchor = some next) :
    next.Sound ∧ KeepsKinds origins next := by
  unfold recordJobmanOrigin at hnext
  split at hnext
  · cases hnext
    exact ⟨hstore, hkeeps⟩
  next launch hlaunch =>
    split at hnext
    · cases hnext
      exact ⟨hstore.modify fun row _ _ => row.sound_contested now [],
        hkeeps.modify _ fun _ => rfl⟩
    · split at hnext
      · cases hnext
        exact ⟨hstore, hkeeps⟩
      · split at hnext
        next hfresh =>
          split at hnext
          · cases hnext
          · cases hnext
            refine ⟨hstore.insert _ (.inr ⟨rfl, by simp [OriginRow.ofAnchor]⟩), ?_⟩
            intro key loaded row hloaded hrow
            rw [Table.get_insert] at hrow
            split at hrow
            next heq =>
              rw [heq, hfresh] at hloaded
              cases hloaded
            · exact hkeeps key loaded row hloaded hrow
        next existing hexisting =>
          split at hnext
          · cases hnext
            exact ⟨hstore.modify fun row _ _ => row.sound_contested now _,
              hkeeps.modify _ fun _ => rfl⟩
          next hagrees =>
            cases hnext
            refine ⟨hstore.modify fun row hrow hsound => hsound.anchored ?_,
              hkeeps.modify _ fun _ => rfl⟩
            rw [hkeeps _ _ row hexisting hrow]
            by_contra hother
            exact hagrees (by simp [OriginRow.conflictsWith, hother])

theorem Sound.recordJobmanOrigins {anchors : List Anchor} (hstore : store.Sound)
    (hnext : store.recordJobmanOrigins now anchors = some next) : next.Sound := by
  have hkeeps : KeepsKinds store.loadedOrigins store := by
    intro key loaded row hloaded hrow
    unfold loadedOrigins at hloaded
    simp only at hloaded
    split at hloaded
    · rw [hloaded] at hrow
      cases hrow
      rfl
    · cases hloaded
  have hinvariant : Always (recordJobmanOrigin now store.loadedOrigins)
      (fun reached => reached.Sound ∧ KeepsKinds store.loadedOrigins reached) store
      (anchors.take processPinnedCap) :=
    always_of_inductive (fun _ _ _ hreached hstep =>
      recordJobmanOrigin_sound hreached.1 hreached.2 hstep) ⟨hstore, hkeeps⟩ _
  exact (hinvariant.of_run hnext).1

theorem Sound.recordLocalOrigin {observation : Observation} (hstore : store.Sound) :
    (store.recordLocalOrigin now observation).Sound := by
  unfold OriginStore.recordLocalOrigin
  split
  · exact hstore
  · split
    · exact hstore.insert _ (.inr ⟨rfl, by simp [OriginRow.ofUser]⟩)
    · exact hstore.modify fun row _ hrow => hrow.claimedByUser

theorem Sound.ingest {call : OriginCall} (hstore : store.Sound)
    (hspares : ∀ sessions, call.sshSessions = some sessions →
      EachStep (fun store session => some (store.recordSshSession call.now session))
        (fun before session _ => SparesOrigin call.now before session)
        (store.dropOldSshSessions call.now) sessions)
    (hnext : store.ingest call = some next) : next.Sound := by
  simp only [OriginStore.ingest, Option.bind_eq_bind, Option.bind_eq_some_iff] at hnext
  obtain ⟨claimed, hclaimed, hnext⟩ := hnext
  cases hnext
  have hlaunched {before : OriginStore} (hbefore : before.Sound) :
      (before.recordCrondLaunches call.now call.crondLaunches).Sound := by
    rw [OriginStore.Sound, originSessions_recordCrondLaunches]
    exact hbefore
  have hobserved : ∀ (observations : List Observation) (before : OriginStore), before.Sound →
      (observations.foldl (OriginStore.recordLocalOrigin call.now) before).Sound := by
    intro observations
    induction observations with
    | nil => exact fun _ hbefore => hbefore
    | cons observation rest ih => exact fun before hbefore => ih _ hbefore.recordLocalOrigin
  have hclaimedSound : claimed.Sound := by
    refine (hlaunched ?_).recordJobmanOrigins hclaimed
    cases hsessions : call.sshSessions with
    | none => exact hstore
    | some sessions => exact hstore.recordSshSessions (hspares sessions hsessions)
  exact (hobserved _ claimed hclaimedSound).deleteKeys _

end OriginStore

/-- In every run whose sessions of SSH spare the origins they find, ambiguity is sticky. -/
theorem stickyOrigins_of_sparesOrigins (actions : List OriginAction)
    (hspares : EachStep originStep (fun store action _ => SparesOrigins store action) {} actions) :
    Always originStep StickyOrigins {} actions := by
  have hsound : Always originStep OriginStore.Sound {} actions := by
    refine always_of_eachStep ?_ (Table.All.empty) hspares
    intro store action next hstore hspares hnext
    cases hnext
    cases hcommits : action.commits with
    | false => exact hstore
    | true =>
      simp only [if_true]
      cases hingested : store.ingest action.call with
      | none => exact hstore
      | some ingested => exact hstore.ingest (hspares hcommits) hingested
  exact hsound.imp fun store hstore key row hrow => (hstore key row hrow).sticky

/-! ### A session of SSH over a local one -/

def userSession : Observation where
  kind := "auth.session_open"
  fingerprint := "2c26b46b68ffc68ff99b453c1d30413413422d706483bfa0f98a5e886266e7ae"
  observedAt := "2026-08-11T02:44:00Z"
  severity := .info
  summary := "PAM service session opened"
  attributes := [("attribution_provenance", .str "none"), ("audit_session", .int 9),
    ("boot_id", .str "0123456789abcdef0123456789abcdef"), ("service", .str "systemd-user"),
    ("target_user", .str "deploy")]
  aggregate := false

def sshLogin : SshSession where
  key := ("0123456789abcdef0123456789abcdef", 9)
  actor := "deploy"
  sourceIp := "203.0.113.7"
  observedAt := 0

/-- The row that is ambiguous after the first ingestion is plain after the session is
recorded again. -/
theorem not_stickyOrigins_repeatedLogin :
    ¬ Always originStep StickyOrigins {}
      [{ call := { now := 0, sshSessions := some [sshLogin], observations := [userSession] } },
        { call := { now := seconds 60, sshSessions := some [sshLogin] } }] := by
  refine not_always_of_run (fun store => store.originSessions.rows.all fun entry =>
    !entry.2.wasAmbiguous || entry.2.ambiguous) ?_ (by decide +kernel)
  intro store hsticky
  rw [List.all_eq_true]
  intro entry hentry
  cases hwas : entry.2.wasAmbiguous with
  | false => rfl
  | true => exact hsticky entry.1 entry.2 (Table.mem_rows.mp hentry) (.inl hwas)

theorem stickyOrigins_localAfterLogin :
    Always originStep StickyOrigins {}
      [{ call := { now := 0, sshSessions := some [sshLogin], observations := [userSession] } }] := by
  refine stickyOrigins_of_sparesOrigins _ ?_
  intro next _
  refine ⟨?_, trivial⟩
  intro _ sessions hsessions
  cases hsessions
  intro recorded _
  exact ⟨.inr (.inr nofun), trivial⟩

end DjangoMojo.Sensor
