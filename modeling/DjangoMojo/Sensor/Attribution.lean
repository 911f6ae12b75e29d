import Mathlib.Data.Multiset.Lattice
import Mathlib.Logic.Function.Basic
import DjangoMojo.Foundation.Markers
import DjangoMojo.Foundation.PythonText
import DjangoMojo.Sensor.Origins

/-! # Merged login sessions

The records of one audit session are merged one after the other: the first one is kept, a
terminal that it lacks is taken from a later one, and a conflict leaves a blank row that
stays. What the records of a session say together is the join of what each one says, in a
lattice in which a missing terminal is below every terminal, so that neither their order
nor the way they are divided among rows matters.
-/

namespace DjangoMojo.Sensor

/-! ### What records say together -/

inductive SessionReading where
  | unseen
  | agreed (actor sourceIp tty : String)
  | conflict
  deriving DecidableEq

namespace SessionReading

/-- Two terminals, of which either may be missing, do not contradict each other. -/
def TtysAgree (first second : String) : Prop := first = "" ∨ second = "" ∨ first = second

instance (first second : String) : Decidable (TtysAgree first second) :=
  inferInstanceAs (Decidable (_ ∨ _ ∨ _))

def join : SessionReading → SessionReading → SessionReading
  | .unseen, other => other
  | reading, .unseen => reading
  | .agreed actor sourceIp tty, .agreed otherActor otherIp otherTty =>
    if actor = otherActor ∧ sourceIp = otherIp ∧ TtysAgree tty otherTty then
      .agreed actor sourceIp (if tty = "" then otherTty else tty)
    else .conflict
  | _, _ => .conflict

@[simp] theorem unseen_join (reading : SessionReading) : join .unseen reading = reading := rfl

@[simp] theorem join_unseen (reading : SessionReading) : join reading .unseen = reading := by
  cases reading <;> rfl

@[simp] theorem conflict_join (reading : SessionReading) : join .conflict reading = .conflict := by
  cases reading <;> rfl

@[simp] theorem join_conflict (reading : SessionReading) : join reading .conflict = .conflict := by
  cases reading <;> rfl

theorem join_agreed {actor sourceIp tty otherActor otherIp otherTty : String} :
    join (.agreed actor sourceIp tty) (.agreed otherActor otherIp otherTty) =
      if actor = otherActor ∧ sourceIp = otherIp ∧ TtysAgree tty otherTty then
        .agreed actor sourceIp (if tty = "" then otherTty else tty)
      else .conflict := rfl

theorem join_comm (first second : SessionReading) : join first second = join second first := by
  cases first with
  | unseen => rw [unseen_join, join_unseen]
  | conflict => rw [conflict_join, join_conflict]
  | agreed actor sourceIp tty =>
    cases second with
    | unseen => rfl
    | conflict => rfl
    | agreed otherActor otherIp otherTty =>
      rw [join_agreed, join_agreed]
      unfold TtysAgree
      grind

theorem join_assoc (first second third : SessionReading) :
    join (join first second) third = join first (join second third) := by
  cases first with
  | unseen => rfl
  | conflict => simp only [conflict_join]
  | agreed actor sourceIp tty =>
    cases second with
    | unseen => rfl
    | conflict => simp only [conflict_join, join_conflict]
    | agreed otherActor otherIp otherTty =>
      cases third with
      | unseen => rw [join_unseen, join_unseen]
      | conflict => rw [join_conflict, join_conflict, join_conflict]
      | agreed lastActor lastIp lastTty =>
        -- Of three terminals, any two that are not missing have to be equal.
        grind [join_agreed, conflict_join, join_conflict, TtysAgree]

theorem join_self (reading : SessionReading) : join reading reading = reading := by
  cases reading with
  | unseen => rfl
  | conflict => rfl
  | agreed actor sourceIp tty => simp [join, TtysAgree]

instance : Max SessionReading := ⟨join⟩

instance : SemilatticeSup SessionReading := SemilatticeSup.mk' join_comm join_assoc join_self

instance : OrderBot SessionReading where
  bot := .unseen
  bot_le _ := rfl

theorem sup_eq_join (first second : SessionReading) : first ⊔ second = join first second := rfl

theorem le_iff {first second : SessionReading} : first ≤ second ↔ join first second = second :=
  sup_eq_right.symm

theorem agreed_le_agreed {actor sourceIp tty otherActor otherIp otherTty : String} :
    agreed actor sourceIp tty ≤ agreed otherActor otherIp otherTty ↔
      actor = otherActor ∧ sourceIp = otherIp ∧ (tty = "" ∨ tty = otherTty) := by
  rw [le_iff, join_agreed]
  unfold TtysAgree
  grind

theorem not_conflict_le_agreed {actor sourceIp tty : String} :
    ¬ conflict ≤ agreed actor sourceIp tty := by
  rw [le_iff, conflict_join]
  exact fun heq => nomatch heq

end SessionReading

/-! ### Records and what they say -/

structure SessionVerdict where
  ambiguous : Bool
  actor : String
  sourceIp : String
  tty : String
  deriving DecidableEq

namespace SshSession

def verdict (session : SshSession) : SessionVerdict :=
  ⟨session.ambiguous, session.actor, session.sourceIp, session.tty⟩

def reading (session : SshSession) : SessionReading :=
  if session.ambiguous then .conflict
  else .agreed session.actor session.sourceIp session.tty

def Tombstoned (session : SshSession) : Prop :=
  session.ambiguous = true → session.actor = "" ∧ session.sourceIp = "" ∧ session.tty = ""

end SshSession

/-- The verdict on records that say this together; there is none on no records. -/
def SessionReading.verdict : SessionReading → Option SessionVerdict
  | .unseen => none
  | .agreed actor sourceIp tty => some ⟨false, actor, sourceIp, tty⟩
  | .conflict => some ⟨true, "", "", ""⟩

theorem SshSession.Tombstoned.verdict {session : SshSession} (hblank : session.Tombstoned) :
    some session.verdict = session.reading.verdict := by
  unfold SshSession.verdict SshSession.reading
  split
  next hambiguous =>
    obtain ⟨hactor, hip, htty⟩ := hblank hambiguous
    rw [hambiguous, hactor, hip, htty]
    rfl
  next hclear =>
    rw [Bool.eq_false_of_not_eq_true hclear]
    rfl

/-! ### One merge -/

theorem mergeSession_some (existing incoming : SshSession) :
    mergeSession (some existing) incoming =
      if existing.ambiguous = false ∧ incoming.ambiguous = false ∧
          existing.actor = incoming.actor ∧ existing.sourceIp = incoming.sourceIp ∧
          SessionReading.TtysAgree existing.tty incoming.tty then
        { existing with
          tty := if existing.tty = "" then incoming.tty else existing.tty
          observedAt := max existing.observedAt incoming.observedAt
          ambiguous := false }
      else
        { key := incoming.key, actor := "", tty := "", sourceIp := ""
          observedAt := max existing.observedAt incoming.observedAt, ambiguous := true } := by
  unfold mergeSession SessionReading.TtysAgree
  grind

theorem reading_mergeSession (existing incoming : SshSession) :
    (mergeSession (some existing) incoming).reading = existing.reading ⊔ incoming.reading := by
  rw [mergeSession_some, SessionReading.sup_eq_join]
  unfold SshSession.reading
  cases hold : existing.ambiguous with
  | true => simp
  | false =>
    cases hnew : incoming.ambiguous with
    | true => simp
    | false =>
      simp only [Bool.false_eq_true, if_false, true_and, SessionReading.join_agreed]
      split <;> rfl

theorem tombstoned_mergeSession (existing incoming : SshSession) :
    (mergeSession (some existing) incoming).Tombstoned := by
  intro hambiguous
  rw [mergeSession_some] at hambiguous ⊢
  split at hambiguous
  · cases hambiguous
  next hconflict =>
    rw [if_neg hconflict]
    exact ⟨rfl, rfl, rfl⟩

theorem observedAt_mergeSession (existing incoming : SshSession) :
    (mergeSession (some existing) incoming).observedAt =
      max existing.observedAt incoming.observedAt := by
  rw [mergeSession_some]
  split <;> rfl

theorem key_mergeSession {existing incoming : SshSession} (hkey : existing.key = incoming.key) :
    (mergeSession (some existing) incoming).key = incoming.key := by
  rw [mergeSession_some]
  split
  · exact hkey
  · rfl

theorem key_mergeSession_of_known {known : Option SshSession} {incoming : SshSession}
    (hknown : ∀ session, known = some session → session.key = incoming.key) :
    (mergeSession known incoming).key = incoming.key := by
  cases known with
  | none => rfl
  | some existing => exact key_mergeSession (hknown existing rfl)

theorem observedAt_le_mergeSession (known : Option SshSession) (incoming : SshSession) :
    incoming.observedAt ≤ (mergeSession known incoming).observedAt := by
  cases known with
  | none => exact le_refl _
  | some existing =>
    rw [observedAt_mergeSession]
    exact le_max_right _ _

theorem tombstoned_mergeSession_of_incoming {incoming : SshSession} (known : Option SshSession)
    (hincoming : incoming.Tombstoned) : (mergeSession known incoming).Tombstoned := by
  cases known with
  | none => exact hincoming
  | some existing => exact tombstoned_mergeSession existing incoming

/-! ### All merges -/

/-- `merge_session` folded over records, from a session that may be known before. -/
def mergeOnto (known : Option SshSession) (records : List SshSession) : Option SshSession :=
  records.foldl (fun known record => some (mergeSession known record)) known

def togetherSay (records : Multiset SshSession) : SessionReading :=
  (records.map SshSession.reading).sup

def knownSays (known : Option SshSession) : SessionReading := known.elim ⊥ SshSession.reading

@[simp] theorem knownSays_none : knownSays none = ⊥ := rfl

@[simp] theorem knownSays_some (session : SshSession) :
    knownSays (some session) = session.reading := rfl

@[simp] theorem togetherSay_cons (record : SshSession) (records : Multiset SshSession) :
    togetherSay (record ::ₘ records) = record.reading ⊔ togetherSay records := by
  rw [togetherSay, Multiset.map_cons, Multiset.sup_cons, togetherSay]

@[simp] theorem togetherSay_add (first second : Multiset SshSession) :
    togetherSay (first + second) = togetherSay first ⊔ togetherSay second := by
  rw [togetherSay, Multiset.map_add, Multiset.sup_add, togetherSay, togetherSay]

theorem reading_le_togetherSay {record : SshSession} {records : Multiset SshSession}
    (hmem : record ∈ records) : record.reading ≤ togetherSay records :=
  Multiset.le_sup (Multiset.mem_map_of_mem _ hmem)

theorem togetherSay_le {records : Multiset SshSession} {bound : SessionReading} :
    togetherSay records ≤ bound ↔ ∀ record ∈ records, record.reading ≤ bound := by
  rw [togetherSay, Multiset.sup_le]
  exact Multiset.forall_mem_map_iff

theorem agree_of_togetherSay {records : Multiset SshSession} {actor sourceIp tty : String}
    (hsay : togetherSay records = .agreed actor sourceIp tty) {record : SshSession}
    (hmem : record ∈ records) :
    record.actor = actor ∧ record.sourceIp = sourceIp ∧ (record.tty = "" ∨ record.tty = tty) := by
  have hle : record.reading ≤ .agreed actor sourceIp tty := hsay ▸ reading_le_togetherSay hmem
  unfold SshSession.reading at hle
  split at hle
  · exact absurd hle SessionReading.not_conflict_le_agreed
  · exact SessionReading.agreed_le_agreed.mp hle

section Fold

variable {known : Option SshSession} {records others : List SshSession}

@[simp] theorem mergeOnto_nil : mergeOnto known [] = known := rfl

@[simp] theorem mergeOnto_cons (record : SshSession) :
    mergeOnto known (record :: records) = mergeOnto (some (mergeSession known record)) records :=
  rfl

theorem knownSays_mergeSession (known : Option SshSession) (record : SshSession) :
    knownSays (some (mergeSession known record)) = knownSays known ⊔ record.reading := by
  cases known with
  | none => exact (bot_sup_eq _).symm
  | some existing => exact reading_mergeSession existing record

theorem knownSays_mergeOnto :
    knownSays (mergeOnto known records) = knownSays known ⊔ togetherSay records := by
  induction records generalizing known with
  | nil => exact (sup_bot_eq _).symm
  | cons record rest ih =>
    rw [mergeOnto_cons, ih, knownSays_mergeSession, ← Multiset.cons_coe, togetherSay_cons,
      sup_assoc]

/-- A session that a fold leaves is blank when it is ambiguous, if what it started from is and
every record is. -/
theorem tombstoned_mergeOnto (hknown : ∀ session ∈ known, session.Tombstoned)
    (hrecords : known = none → ∀ record ∈ records, record.Tombstoned) :
    ∀ session ∈ mergeOnto known records, session.Tombstoned := by
  induction records generalizing known with
  | nil => exact hknown
  | cons record rest ih =>
    refine ih ?_ (fun hnone => nomatch hnone)
    intro session hsession
    obtain rfl := Option.mem_some_iff.mp hsession
    cases known with
    | none => exact hrecords rfl record List.mem_cons_self
    | some existing => exact tombstoned_mergeSession existing record

theorem key_mergeOnto {key : SessionKey} (hknown : ∀ session, known = some session →
    session.key = key) (hrecords : ∀ record ∈ records, record.key = key) :
    ∀ session, mergeOnto known records = some session → session.key = key := by
  induction records generalizing known with
  | nil => exact hknown
  | cons record rest ih =>
    obtain ⟨hrecord, hrest⟩ := List.forall_mem_cons.mp hrecords
    refine ih ?_ hrest
    intro session hsession
    cases hsession
    rw [← hrecord]
    exact key_mergeSession_of_known fun known heq => (hknown known heq).trans hrecord.symm

theorem key_mergeOnto_none {key : SessionKey} (hrecords : ∀ record ∈ records, record.key = key) :
    ∀ session, mergeOnto none records = some session → session.key = key := by
  refine key_mergeOnto ?_ hrecords
  intro session hnone
  cases hnone

theorem tombstoned_mergeOnto_none (hrecords : ∀ record ∈ records, record.Tombstoned) :
    ∀ session ∈ mergeOnto none records, session.Tombstoned := by
  refine tombstoned_mergeOnto ?_ fun _ => hrecords
  intro session hnone
  cases hnone

@[simp] theorem knownSays_mergeOnto_none :
    knownSays (mergeOnto none records) = togetherSay records := by
  rw [knownSays_mergeOnto, knownSays_none, bot_sup_eq]

theorem map_verdict_of_tombstoned (hknown : ∀ session ∈ known, session.Tombstoned) :
    known.map SshSession.verdict = (knownSays known).verdict := by
  cases known with
  | none => rfl
  | some session => exact (hknown session rfl).verdict

theorem map_verdict_mergeOnto_of_two (first second : SshSession) (rest : List SshSession) :
    (mergeOnto none (first :: second :: rest)).map SshSession.verdict =
      (togetherSay (first :: second :: rest : List SshSession)).verdict := by
  have hblank : ∀ session ∈ mergeOnto none (first :: second :: rest), session.Tombstoned := by
    rw [mergeOnto_cons, mergeOnto_cons]
    refine tombstoned_mergeOnto ?_ (fun hnone => nomatch hnone)
    intro session hsession
    obtain rfl := Option.mem_some_iff.mp hsession
    exact tombstoned_mergeSession _ _
  rw [map_verdict_of_tombstoned hblank, knownSays_mergeOnto_none]

theorem map_verdict_mergeOnto_of_perm (hperm : records.Perm others) :
    (mergeOnto none records).map SshSession.verdict =
      (mergeOnto none others).map SshSession.verdict := by
  match records, others with
  | [], _ => rw [List.nil_perm.mp hperm]
  | [record], _ => rw [List.singleton_perm.mp hperm]
  | _ :: _ :: _, [] => exact absurd hperm.length_eq (by simp)
  | _ :: _ :: _, [_] => exact absurd hperm.length_eq (by simp)
  | first :: second :: rest, third :: fourth :: others =>
    rw [map_verdict_mergeOnto_of_two, map_verdict_mergeOnto_of_two, Multiset.coe_eq_coe.mpr hperm]

end Fold

/-! ## Attribution of commands to login sessions

A poll of the journal loads the sessions that the store keeps, overlays those that its own
records open, and attributes each command to the session it was run in. The merged sessions
go back to the store with the observations. A source is attributed only to a session all of
whose records agree, whichever of them came from the store.
-/

open Foundation

def whoFreshSeconds : Int := 5 * 60

/-! ### Canonical values -/

def isUserChar (char : Char) : Bool := char.isAlphanum || "_.@-".toList.contains char

def isTtyChar (char : Char) : Bool := char.isAlphanum || "_.-/".toList.contains char

/-- `canonical_user`. -/
def canonicalUser (value : String) : String :=
  let chars := value.toList
  if chars.all isUserChar && chars ≠ [] && chars.length ≤ 128 then value else ""

/-- `canonical_tty`. -/
def canonicalTty (tables : TextTables) (value : String) : String :=
  let stripped := tables.strip value.toList
  let device := "/dev/".toList
  let chars := if device <+: stripped then stripped.drop device.length else stripped
  if chars.all isTtyChar && chars ≠ [] && chars.length ≤ 96 &&
      (Markers.breakOn "..".toList chars).isNone then
    String.ofList chars
  else ""

/-! ### The resolver -/

/-- What `ssh_session` finds in a record of the journal. -/
structure FoundSession where
  key : SessionKey
  actor : String
  tty : String
  sourceIp : String
  observedAt : Time

def FoundSession.session (found : FoundSession) : SshSession :=
  { key := found.key
    actor := found.actor
    tty := found.tty
    sourceIp := found.sourceIp
    observedAt := found.observedAt
    ambiguous := false }

/-- What `audit_context` reads from a record. -/
structure AuditContext where
  bootId : String
  auditSession : Option Int
  tty : String

/-- A line of `who`. -/
structure WhoSession where
  actor : String
  tty : String
  sourceIp : String
  observedAt : Time

inductive Provenance where
  | auditSession | who | none
  deriving DecidableEq, Repr

/-- `AttributionResolver`; the sessions of `who` are loaded when they are first needed. -/
structure Resolver where
  sessions : SessionKey → Option SshSession
  newSessions : List SshSession

namespace Resolver

def addPersisted (resolver : Resolver) (row : SshSession) : Resolver :=
  if row.key.1 = "" then resolver
  else { resolver with
    sessions := Function.update resolver.sessions row.key
      (some (mergeSession (resolver.sessions row.key) row)) }

def ofPersisted (persisted : List SshSession) : Resolver :=
  persisted.foldl addPersisted { sessions := fun _ => none, newSessions := [] }

/-- The turn of `overlay` for a record that opens a session. -/
def overlayOne (resolver : Resolver) (found : FoundSession) : Resolver :=
  let merged := mergeSession (resolver.sessions found.key) found.session
  { sessions := Function.update resolver.sessions found.key (some merged)
    newSessions := resolver.newSessions ++ [merged] }

/-- `overlay`, for the records that open a session. -/
def overlay (resolver : Resolver) (found : List FoundSession) : Resolver :=
  found.foldl overlayOne resolver

/-- The fallback of `resolve`. -/
def resolveByWho (actor tty : String) (observed : Option Time) (allowWho : Bool)
    (whoSessions : List WhoSession) : String × Provenance :=
  match observed with
  | .none => ("", .none)
  | some observed =>
    if !allowWho || actor = "" || tty = "" then ("", .none)
    else
      match whoSessions.filter fun row =>
          row.actor = actor && row.tty = tty && 0 ≤ observed - row.observedAt &&
            observed - row.observedAt ≤ seconds whoFreshSeconds with
      | [row] => (row.sourceIp, .who)
      | _ => ("", .none)

/-- `resolve`. -/
def resolve (tables : TextTables) (resolver : Resolver) (context : AuditContext)
    (observed : Option Time) (actor tty : String) (allowWho : Bool)
    (whoSessions : List WhoSession) : String × Provenance × AuditContext :=
  let actor := canonicalUser actor
  let tty := canonicalTty tables tty
  let known := if context.bootId = "" then none
    else context.auditSession.bind fun session => resolver.sessions (context.bootId, session)
  match known with
  | some session =>
    if !session.ambiguous && session.actor = actor &&
        (tty = "" || session.tty = "" || session.tty = tty) then
      (session.sourceIp, .auditSession, context)
    else ("", .none, context)
  | .none =>
    let found := resolveByWho actor tty observed allowWho whoSessions
    (found.1, found.2, context)

end Resolver

/-! ### Polls of the journal -/

def ofKey (key : SessionKey) (sessions : List SshSession) : List SshSession :=
  sessions.filter fun session => session.key = key

/-- `load_ssh_sessions`. -/
def OriginStore.loadSshSessions (now : Time) (store : OriginStore) : List SshSession :=
  let recent := store.sshSessions.select fun _ row =>
    now - seconds sshSessionTtlSeconds ≤ row.session.observedAt
  let newest := (store.sshSessions.orderedBy (fun row => row.session.observedAt) recent).reverse
  (newest.take sshSessionCap).filterMap fun key =>
    (store.sshSessions.get key).map SshRow.session

/-- A poll of the journal: when the sessions are loaded, what the records open, and the call
of `ingest` that ends it, without the sessions. -/
structure JournalPoll where
  loadedAt : Time
  found : List FoundSession
  call : OriginCall
  commits : Bool := true

namespace JournalPoll

/-- The resolver once it has overlaid the records of the poll. -/
def resolver (poll : JournalPoll) (store : OriginStore) : Resolver :=
  (Resolver.ofPersisted (store.loadSshSessions poll.loadedAt)).overlay poll.found

def ingested (poll : JournalPoll) (store : OriginStore) : Option OriginStore :=
  if poll.commits then
    store.ingest { poll.call with sshSessions := some (poll.resolver store).newSessions }
  else none

def sessionsOf (poll : JournalPoll) (key : SessionKey) : List SshSession :=
  ofKey key (poll.found.map FoundSession.session)

/-- The store after the poll. A call that fails leaves it unchanged. -/
def step (poll : JournalPoll) (store : OriginStore) : OriginStore :=
  (poll.ingested store).getD store

end JournalPoll

def pollJournal (store : OriginStore) (polls : List JournalPoll) : OriginStore :=
  polls.foldl (fun store poll => poll.step store) store

/-- The records of the session that the polls have recorded. -/
def recordedSessions (key : SessionKey) : OriginStore → List JournalPoll → List SshSession
  | _, [] => []
  | store, poll :: rest =>
    (if (poll.ingested store).isSome then poll.sessionsOf key else []) ++
      recordedSessions key (poll.step store) rest

end DjangoMojo.Sensor
