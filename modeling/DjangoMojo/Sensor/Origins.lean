import DjangoMojo.Foundation.Table
import DjangoMojo.Foundation.Trace
import DjangoMojo.Sensor.Event

/-! # Origins of login sessions

The store keeps one row for the origin of each audit session. Four writers of an
ingestion meet there: the login sessions of SSH, the anchors of cron jobs, the launches
of cron that contradict each other, and the session observations of local users. The
process nodes that an ingestion finds beside an anchor come with the call. Two fields of
an origin row record its history; no function reads them.
-/

namespace DjangoMojo.Sensor

open Foundation

def sshSessionCap : Nat := 4096
def sshSessionTtlSeconds : Int := 30 * 24 * 60 * 60
def processPinnedCap : Nat := 64

abbrev SessionKey := String × Int

inductive OriginKind where
  | ssh | cronJobman | localSystemdUser
  deriving DecidableEq, Repr

structure SshSession where
  key : SessionKey
  actor : String
  tty : String := ""
  sourceIp : String
  observedAt : Time
  ambiguous : Bool := false

/-- `merge_session`. -/
def mergeSession (existing : Option SshSession) (incoming : SshSession) : SshSession :=
  match existing with
  | none => incoming
  | some existing =>
    let observedAt := max existing.observedAt incoming.observedAt
    if existing.ambiguous || incoming.ambiguous || existing.actor ≠ incoming.actor ||
        existing.sourceIp ≠ incoming.sourceIp ||
        (existing.tty ≠ "" && incoming.tty ≠ "" && existing.tty ≠ incoming.tty) then
      { key := incoming.key, actor := "", tty := "", sourceIp := "", observedAt := observedAt,
        ambiguous := true }
    else
      { existing with
        tty := if existing.tty = "" then incoming.tty else existing.tty
        observedAt := observedAt
        ambiguous := false }

structure SshRow where
  session : SshSession
  updatedAt : Time

structure OriginRow where
  originKind : OriginKind
  actor : String := ""
  tty : String := ""
  sourceIp : String := ""
  anchorPid : Option Int := none
  anchorGeneration : String := ""
  observedAt : Time
  updatedAt : Time
  ambiguous : Bool
  claims : List OriginKind
  wasAmbiguous : Bool

/-- The upsert of an SSH session: the row takes its kind and its ambiguity. -/
def OriginRow.claimedBySsh (old : Option OriginRow) (session : SshSession) (now : Time) :
    OriginRow :=
  { originKind := .ssh
    actor := session.actor
    tty := session.tty
    sourceIp := session.sourceIp
    anchorPid := old.bind OriginRow.anchorPid
    anchorGeneration := (old.map OriginRow.anchorGeneration).getD ""
    observedAt := session.observedAt
    updatedAt := now
    ambiguous := session.ambiguous
    claims := .ssh :: (old.map OriginRow.claims).getD []
    wasAmbiguous := session.ambiguous || (old.map OriginRow.wasAmbiguous).getD false }

/-- The update of a row that another kind claims, or whose launches conflict. -/
def OriginRow.contested (now : Time) (claims : List OriginKind) (row : OriginRow) : OriginRow :=
  { row with
    ambiguous := true
    updatedAt := now
    claims := claims ++ row.claims
    wasAmbiguous := true }

/-- One half of a launch that cron reports, in the system log or through PAM. -/
structure LaunchHalf where
  monotonic : Int
  commandSha256 : String
  launchPid : Option Int := none
  deriving DecidableEq

inductive LaunchSource where
  | syslog | pam
  deriving DecidableEq, Repr

structure CrondLaunch where
  key : SessionKey
  source : LaunchSource
  half : LaunchHalf

structure LaunchRow where
  syslog : Option LaunchHalf := none
  pam : Option LaunchHalf := none
  ambiguous : Bool := false
  updatedAt : Time

structure ProcessNode where
  pid : Int
  ppid : Int
  exe : String
  argv : List String
  monotonic : Option Int
  /-- `_eligible_process_node` of its payload. -/
  eligible : Bool

structure Anchor where
  key : SessionKey
  generation : String
  node : ProcessNode
  nodes : List ProcessNode

structure OriginStore where
  sshSessions : Table SessionKey SshRow := .empty
  originSessions : Table SessionKey OriginRow := .empty
  crondLaunches : Table SessionKey LaunchRow := .empty

/-- The keys of a table beyond the newest `limit`, by a time and then by insertion. -/
def oldest {Row : Type} (table : Table SessionKey Row) (time : Row → Time) (limit : Nat) :
    List SessionKey :=
  (table.orderedBy time table.keys).reverse.drop limit

def expiredBefore {Row : Type} (table : Table SessionKey Row) (time : Row → Time)
    (cutoff : Time) : List SessionKey :=
  table.select fun _ row => time row < cutoff

namespace OriginStore

/-! ### SSH sessions -/

/-- The turn of `_record_ssh_sessions` for one session. -/
def recordSshSession (now : Time) (store : OriginStore) (incoming : SshSession) : OriginStore :=
  if incoming.observedAt < now - seconds sshSessionTtlSeconds then store
  else
    let session := mergeSession ((store.sshSessions.get incoming.key).map SshRow.session) incoming
    { store with
      sshSessions := store.sshSessions.put incoming.key { session := session, updatedAt := now }
      originSessions := store.originSessions.put incoming.key
        (.claimedBySsh (store.originSessions.get incoming.key) session now) }

def dropOldSshSessions (now : Time) (store : OriginStore) : OriginStore :=
  { store with
    sshSessions := store.sshSessions.deleteKeys
      (expiredBefore store.sshSessions (fun row => row.session.observedAt)
        (now - seconds sshSessionTtlSeconds)) }

/-- The deletions that `_record_ssh_sessions` ends with. -/
def trimSshSessions (now : Time) (store : OriginStore) : OriginStore :=
  let origins := store.originSessions.deleteKeys (expiredBefore store.originSessions
    OriginRow.updatedAt (now - seconds sshSessionTtlSeconds))
  { store with
    sshSessions := store.sshSessions.deleteKeys
      (oldest store.sshSessions (fun row => row.session.observedAt) sshSessionCap)
    originSessions := origins.deleteKeys (oldest origins OriginRow.updatedAt sshSessionCap) }

/-- `_record_ssh_sessions`. -/
def recordSshSessions (now : Time) (store : OriginStore) (sessions : List SshSession) :
    OriginStore :=
  (sessions.foldl (recordSshSession now) (store.dropOldSshSessions now)).trimSshSessions now

/-! ### Launches of cron -/

/-- The turn of `_record_crond_launches` for one half: a half that differs from the one
known is a conflict, which stays. -/
def recordCrondLaunch (now : Time) (store : OriginStore) (launch : CrondLaunch) : OriginStore :=
  let old := (store.crondLaunches.get launch.key).getD { updatedAt := now }
  let prior := match launch.source with
    | .syslog => old.syslog
    | .pam => old.pam
  let ambiguous := old.ambiguous || prior.any fun half => half ≠ launch.half
  let row := match launch.source with
    | .syslog => { old with syslog := some launch.half, ambiguous := ambiguous, updatedAt := now }
    | .pam => { old with pam := some launch.half, ambiguous := ambiguous, updatedAt := now }
  { store with crondLaunches := store.crondLaunches.put launch.key row }

/-- `_record_crond_launches`. -/
def recordCrondLaunches (now : Time) (store : OriginStore) (launches : List CrondLaunch) :
    OriginStore :=
  let kept := { store with
    crondLaunches := store.crondLaunches.deleteKeys (expiredBefore store.crondLaunches
      LaunchRow.updatedAt (now - seconds sshSessionTtlSeconds)) }
  let recorded := launches.foldl (recordCrondLaunch now) kept
  { recorded with
    crondLaunches := recorded.crondLaunches.deleteKeys
      (oldest recorded.crondLaunches LaunchRow.updatedAt sshSessionCap) }

end OriginStore

/-! ### Anchors of cron jobs -/

def ProcessNode.startsJob (node : ProcessNode) (anchor : ProcessNode) : Bool :=
  node.eligible && node.pid = anchor.ppid && node.argv.contains "start" &&
    node.argv.any fun part => part.endsWith "/bin/jobman" || part = "mojo.deploy.jobman"

def ProcessNode.launches (node : ProcessNode) (launchPid : Option Int) (jobman : ProcessNode) :
    Bool :=
  node.eligible && node.exe = "/usr/bin/bash" && some node.pid = launchPid &&
    (node.pid = jobman.pid || node.pid = jobman.ppid)

def increasing : List (Option Int) → Bool
  | some first :: some second :: rest => first < second && increasing (some second :: rest)
  | [some _] | [] => true
  | _ => false

/-- The launch and the process nodes show that cron started the job of the anchor. -/
def LaunchRow.proves (launch : LaunchRow) (anchor : Anchor) : Bool :=
  match launch.syslog, launch.pam with
  | some syslog, some pam =>
    syslog.commandSha256 = pam.commandSha256 && pam.monotonic < syslog.monotonic &&
      anchor.node.eligible &&
      match anchor.nodes.filter fun node => node.startsJob anchor.node with
      | [jobman] =>
        match anchor.nodes.filter fun node => node.launches syslog.launchPid jobman with
        | [bash] =>
          (jobman.pid = bash.pid || jobman.ppid = bash.pid) &&
            increasing [some pam.monotonic, some syslog.monotonic, bash.monotonic,
              jobman.monotonic, anchor.node.monotonic]
        | _ => false
      | _ => false
  | _, _ => false

/-- The row was claimed by another kind or for another anchor. -/
def OriginRow.conflictsWith (row : OriginRow) (anchor : Anchor) : Bool :=
  row.originKind ≠ .cronJobman || row.anchorPid.any (fun pid => pid ≠ anchor.node.pid) ||
    (row.anchorGeneration ≠ "" && row.anchorGeneration ≠ anchor.generation)

def OriginRow.ofAnchor (anchor : Anchor) (now : Time) : OriginRow :=
  { originKind := .cronJobman
    anchorPid := some anchor.node.pid
    anchorGeneration := anchor.generation
    observedAt := now
    updatedAt := now
    ambiguous := false
    claims := [.cronJobman]
    wasAmbiguous := false }

def OriginRow.anchored (anchor : Anchor) (now : Time) (row : OriginRow) : OriginRow :=
  { row with
    anchorPid := some anchor.node.pid
    anchorGeneration := anchor.generation
    updatedAt := now
    claims := .cronJobman :: row.claims }

namespace OriginStore

/-- The rows that `_record_jobman_origins` loads before its loop. -/
def loadedOrigins (store : OriginStore) (key : SessionKey) : Option OriginRow :=
  let rows := store.originSessions
  if ((rows.orderedBy OriginRow.updatedAt rows.keys).reverse.take sshSessionCap).contains key then
    rows.get key
  else none

/-- The turn of `_record_jobman_origins` for one anchor; an insertion beside a row raises. -/
def recordJobmanOrigin (now : Time) (origins : SessionKey → Option OriginRow)
    (store : OriginStore) (anchor : Anchor) : Option OriginStore :=
  match store.crondLaunches.get anchor.key with
  | none => some store
  | some launch =>
    if launch.ambiguous then
      some { store with
        originSessions := store.originSessions.modify anchor.key (.contested now []) }
    else if !launch.proves anchor then some store
    else
      match origins anchor.key with
      | none =>
        if (store.originSessions.get anchor.key).isSome then none
        else some { store with
          originSessions := store.originSessions.insert anchor.key (.ofAnchor anchor now) }
      | some existing =>
        if existing.conflictsWith anchor then
          some { store with
            originSessions := store.originSessions.modify anchor.key
              (.contested now [.cronJobman]) }
        else
          some { store with
            originSessions := store.originSessions.modify anchor.key (.anchored anchor now) }

/-- `_record_jobman_origins`. -/
def recordJobmanOrigins (now : Time) (store : OriginStore) (anchors : List Anchor) :
    Option OriginStore :=
  run (recordJobmanOrigin now store.loadedOrigins) store (anchors.take processPinnedCap)

end OriginStore

/-! ### Local sessions -/

/-- The session and the user of an observation that `_record_local_origin` reads; the
detectors write the boot and the user as texts. -/
def Observation.localSession (observation : Observation) : Option (SessionKey × String) :=
  let attributes := observation.attributes
  if observation.kind ≠ "auth.session_open" ||
      !(attributes.field "service").any (Json.isText "systemd-user") ||
      attributes.isSet "source_ip" || attributes.isSet "tty" ||
      !(attributes.field "attribution_provenance").any (Json.isText "none") then none
  else
    let actor := match attributes.field "target_user" with
      | some (.str user) => String.ofList (user.toList.take 128)
      | _ => ""
    match attributes.field "boot_id", attributes.field "audit_session" with
    | some (.str boot), some (.int session) =>
      if boot = "" then none else some ((boot, session), actor)
    | some (.str boot), some (.bool session) =>
      if boot = "" then none else some ((boot, if session then 1 else 0), actor)
    | _, _ => none

def OriginRow.ofUser (actor : String) (now : Time) : OriginRow :=
  { originKind := .localSystemdUser
    actor := actor
    observedAt := now
    updatedAt := now
    ambiguous := false
    claims := [.localSystemdUser]
    wasAmbiguous := false }

/-- The update of a row by the session observation of a user. -/
def OriginRow.claimedByUser (actor : String) (now : Time) (row : OriginRow) : OriginRow :=
  if row.originKind ≠ .localSystemdUser || row.actor ≠ actor then
    row.contested now [.localSystemdUser]
  else { row with updatedAt := now, claims := .localSystemdUser :: row.claims }

/-- `_record_local_origin`. -/
def OriginStore.recordLocalOrigin (now : Time) (store : OriginStore) (observation : Observation) :
    OriginStore :=
  match observation.localSession with
  | none => store
  | some (key, actor) =>
    match store.originSessions.get key with
    | none => { store with originSessions := store.originSessions.insert key (.ofUser actor now) }
    | some _ =>
      { store with originSessions := store.originSessions.modify key (.claimedByUser actor now) }

/-! ### Ingestion -/

structure OriginCall where
  now : Time
  sshSessions : Option (List SshSession) := none
  crondLaunches : List CrondLaunch := []
  /-- The pinned nodes with an audit session, the newest first, once the nodes of the call
  are recorded. -/
  anchors : List Anchor := []
  observations : List Observation := []

namespace OriginStore

/-- The part of `ingest` that writes origins. -/
def ingest (call : OriginCall) (store : OriginStore) : Option OriginStore := do
  let recorded := match call.sshSessions with
    | some sessions => store.recordSshSessions call.now sessions
    | none => store
  let launched := recorded.recordCrondLaunches call.now call.crondLaunches
  let claimed ← launched.recordJobmanOrigins call.now call.anchors
  let observed := call.observations.foldl (recordLocalOrigin call.now) claimed
  return { observed with
    originSessions := observed.originSessions.deleteKeys
      (oldest observed.originSessions OriginRow.updatedAt sshSessionCap) }

end OriginStore

/-- A call of `ingest`, whose transaction may also roll back for another reason. -/
structure OriginAction where
  call : OriginCall
  commits : Bool := true

def originStep (store : OriginStore) (action : OriginAction) : Option OriginStore :=
  some ((if action.commits then store.ingest action.call else none).getD store)

end DjangoMojo.Sensor
