import Mathlib.Data.Finset.Card
import Mathlib.Data.Finset.Range

/-! # The handlers of one identity and its presence set

Every socket has a handler, whose tasks hand Redis work to an executor: a call
runs command by command among those of all other handlers, and goes on when the
task that waits for it is cancelled. The presence set is one key with a TTL.
Times are milliseconds.
-/

namespace DjangoMojo.Realtime

abbrev Time := Int

def onlineTtl : Int := 300000

def presenceRefreshMinInterval : Int := 30000

def authIdleTimeout : Int := 30000

/-- `WS_MAX_CONNECTIONS`, where nothing is capped unless it is positive, and `WS_UNAUTH_TIMEOUT`. -/
structure Config where
  maxConnections : Int := 10
  unauthTimeout : Int := 10000

/-! ### The presence set -/

/-- A set of connection ids; an empty set is a missing key. -/
structure Presence where
  members : Finset Nat
  expiry : Option Time
  deriving DecidableEq

namespace Presence

def missing : Presence := ⟨∅, none⟩

def sadd (online : Presence) (id : Nat) : Presence :=
  { online with members := insert id online.members }

def srem (online : Presence) (id : Nat) : Presence :=
  if online.members.erase id = ∅ then missing
  else { online with members := online.members.erase id }

def scard (online : Presence) : Nat := online.members.card

/-- `EXPIRE key ONLINE_TTL_SECONDS`. -/
def expire (online : Presence) (now : Time) : Presence :=
  if online.members = ∅ then missing else { online with expiry := some (now + onlineTtl) }

def isExpired (online : Presence) (now : Time) : Bool := online.expiry.any (· ≤ now)

def after (online : Presence) (now : Time) : Presence :=
  if online.isExpired now then missing else online

end Presence

/-! ### Messages between processes -/

/-- A message on the channel of a connection, with the `type` inside its data. -/
structure Message where
  type : String
  dataType : String
  deriving DecidableEq

/-- The message of `send_to_connection` about some data. -/
def sendToConnection (dataType : String) : Message := ⟨"direct_message", dataType⟩

/-- What `disconnect_user` sends to every connection that it finds. -/
def disconnectMessage : Message := sendToConnection "disconnect"

inductive Reaction where
  | forward | close | ignore
  deriving DecidableEq

/-- `process_redis_message`. -/
def processRedisMessage (message : Message) : Reaction :=
  if message.type ∈ ["broadcast", "topic_message", "direct_message"] then .forward
  else if message.type = "direct_event" then .forward
  else if message.type = "disconnect" then .close
  else .ignore

/-! ### Handlers -/

/-- Where an executor call stands: the command that it runs next, or its result. -/
inductive Call where
  /-- `scard`, for the cap. -/
  | count
  /-- `sadd`, then `expire`, of `register_user_online`. -/
  | add
  | expireAdded
  /-- `expire` of `refresh_presence`. -/
  | refresh
  | other
  | returned (value : Nat)
  deriving DecidableEq

inductive Task where
  | idle
  | counting
  | updating
  | registering
  | subscribing
  | refreshing
  | calling
  | ended
  deriving DecidableEq

/-- How far `cleanup_connection` has come. -/
inductive Cleanup where
  | none
  | remove
  | card
  | delete
  | expire
  | done
  deriving DecidableEq

structure Handler where
  isOpen : Bool
  /-- `user` and `user_type` are set together with it. -/
  authenticated : Bool
  subscribed : Bool
  lastActivity : Time
  lastPresenceRefresh : Time
  task : Task
  /-- The executor call of the task, which goes on when the task is cancelled. -/
  call : Option Call
  cleanup : Cleanup
  mail : List Message
  deriving DecidableEq

namespace Handler

def connected (now : Time) : Handler where
  isOpen := true
  authenticated := false
  subscribed := false
  lastActivity := now
  lastPresenceRefresh := 0
  task := .idle
  call := none
  cleanup := .none
  mail := []

def waits (handler : Handler) : Bool := handler.isOpen && handler.task = .idle

/-- The cap is passed: the user is set and `update_connection_auth` is called. -/
def accept (handler : Handler) : Handler :=
  { handler with authenticated := true, task := .updating, call := some .other }

/-- The end of a call, whose result nobody waits for when the task was cancelled. -/
def finish (handler : Handler) (value : Nat) : Handler :=
  { handler with call := if handler.task = .ended then none else some (.returned value) }

/-- `cleanup_connection` begins; it leaves the presence set alone when no user is set. -/
def leave (handler : Handler) : Handler :=
  { handler with
    task := .ended
    cleanup := if handler.authenticated then .remove else .done }

def resume (config : Config) (handler : Handler) (value : Nat) : Option Handler :=
  match handler.task with
  | .counting =>
    if config.maxConnections ≤ value then
      -- `Too many connections`
      some { handler with isOpen := false, task := .idle, call := none }
    else some handler.accept
  | .updating => some { handler with task := .registering, call := some .add }
  | .registering => some { handler with task := .subscribing, call := some .other }
  | .subscribing => some { handler with task := .calling, call := some .other }
  | .refreshing | .calling => some { handler with task := .idle, call := none }
  | .idle | .ended => none

end Handler

/-! ### The system -/

structure System where
  now : Time
  online : Presence
  handlers : List Handler
  /-- The connections to which `disconnect_user` has still to publish. -/
  publishing : List Nat
  /-- The connections that were open at some call of `disconnect_user`. -/
  forced : List Nat
  deriving DecidableEq

inductive Action where
  | tick (elapsed : Nat)
  | connect
  | authenticate (id : Nat)
  | ping (id : Nat)
  | message (id : Nat)
  | exec (id : Nat)
  | resume (id : Nat)
  /-- The socket closes, from the client's side or because sending fails. -/
  | close (id : Nat)
  /-- `activity_timeout` finds the connection idle. -/
  | timeout (id : Nat)
  | leave (id : Nat)
  /-- The task of a closed socket is cancelled while it waits for a call. -/
  | cancel (id : Nat)
  | clean (id : Nat)
  /-- `disconnect_user` reads the connections, in some order. -/
  | disconnectUser (order : List Nat)
  | publish
  | deliver (id : Nat)
  deriving DecidableEq

namespace System

def start : System := ⟨0, .missing, [], [], []⟩

/-- `get_user_connections`. -/
def getUserConnections (system : System) : Finset Nat := system.online.members

def matching (system : System) (condition : Handler → Bool) : Finset Nat :=
  (Finset.range system.handlers.length).filter fun id =>
    (system.handlers[id]?).any condition

def openConnections (system : System) : Finset Nat :=
  system.matching fun handler => handler.isOpen && handler.authenticated

def put (system : System) (id : Nat) (handler : Handler)
    (online : Presence := system.online) : System :=
  { system with handlers := system.handlers.set id handler, online }

def exec (system : System) (id : Nat) (handler : Handler) : Call → Option System
  | .count => some (system.put id (handler.finish system.online.scard))
  | .add => some (system.put id { handler with call := some .expireAdded } (system.online.sadd id))
  | .expireAdded | .refresh => some (system.put id (handler.finish 0)
      (system.online.expire system.now))
  | .other => some (system.put id
      { handler.finish 0 with subscribed := handler.subscribed || handler.task = .subscribing })
  | .returned _ => none

def clean (system : System) (id : Nat) (handler : Handler) : Option System :=
  match handler.cleanup with
  | .none | .done => none
  | .remove => some (system.put id { handler with cleanup := .card } (system.online.srem id))
  | .card => some (system.put id
      { handler with cleanup := if system.online.scard = 0 then .delete else .expire })
  | .delete => some (system.put id { handler with cleanup := .done } .missing)
  | .expire => some (system.put id { handler with cleanup := .done }
      (system.online.expire system.now))

def onHandler (config : Config) (system : System) (id : Nat) (handler : Handler) :
    Action → Option System
  | .authenticate _ =>
    if handler.waits && !handler.authenticated then
      let active := { handler with lastActivity := system.now }
      some (system.put id (if 0 < config.maxConnections then
        { active with task := .counting, call := some .count } else active.accept))
    else none
  | .ping _ =>
    if handler.waits && handler.authenticated then
      let active := { handler with lastActivity := system.now }
      some (system.put id
        (if system.now - handler.lastPresenceRefresh < presenceRefreshMinInterval then active
        else { active with lastPresenceRefresh := system.now, task := .refreshing,
                           call := some .refresh }))
    else none
  | .message _ =>
    if handler.waits then
      let active := { handler with lastActivity := system.now }
      some (system.put id (if handler.authenticated then
        { active with task := .calling, call := some .other } else active))
    else none
  | .exec _ =>
    match handler.call with
    | none => none
    | some call => system.exec id handler call
  | .resume _ =>
    match handler.call with
    | some (.returned value) => (handler.resume config value).map fun next => system.put id next
    | _ => none
  | .close _ =>
    if handler.isOpen then some (system.put id { handler with isOpen := false }) else none
  | .timeout _ =>
    let threshold := if handler.authenticated then authIdleTimeout else config.unauthTimeout
    if handler.isOpen && threshold ≤ system.now - handler.lastActivity then
      some (system.put id { handler with isOpen := false })
    else none
  | .leave _ =>
    if !handler.isOpen && handler.task = .idle then some (system.put id handler.leave) else none
  | .cancel _ =>
    if handler.isOpen || handler.task = .idle || handler.task = .ended then none
    else
      let call := match handler.call with
        | some (.returned _) => none
        | running => running
      some (system.put id { handler.leave with call })
  | .clean _ => system.clean id handler
  | .deliver _ =>
    match handler.mail with
    | [] => none
    | message :: rest =>
      if handler.cleanup = .none then
        some (system.put id { handler with
          mail := rest
          isOpen := handler.isOpen && processRedisMessage message ≠ .close })
      else none
  | _ => none

end System

def Action.handler? : Action → Option Nat
  | .authenticate id | .ping id | .message id | .exec id | .resume id | .close id | .timeout id
  | .leave id | .cancel id | .clean id | .deliver id => some id
  | .tick _ | .connect | .disconnectUser _ | .publish => none

namespace System

def onSystem (system : System) : Action → Option System
  | .tick elapsed => some { system with
      now := system.now + elapsed, online := system.online.after (system.now + elapsed) }
  | .connect => some { system with handlers := system.handlers ++ [.connected system.now] }
  | .disconnectUser order =>
    if order.toFinset = system.getUserConnections && order.Nodup then
      some { system with
        publishing := system.publishing ++ order
        forced := system.forced ++ (List.range system.handlers.length).filter
          (· ∈ system.openConnections) }
    else none
  | .publish =>
    match system.publishing with
    | [] => none
    | id :: rest => some { system with
        publishing := rest
        handlers := system.handlers.modify id fun handler =>
          if handler.subscribed then { handler with mail := handler.mail ++ [disconnectMessage] }
          else handler }
  | _ => none

def step (config : Config) (system : System) (action : Action) : Option System :=
  match action.handler? with
  | none => system.onSystem action
  | some id =>
    match system.handlers[id]? with
    | none => none
    | some handler => system.onHandler config id handler action

end System

end DjangoMojo.Realtime
