import DjangoMojo.Foundation.Table
import DjangoMojo.Account.Setting

/-! # The cache of settings

Writers change the table of settings and the cache in separate commands, in or outside a
transaction; `resolve` reads the cache first and fills in what it finds in the table. Readers see
the table as it is committed. No cache entry expires.
-/

namespace DjangoMojo.Account.SettingsCache

open Foundation

structure Entry where
  group : Option Nat
  key : String
deriving DecidableEq

structure Row where
  group : Option Nat
  key : String
  setting : Setting

def Row.entry (row : Row) : Entry := ⟨row.group, row.key⟩

abbrev Rows := Table Nat Row

namespace Rows

/-- `filter(key=…, group=…)`. -/
def filter (rows : Rows) (entry : Entry) : List Nat :=
  rows.select fun _ row => row.entry = entry

def first (rows : Rows) (entry : Entry) : Option Row :=
  (rows.filter entry).head?.bind rows.get

/-- The value of `get_from_db`, where a row is found. -/
def getFromDb (rows : Rows) (entry : Entry) : Option Json :=
  (rows.first entry).map fun row => row.setting.getValue

/-- Another row of the same group has the key. Global rows are not compared. -/
def conflicts (rows : Rows) (id : Nat) (row : Row) : Bool :=
  row.group.isSome && (rows.filter row.entry).any (· ≠ id)

end Rows

/-! ### Resolving -/

abbrev Cache := Entry → Option String

/-- The scopes that `resolve` walks: the groups of the chain, and the global scope. -/
def scopes (chain : List Nat) : List (Option Nat) := chain.map some ++ [none]

/-- What `resolve` returns by itself, and the cache it leaves. -/
def resolve (dumps : Dumps) (rows : Rows) (name : String) (default : Json) :
    List (Option Nat) → Cache → Json × Cache
  | [], cache => (default, cache)
  | group :: rest, cache =>
    match cache ⟨group, name⟩ with
    | some text => (.str text, cache)
    | none =>
      match rows.getFromDb ⟨group, name⟩ with
      | some value =>
        (value, Function.update cache ⟨group, name⟩ (some (dumps.asText value)))
      | none => resolve dumps rows name default rest cache

def determined (rows : Rows) (name : String) (default : Json) : List (Option Nat) → Json
  | [] => default
  | group :: rest =>
    match rows.getFromDb ⟨group, name⟩ with
    | some value => value
    | none => determined rows name default rest

/-- A `resolve` that is under way, at the first of the scopes that are left. -/
inductive Reader
  | asking (name : String) (scopes : List (Option Nat))
  | selecting (name : String) (group : Option Nat) (rest : List (Option Nat))
  | filling (entry : Entry) (value : Json)

/-! ### Writing -/

inductive Command
  | save (id : Nat) (row : Row)
  | push (row : Row)
  | evict (entry : Entry)
  | delete (id : Nat)

inductive Change
  | put (id : Nat) (row : Row)
  | drop (id : Nat)

def Change.apply (rows : Rows) : Change → Rows
  | .put id row => rows.put id row
  | .drop id => rows.delete id

/-- A writer: its transaction, if it has one, and the commands that are left of a call. -/
structure Session where
  atomic : Bool
  commands : List Command
  changes : List Change
  pushed : List Entry

def Session.view (session : Session) (rows : Rows) : Rows :=
  session.changes.foldl Change.apply rows

inductive Call
  | set (fresh : Nat) (entry : Entry) (raw : Json) (isSecret : Bool)
  | restCreate (fresh : Nat) (entry : Entry) (body : SettingBody)
  | restSave (id : Nat) (key : Option String) (group : Option (Option Nat)) (body : SettingBody)
  | remove (entry : Entry)
  | delete (id : Nat)

/-- `s.is_secret = is_secret; s.set_value(value)`. -/
def Row.write (dumps : Dumps) (row : Row) (raw : Json) (isSecret : Bool) : Row :=
  { row with setting := { row.setting with isSecret }.setValue dumps raw }

/-- The commands of a call, where the rows are as its session sees them. -/
def Call.commands (dumps : Dumps) (rows : Rows) : Call → List Command
  | .set fresh entry raw isSecret =>
    match rows.filter entry with
    | [] =>
      if (rows.get fresh).isSome then []
      else
        let blank : Row := ⟨entry.group, entry.key, { Setting.blank with isSecret }⟩
        let row := blank.write dumps raw isSecret
        [.save fresh blank, .save fresh row, .push row]
    | [id] =>
      match rows.get id with
      | some row =>
        let row := row.write dumps raw isSecret
        [.save id row, .push row]
      | none => []
    -- `get_or_create` raises for several rows
    | _ => []
  | .restCreate fresh entry body =>
    if (rows.get fresh).isSome then []
    else [.save fresh ⟨entry.group, entry.key, onRestSave dumps .blank body⟩]
  | .restSave id key group body =>
    match rows.get id with
    | some row =>
      [.save id ⟨group.getD row.group, key.getD row.key, onRestSave dumps row.setting body⟩]
    | none => []
  | .remove entry =>
    match rows.filter entry with
    | id :: _ => [.evict entry, .evict entry, .delete id]
    | [] => []
  | .delete id =>
    match rows.get id with
    | some row => [.evict row.entry, .delete id]
    | none => []

/-! ### Steps -/

structure World where
  rows : Rows
  cache : Cache
  sessions : Table Nat Session
  readers : Table Nat Reader

inductive Label
  | openSession (id : Nat) (atomic : Bool)
  | call (id : Nat) (call : Call)
  | next (id : Nat)
  /-- A check of the key or of the value, or the constraint, refuses to save. -/
  | refuse (id : Nat)
  /-- A session ends, a transaction with `COMMIT` or with `ROLLBACK`. -/
  | close (id : Nat) (commits : Bool)
  | resolve (id : Nat) (name : String) (chain : List Nat)
  | read (id : Nat)

namespace World

def start : World := ⟨.empty, fun _ => none, .empty, .empty⟩

def setSession (world : World) (id : Nat) (session : Session) : World :=
  { world with sessions := world.sessions.put id session }

def setCache (world : World) (entry : Entry) (text : Option String) : World :=
  { world with cache := Function.update world.cache entry text }

/-- A change of the table, which waits for the end of a transaction. -/
def change (world : World) (session : Session) (change : Change) : World × Session :=
  if session.atomic then (world, { session with changes := session.changes ++ [change] })
  else ({ world with rows := change.apply world.rows }, session)

/-- The text that `push_to_cache` writes, where it does not delete. -/
def pushed (dumps : Dumps) (row : Row) : Option String :=
  match row.setting.getValue with
  | .null => none
  | value => some (dumps.asText value)

def next (dumps : Dumps) (world : World) (id : Nat) (session : Session) : Option World :=
  match session.commands with
  | [] => none
  | .save key row :: rest =>
    if (session.view world.rows).conflicts key row then none
    else
      -- a save pushes what it has saved
      let (world, session) := world.change session (.put key row)
      some (world.setSession id { session with commands := .push row :: rest })
  | .push row :: rest =>
    let text := pushed dumps row
    some ((world.setCache row.entry text).setSession id { session with
      commands := rest
      pushed := if text.isSome then row.entry :: session.pushed else session.pushed })
  | .evict entry :: rest =>
    some ((world.setCache entry none).setSession id { session with commands := rest })
  | .delete key :: rest =>
    let (world, session) := world.change session (.drop key)
    some (world.setSession id { session with commands := rest })

def close (world : World) (id : Nat) (session : Session) (commits : Bool) : Option World :=
  let closed := { world with sessions := world.sessions.delete id }
  if commits then
    if session.commands.isEmpty then
      some (if session.atomic then { closed with rows := session.view world.rows } else closed)
    else none
  else if session.atomic then some closed
  else none

def read (dumps : Dumps) (world : World) (id : Nat) : Reader → World
  | .asking _ [] => { world with readers := world.readers.delete id }
  | .asking name (group :: rest) =>
    match world.cache ⟨group, name⟩ with
    | some _ => { world with readers := world.readers.delete id }
    | none => { world with readers := world.readers.put id (.selecting name group rest) }
  | .selecting name group rest =>
    match world.rows.getFromDb ⟨group, name⟩ with
    | some value => { world with readers := world.readers.put id (.filling ⟨group, name⟩ value) }
    | none => { world with readers := world.readers.put id (.asking name rest) }
  | .filling entry value =>
    { world.setCache entry (some (dumps.asText value)) with
      readers := world.readers.delete id }

def step (dumps : Dumps) (world : World) : Label → Option World
  | .openSession id atomic =>
    if (world.sessions.get id).isSome then none
    else some (world.setSession id ⟨atomic, [], [], []⟩)
  | .call id call =>
    (world.sessions.get id).bind fun session =>
      if session.commands.isEmpty then
        some (world.setSession id { session with
          commands := call.commands dumps (session.view world.rows) })
      else none
  | .next id => (world.sessions.get id).bind fun session => world.next dumps id session
  | .refuse id =>
    (world.sessions.get id).bind fun session =>
      match session.commands with
      | .save _ _ :: _ => some (world.setSession id { session with commands := [] })
      | _ => none
  | .close id commits =>
    (world.sessions.get id).bind fun session => world.close id session commits
  | .resolve id name chain =>
    if (world.readers.get id).isSome then none
    else some { world with readers := world.readers.put id (.asking name (scopes chain)) }
  | .read id => (world.readers.get id).map fun reader => world.read dumps id reader

end World

end DjangoMojo.Account.SettingsCache
