import DjangoMojo.Foundation.PythonDict

/-! # Permissions of members and keys

A permission is a key of a dictionary. Who may write it is asked of the requester for every
entry that is not stored already.
-/

namespace DjangoMojo.Account

open Foundation

/-! ### Checks -/

/-- `DOMAIN_CATEGORIES`. -/
def domainCategories : List String :=
  ["users", "groups", "security", "comms", "jobs", "metrics", "files"]

/-- `implied_perms`: the keys whose holder satisfies a check. -/
def impliedPerms (perm : String) : List String :=
  match domainCategories.find? fun base => perm = "view_" ++ base || perm = "manage_" ++ base with
  | some base => [perm, base]
  | none => [perm]

def systemPerm (perm : String) : Option String :=
  if "sys.".toList.isPrefixOf perm.toList then some (String.ofList (perm.toList.drop 4)) else none

/-- `GroupMember.has_permission` for one key. A column that is no dictionary has no `get`. -/
def memberHas (user : String → Bool) (permissions : Json) (perm : String) : Option Bool :=
  match systemPerm perm with
  | some bare => some (user bare)
  | none =>
    if perm ∈ ["all", "authenticated", "member"] then some true
    else match permissions with
      | .obj fields =>
        if perm = "full_member" then some (!JsonFields.isSet fields "guest")
        else some ((impliedPerms perm).any (JsonFields.isSet fields))
      | _ => none

/-- `GroupMember.has_permission` for a list. -/
def memberHasAny (user : String → Bool) (permissions : Json) : List String → Option Bool
  | [] => some false
  | perm :: rest =>
    match memberHas user permissions perm with
    | some false => memberHasAny user permissions rest
    | decided => decided

/-- `ApiKey.has_permission` for one key. -/
def keyHas (fields : JsonFields) (perm : String) : Bool :=
  if (systemPerm perm).isSome then false
  else if perm ∈ ["all", "authenticated", "member"] then true
  else (impliedPerms perm).any fields.isSet

/-- `APIKEY_PERMS_PROTECTION_DEFAULTS`. -/
def keyProtectionDefaults : List (String × List String) :=
  [("geoip_sync", ["sys.geoip_sync"]),
    ("dnsman_acme_federation", ["sys.dnsman_acme_federation"]),
    ("edge_node", ["sys.edge_node"]),
    ("mojosec_ingest", ["sys.mojosec_ingest"])]

/-- What the settings ask for a permission; a single key is a list of one. -/
abbrev Protection := String → Option (List String)

/-- `_apikey_perms_protection`: the defaults win over what is configured. -/
def keyProtection (configured : Protection) : Protection := fun perm =>
  (keyProtectionDefaults.lookup perm).or (configured perm)

/-! ### Who asks -/

inductive Acting where
  | nobody
  | target
  | other (permissions : Json)

structure Requester where
  /-- `is_key_backed_session`. -/
  keyBacked : Bool := false
  /-- `is_override_user_session`. -/
  overrides : Bool := false
  /-- `request.user.has_permission(["manage_groups", "manage_users"])`. -/
  global : Bool := false
  member : Acting := .nobody
  /-- `has_permission` of the user of that row. -/
  user : String → Bool := fun _ => false

def managerPerms : List String := ["manage_group", "manage_members", "manage_users", "manage_groups"]

def memberMayGrant (protection : Protection) (user : String → Bool) (permissions : Json)
    (perm : String) : Option Bool :=
  memberHasAny user permissions ((protection perm).getD managerPerms)

/-- `GroupMember.can_change_permission`, when `own` is stored in the row. -/
def memberGate (protection : Protection) (requester : Requester) (own : Json) (perm : String) :
    Option Bool :=
  if !requester.overrides && requester.global then some true
  else match requester.member with
    | .nobody => some false
    | .target => memberMayGrant protection requester.user own perm
    | .other permissions => memberMayGrant protection requester.user permissions perm

/-- `ApiKey.can_change_permission`. No member row is the row of a key. -/
def keyGate (configured : Protection) (requester : Requester) (perm : String) : Option Bool :=
  if requester.keyBacked && (keyProtection configured perm).isSome then some false
  else memberGate (keyProtection configured) requester (.obj []) perm

/-! ### Writes -/

structure Submitted where
  entries : List (String × Json)
  nodup : (entries.map Prod.fst).Nodup

inductive Outcome where
  | done | denied
  | raised
  deriving DecidableEq

def isNoop (fields : JsonFields) (entry : String × Json) : Bool :=
  let stored := (fields.field entry.1).getD (.bool false)
  if entry.2.truthy then stored.pyEq entry.2 else !stored.truthy

/-- The dictionary with an entry; `granted` is what is stored for one that is true. -/
def withEntry (granted : Json → Json) (fields : JsonFields) (entry : String × Json) : JsonFields :=
  if entry.2.truthy then fields.set entry.1 (granted entry.2) else fields.pop entry.1

/-- The loop of both setters; `read` makes a dictionary of a column, and a column that
does not take a new entry raises. -/
def setPermissions (gate : Json → String → Option Bool) (read : Json → JsonFields)
    (takes : Json → Bool) (granted : Json → Json) : List (String × Json) → Json → Outcome × Json
  | [], row => (.done, row)
  | entry :: rest, row =>
    if isNoop (read row) entry then setPermissions gate read takes granted rest row
    else match gate row entry.1 with
      | none => (.raised, row)
      | some false => (.denied, row)
      | some true =>
        if takes row then
          setPermissions gate read takes granted rest (.obj (withEntry granted (read row) entry))
        else (.raised, row)

def memberDict : Json → JsonFields
  | .obj fields => fields
  | _ => []

def isDict : Json → Bool
  | .obj _ => true
  | _ => false

/-- `GroupMember.set_permissions`. Each entry is saved when it is written, so what the loop
leaves is what is stored. -/
def memberSetPermissions (protection : Protection) (requester : Requester) (submitted : Submitted)
    (stored : Json) : Outcome × Json :=
  setPermissions (memberGate protection requester) memberDict isDict (fun _ => .bool true)
    submitted.entries stored

/-- `_get_permissions_dict`; `loads` stands for `json.loads`. -/
def keyDict (loads : String → Option Json) : Json → JsonFields
  | .obj fields => fields
  | .str text => (loads text).elim [] memberDict
  | _ => []

/-- `ApiKey.set_permissions` in memory, and the row after the request: an exception ends it
before the key is saved. -/
def keySetPermissions (loads : String → Option Json) (configured : Protection)
    (requester : Requester) (submitted : Submitted) (stored : Json) : Outcome × Json :=
  match setPermissions (fun _ => keyGate configured requester) (keyDict loads) (fun _ => true) id
      submitted.entries stored with
  | (.done, row) => (.done, row)
  | (outcome, _) => (outcome, stored)

end DjangoMojo.Account
