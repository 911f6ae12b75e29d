import DjangoMojo.Account.Groups
import DjangoMojo.Account.PermissionWrites
import DjangoMojo.Foundation.Trace

/-! # The floor under protected permissions

Members and keys are given permissions by sessions of members and of keys. A protected
permission is looked for by its own name only, so a term that implies it is not protected;
and a key that may manage groups passes the gate of members as a user would.
-/

namespace DjangoMojo.Account

open Foundation

/-! ### Rows and sessions -/

structure MemberRow where
  user : Nat
  group : Nat
  isActive : Bool := true
  permissions : Json := .obj []

structure KeyRow where
  group : Nat
  user : Option Nat := none
  overrideUser : Bool := false
  permissions : Json := .obj []

structure World where
  row : Nat → Option GroupRow
  /-- `User.has_permission`. -/
  userHas : Nat → String → Bool
  memberProtection : Protection
  configured : Protection
  loads : String → Option Json

structure Accounts where
  members : Table Nat MemberRow
  keys : Table Nat KeyRow

inductive Session where
  | user (id : Nat)
  | token (user : Nat)
  | key (id : Nat)

variable (world : World)

/-- `get_member_for_user` with `check_parents`, for a user. -/
def memberFor (members : Table Nat MemberRow) (group user : Nat) : Option Nat :=
  if !isEffectivelyActive world.row group then none
  else match ancestorsFrom world.row (8 + 1) group with
    | .error _ => none
    | .ok groups => groups.findSome? fun found => (members.select fun _ member =>
      member.group = found && member.user = user && member.isActive).getLast?

/-- The row of the user in the group, when `target` is written. -/
def actingRow (members : Table Nat MemberRow) (group user : Nat) (target : Option Nat) : Acting :=
  match memberFor world members group user with
  | none => .nobody
  | some found =>
    if some found = target then .target
    else match members.get found with
      | none => .nobody
      | some member => .other member.permissions

def userRequester (accounts : Accounts) (group user : Nat) (target : Option Nat)
    (confined : Bool) : Requester where
  keyBacked := confined
  overrides := confined
  global := world.userHas user "manage_groups" || world.userHas user "manage_users"
  member := actingRow world accounts.members group user target
  user := world.userHas user

def keyRequester (fields : JsonFields) : Requester where
  keyBacked := true
  global := keyHas fields "manage_groups" || keyHas fields "manage_users"

/-- What the gates see of a session, for a row of the group. -/
def requesterOf (accounts : Accounts) (group : Nat) (target : Option Nat) : Session → Requester
  | .user user => userRequester world accounts group user target false
  | .token user => userRequester world accounts group user target true
  | .key id =>
    match accounts.keys.get id with
    | none => {}
    | some key =>
      match key.overrideUser, key.user with
      | true, some user => userRequester world accounts group user target true
      | _, _ => keyRequester (keyDict world.loads key.permissions)

inductive PermissionWrite where
  | member (session : Session) (target : Nat) (submitted : Submitted)
  | key (session : Session) (target : Nat) (submitted : Submitted)
  | mint (session : Session) (fresh : Nat) (row : KeyRow) (submitted : Submitted)

def permissionStep (accounts : Accounts) : PermissionWrite → Option Accounts
  | .member session target submitted =>
    (accounts.members.get target).map fun member =>
      let result := memberSetPermissions world.memberProtection
        (requesterOf world accounts member.group (some target) session) submitted
        member.permissions
      { accounts with
        members := accounts.members.put target { member with permissions := result.2 } }
  | .key session target submitted =>
    (accounts.keys.get target).map fun key =>
      let result := keySetPermissions world.loads world.configured
        (requesterOf world accounts key.group none session) submitted key.permissions
      { accounts with keys := accounts.keys.put target { key with permissions := result.2 } }
  | .mint session fresh row submitted =>
    if (accounts.keys.get fresh).isSome then none
    else
      let result := keySetPermissions world.loads world.configured
        (requesterOf world accounts row.group none session) submitted (.obj [])
      if result.1 = .done then
        some { accounts with keys := accounts.keys.put fresh { row with permissions := result.2 } }
      else none

/-! ### What is promised, and when -/

def MemberHolds (accounts : Accounts) (perm : String) (member : Nat) : Prop :=
  ∃ row, accounts.members.get member = some row ∧
    memberHas (world.userHas row.user) row.permissions perm = some true

def KeyHolds (accounts : Accounts) (perm : String) (key : Nat) : Prop :=
  ∃ row, accounts.keys.get key = some row ∧ keyHas (keyDict world.loads row.permissions) perm

/-- No row has the protected permission that had it not at the start. -/
def FloorKept (start : Accounts) (perm : String) (accounts : Accounts) : Prop :=
  ((world.memberProtection perm).isSome →
    ∀ member, MemberHolds world accounts perm member → MemberHolds world start perm member) ∧
  ((keyProtection world.configured perm).isSome →
    ∀ key, KeyHolds world accounts perm key → KeyHolds world start perm key)

/-- The requester is a user who may manage all groups or all users. -/
def Requester.isManager (requester : Requester) : Bool :=
  (!requester.keyBacked || requester.overrides) && requester.global

/-- The requester's row, when `own` is stored in the target, holds what protects. -/
def Requester.holdsProtecting (requester : Requester) (own : Json) (specs : List String) : Bool :=
  match requester.member with
  | .nobody => false
  | .target => memberHasAny requester.user own specs = some true
  | .other permissions => memberHasAny requester.user permissions specs = some true

/-- The requester may not give the permission: no such user, and no holder of what protects it. -/
def Requester.ordinary (requester : Requester) (protection : Protection) (own : Json)
    (perm : String) : Bool :=
  !requester.isManager && !requester.holdsProtecting own ((protection perm).getD [])

def OrdinaryWrite (perm : String) (accounts : Accounts) : PermissionWrite → Prop
  | .member session target _ => ∀ row, accounts.members.get target = some row →
      (requesterOf world accounts row.group (some target) session).ordinary world.memberProtection
        row.permissions perm
  | .key session target _ => ∀ row, accounts.keys.get target = some row →
      (requesterOf world accounts row.group none session).ordinary
        (keyProtection world.configured) (.obj []) perm
  | .mint session _ row _ => (requesterOf world accounts row.group none session).ordinary
      (keyProtection world.configured) (.obj []) perm

def NamesOnly (perm : String) (submitted : Submitted) : Prop :=
  ∀ entry ∈ submitted.entries, entry.1 ≠ perm →
    entry.1 ∉ impliedPerms perm ∧ (perm = "full_member" → entry.1 ≠ "guest")

/-- The write goes through the floor: it names the permission itself and no key that implies it;
a key that acts as itself and may manage groups or users does not give it to a member; and
no entry before it gives the requester's own row what protects it. -/
def PlainWrite (perm : String) (accounts : Accounts) : PermissionWrite → Prop
  | .member session target submitted => NamesOnly perm submitted ∧
      ∀ row, accounts.members.get target = some row →
        let requester := requesterOf world accounts row.group (some target) session
        perm ∈ submitted.entries.map Prod.fst →
          (requester.keyBacked && !requester.overrides && requester.global) = false ∧
          ∀ before after, submitted.entries = before ++ after →
            requester.holdsProtecting (memberWith row.permissions before)
              ((world.memberProtection perm).getD []) = false
  | .key _ _ submitted => NamesOnly perm submitted
  | .mint _ _ _ submitted => NamesOnly perm submitted ∧ perm ∉ ["all", "authenticated", "member"]

/-! ### One entry -/

section

variable {granted : Json → Json} {fields : JsonFields} {entry : String × Json} {perm : String}

theorem isSet_withEntry {other : String} (hother : other ≠ entry.1) :
    (withEntry granted fields entry).isSet other = fields.isSet other := by
  rw [JsonFields.isSet, JsonFields.isSet, withEntry]
  split
  · rw [JsonFields.field_set_ne hother]
  · rw [JsonFields.field_pop_ne hother]

theorem any_isSet_withEntry (hentry : entry.1 ∉ impliedPerms perm) :
    (impliedPerms perm).any (JsonFields.isSet (withEntry granted fields entry)) =
      (impliedPerms perm).any (JsonFields.isSet fields) := by
  rw [Bool.eq_iff_iff, List.any_eq_true, List.any_eq_true]
  refine exists_congr fun other => and_congr_right fun hother => ?_
  rw [isSet_withEntry fun heq => hentry (heq ▸ hother)]

theorem memberHas_withEntry (user : String → Bool) (hentry : entry.1 ∉ impliedPerms perm)
    (hguest : perm = "full_member" → entry.1 ≠ "guest") :
    memberHas user (.obj (withEntry granted fields entry)) perm =
      memberHas user (.obj fields) perm := by
  unfold memberHas
  split
  · rfl
  split
  · rfl
  by_cases hfull : perm = "full_member"
  · simp only [hfull, if_true]
    rw [isSet_withEntry (Ne.symm (hguest hfull))]
  · simp only [hfull, if_false, any_isSet_withEntry hentry]

theorem keyHas_withEntry (hentry : entry.1 ∉ impliedPerms perm) :
    keyHas (withEntry granted fields entry) perm = keyHas fields perm := by
  unfold keyHas
  rw [any_isSet_withEntry hentry]

end

/-! ### One write -/

variable {world} {requester : Requester} {submitted : Submitted} {perm : String}
  {protection : Protection} {specs : List String}

theorem memberGate_protected {own : Json} (hprotected : protection perm = some specs)
    (hgate : memberGate protection requester own perm = some true) :
    (!requester.overrides && requester.global) = true ∨
      requester.holdsProtecting own specs = true := by
  unfold memberGate at hgate
  by_cases hglobal : (!requester.overrides && requester.global) = true
  · exact .inl hglobal
  rw [if_neg hglobal] at hgate
  refine .inr ?_
  unfold Requester.holdsProtecting
  cases hmember : requester.member with
  | nobody =>
    rw [hmember] at hgate
    cases hgate
  | target =>
    rw [hmember] at hgate
    simpa [memberMayGrant, hprotected] using hgate
  | other permissions =>
    rw [hmember] at hgate
    simpa [memberMayGrant, hprotected] using hgate

theorem memberSetPermissions_floor {stored : Json} {user : String → Bool}
    (hprotected : protection perm = some specs) (hnames : NamesOnly perm submitted)
    (hordinary : requester.isManager = false)
    (hplain : perm ∈ submitted.entries.map Prod.fst →
      (requester.keyBacked && !requester.overrides && requester.global) = false ∧
      ∀ before after, submitted.entries = before ++ after →
        requester.holdsProtecting (memberWith stored before) specs = false)
    (hrow : memberHas user stored perm ≠ some true) :
    memberHas user (memberSetPermissions protection requester submitted stored).2 perm ≠
      some true := by
  refine @setPermissions_keeps _ _ _ _ _ _ (fun state => memberHas user state perm ≠ some true) ?_ hrow
  intro before entry after hsplit state hstate _ hgate htakes
  have hmem : entry ∈ submitted.entries := by
    rw [hsplit]
    exact List.mem_append_right _ List.mem_cons_self
  by_cases hname : entry.1 = perm
  · -- the gate lets only those through who are excluded
    obtain ⟨hkey, hholds⟩ := hplain (hname ▸ List.mem_map_of_mem hmem)
    rw [hname] at hgate
    rcases memberGate_protected hprotected hgate with hglobal | hholder
    · rw [Bool.and_eq_true, Bool.not_eq_true'] at hglobal
      simp only [Requester.isManager, hglobal.1, hglobal.2, Bool.or_false, Bool.and_true,
        Bool.not_eq_false', Bool.not_false] at hordinary hkey
      rw [hordinary] at hkey
      cases hkey
    · have hnot := hholds before (entry :: after) hsplit
      rw [memberWith] at hnot
      rw [hnot] at hholder
      cases hholder
  · obtain ⟨hentry, hguest⟩ := hnames entry hmem hname
    generalize state = state at hstate htakes
    cases state with
    | obj fields =>
      rw [memberDict, memberHas_withEntry user hentry hguest]
      exact hstate
    | _ => cases htakes

theorem keySetPermissions_floor {loads : String → Option Json} {configured : Protection}
    {stored : Json} (hprotected : (keyProtection configured perm).isSome)
    (hnames : NamesOnly perm submitted)
    (hordinary : requester.ordinary (keyProtection configured) (.obj []) perm)
    (hrow : keyHas (keyDict loads stored) perm = false) :
    keyHas (keyDict loads (keySetPermissions loads configured requester submitted stored).2) perm =
      false := by
  obtain ⟨specs, hspecs⟩ := Option.isSome_iff_exists.mp hprotected
  have hloop : keyHas (keyDict loads (setPermissions (fun _ => keyGate configured requester)
      (keyDict loads) (fun _ => true) id submitted.entries stored).2) perm = false := by
    refine @setPermissions_keeps _ _ _ _ _ _ (fun state => keyHas (keyDict loads state) perm = false)
      ?_ hrow
    intro before entry after hsplit state hstate _ hgate _
    have hmem : entry ∈ submitted.entries := by
      rw [hsplit]
      exact List.mem_append_right _ List.mem_cons_self
    by_cases hname : entry.1 = perm
    · rw [hname, keyGate] at hgate
      rw [Requester.ordinary, Bool.and_eq_true, Bool.not_eq_true', Bool.not_eq_true'] at hordinary
      obtain ⟨hmanager, hholds⟩ := hordinary
      rw [hspecs, Option.getD_some] at hholds
      cases hbacked : requester.keyBacked with
      | true =>
        rw [hbacked, hspecs] at hgate
        cases hgate
      | false =>
        rw [hbacked, Bool.false_and, if_neg Bool.false_ne_true] at hgate
        rcases memberGate_protected hspecs hgate with hglobal | hholder
        · rw [Bool.and_eq_true] at hglobal
          rw [Requester.isManager, hbacked, hglobal.2] at hmanager
          cases hmanager
        · rw [hholds] at hholder
          cases hholder
    · rw [keyDict, keyHas_withEntry (hnames entry hmem hname).1]
      exact hstate
  unfold keySetPermissions
  split
  next heq => rwa [heq] at hloop
  next => exact hrow

/-! ### Whole runs -/

variable {start accounts next : Accounts} {write : PermissionWrite}

theorem FloorKept.trans (hfirst : FloorKept world start perm accounts)
    (hsecond : FloorKept world accounts perm next) : FloorKept world start perm next where
  left hprotected member hholds := hfirst.1 hprotected member (hsecond.1 hprotected member hholds)
  right hprotected key hholds := hfirst.2 hprotected key (hsecond.2 hprotected key hholds)

theorem keys_put_kept {key : Nat} {row : KeyRow}
    (hkey : (keyProtection world.configured perm).isSome →
      keyHas (keyDict world.loads row.permissions) perm → KeyHolds world accounts perm key) :
    FloorKept world accounts perm { accounts with keys := accounts.keys.put key row } := by
  refine ⟨fun _ _ hholds => hholds, fun hprotected other hholds => ?_⟩
  obtain ⟨found, hfound, hhas⟩ := hholds
  rw [Table.get_put] at hfound
  by_cases heq : other = key
  · subst heq
    rw [if_pos rfl] at hfound
    cases hfound
    exact hkey hprotected hhas
  · rw [if_neg heq] at hfound
    exact ⟨found, hfound, hhas⟩

theorem permissionStep_floor (hordinary : OrdinaryWrite world perm accounts write)
    (hplain : PlainWrite world perm accounts write)
    (hstep : permissionStep world accounts write = some next) :
    FloorKept world accounts perm next := by
  cases write with
  | member session target submitted =>
    obtain ⟨row, hrow, rfl⟩ := Option.map_eq_some_iff.mp hstep
    obtain ⟨hnames, hplain⟩ := hplain
    have hordinary := hordinary row hrow
    refine ⟨fun hprotected member hholds => ?_, fun _ _ hholds => hholds⟩
    obtain ⟨specs, hspecs⟩ := Option.isSome_iff_exists.mp hprotected
    obtain ⟨found, hfound, hhas⟩ := hholds
    rw [Table.get_put] at hfound
    by_cases heq : member = target
    · subst heq
      rw [if_pos rfl] at hfound
      cases hfound
      refine ⟨row, hrow, ?_⟩
      by_contra hnot
      rw [Requester.ordinary, Bool.and_eq_true, Bool.not_eq_true'] at hordinary
      have hplain := hplain row hrow
      simp only [hspecs, Option.getD_some] at hplain
      exact memberSetPermissions_floor hspecs hnames hordinary.1 hplain hnot hhas
    · rw [if_neg heq] at hfound
      exact ⟨found, hfound, hhas⟩
  | key session target submitted =>
    obtain ⟨row, hrow, rfl⟩ := Option.map_eq_some_iff.mp hstep
    refine keys_put_kept fun hprotected hhas => ⟨row, hrow, ?_⟩
    by_contra hnot
    rw [keySetPermissions_floor hprotected hplain (hordinary row hrow)
      (eq_false_of_ne_true hnot)] at hhas
    cases hhas
  | mint session fresh row submitted =>
    simp only [permissionStep] at hstep
    split at hstep
    next => cases hstep
    next =>
      split at hstep <;> cases hstep
      refine keys_put_kept fun hprotected hhas => ?_
      have hempty : keyHas (keyDict world.loads (.obj [])) perm = false := by
        unfold keyHas
        split
        · rfl
        rw [if_neg hplain.2, List.any_eq_false]
        exact fun _ _ => Bool.false_ne_true
      rw [keySetPermissions_floor hprotected hplain.1 hordinary hempty] at hhas
      cases hhas

/-- In every run of ordinary and plain writes nobody gains a protected permission. -/
theorem floor_stays (world : World) (perm : String) (start : Accounts)
    (writes : List PermissionWrite)
    (hwrites : EachStep (permissionStep world) (fun accounts write _ =>
      OrdinaryWrite world perm accounts write ∧ PlainWrite world perm accounts write)
      start writes) :
    Always (permissionStep world) (FloorKept world start perm) start writes := by
  have hstart : FloorKept world start perm start :=
    ⟨fun _ _ hholds => hholds, fun _ _ hholds => hholds⟩
  have hstep (accounts : Accounts) (write : PermissionWrite) (next : Accounts)
      (hkept : FloorKept world start perm accounts)
      (hwrite : OrdinaryWrite world perm accounts write ∧ PlainWrite world perm accounts write)
      (hstep : permissionStep world accounts write = some next) :
      FloorKept world start perm next :=
    hkept.trans (permissionStep_floor hwrite.1 hwrite.2 hstep)
  exact always_of_eachStep hstep hstart hwrites

/-! ### A term that implies a protected permission -/

/-- One group; what may manage users is protected for members and for keys. -/
def smallWorld : World where
  row id := if id = 1 then some {} else none
  userHas _ _ := false
  memberProtection perm := if perm = "manage_users" then some ["sys.root"] else none
  configured perm := if perm = "manage_users" then some ["sys.root"] else none
  loads _ := none

/-- User 5 may manage the group, and user 6 has no permission. -/
def smallAccounts : Accounts where
  members := (Table.empty.put 10 {
    user := 5, group := 1, permissions := .obj [("manage_group", .bool true)] }).put 11
      { user := 6, group := 1 }
  keys := .empty

def oneEntry (perm : String) : Submitted := ⟨[(perm, .bool true)], List.nodup_singleton _⟩

theorem smallWrite_ordinary (perm : String) : OrdinaryWrite smallWorld "manage_users" smallAccounts
    (.member (.user 5) 11 (oneEntry perm)) := by
  intro row hrow
  cases hrow
  rfl

theorem reports_keep_floor : Always (permissionStep smallWorld)
    (FloorKept smallWorld smallAccounts "manage_users") smallAccounts
    [.member (.user 5) 11 (oneEntry "reports")] := by
  refine floor_stays smallWorld "manage_users" smallAccounts _ fun next _ =>
    ⟨⟨smallWrite_ordinary "reports", ?_, ?_⟩, trivial⟩
  · intro entry hentry _
    rw [List.mem_singleton.mp hentry]
    decide
  · intro row _ _ hmem
    exact absurd hmem (by decide)

/-- A manager of a group gives a member the term `users`, which is not protected. -/
theorem not_always_floor : ¬ ∀ (world : World) (perm : String) (start : Accounts)
    (writes : List PermissionWrite),
    EachStep (permissionStep world) (fun accounts write _ => OrdinaryWrite world perm accounts write)
      start writes → Always (permissionStep world) (FloorKept world start perm) start writes := by
  intro hall
  have hkept := hall smallWorld "manage_users" smallAccounts
    [.member (.user 5) 11 (oneEntry "users")] fun next _ => ⟨smallWrite_ordinary "users", trivial⟩
  obtain ⟨next, hnext⟩ : ∃ next, permissionStep smallWorld smallAccounts
      (.member (.user 5) 11 (oneEntry "users")) = some next := ⟨_, rfl⟩
  have hgained : MemberHolds smallWorld next "manage_users" 11 := by
    cases hnext
    exact ⟨_, rfl, by rfl⟩
  obtain ⟨row, hrow, hhas⟩ := (hkept.2 next hnext).1 rfl 11 hgained
  cases hrow
  cases hhas

end DjangoMojo.Account
