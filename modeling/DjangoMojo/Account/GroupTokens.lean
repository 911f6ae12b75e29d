import DjangoMojo.Account.Groups
import DjangoMojo.Foundation.Json
import DjangoMojo.Foundation.Trace

/-! # Tokens of a group

A token names a user, a group, the time of its issue and the epoch of the group. The epoch is
kept in the metadata of the group, and every save of the metadata writes all of it, as the
object holds it.
-/

namespace DjangoMojo.Account

open Foundation

/-! ### Tokens -/

structure Payload where
  user : Nat
  group : Nat
  epoch : Int
  issuedAt : Int
  deriving DecidableEq

def Payload.fields (payload : Payload) : JsonFields :=
  [("u", .int payload.user), ("g", .int payload.group), ("e", .int payload.epoch),
    ("iat", .int payload.issuedAt)]

structure Token (Body Signature : Type) where
  version : String
  body : Body
  signature : Signature
  deriving DecidableEq

structure Signing (Body Signature : Type) where
  /-- `b64_encode` and `b64_decode`. -/
  encode : Payload → Body
  decode : Body → Option JsonFields
  decode_encode : ∀ payload, decode (encode payload) = some payload.fields
  /-- `sign` and `verify`. -/
  sign : String → Body → Nat → Signature
  verify : String → Body → Signature → Nat → Bool
  verify_iff : ∀ version body signature key,
    verify version body signature key ↔ signature = sign version body key

/-- `TOKEN_VERSION`. -/
def tokenVersion : String := "gt1"

/-- `_MAX_FUTURE_SKEW`. -/
def maxFutureSkew : Int := 60

def invalidToken : String := "Invalid group token"

def expiredToken : String := "Group token expired"

/-- `_payload_int`; a boolean is no integer here. -/
def payloadInt (fields : JsonFields) (key : String) : Option Int :=
  match fields.field key with
  | some (.int value) => some value
  | _ => none

/-! ### The database -/

structure TokenUser where
  isActive : Bool := true
  isSuperuser : Bool := false
  authKey : Nat

/-- The metadata of a group: what is stored as its epoch, and everything else. -/
structure GroupMetadata where
  epoch : Option Json := none
  other : JsonFields := []

/-- `get_group_token_epoch`. -/
def GroupMetadata.tokenEpoch (metadata : GroupMetadata) : Int :=
  match metadata.epoch with
  | some (.int value) => value
  | _ => 0

structure Minted (Body Signature : Type) where
  payload : Payload
  key : Nat
  token : Token Body Signature
  revoked : Bool := false

structure TokenState (Body Signature : Type) where
  now : Int
  user : Nat → Option TokenUser
  row : Nat → Option GroupRow
  metadata : Nat → GroupMetadata := fun _ => {}
  member : Nat → Nat → Bool
  /-- The objects of groups in memory, as they were loaded and edited. -/
  object : Nat → Option (Nat × GroupMetadata) := fun _ => none
  minted : List (Minted Body Signature) := []

variable {Body Signature : Type} (signing : Signing Body Signature) (ttl : Int)

def primaryKey (value : Int) : Option Nat := if 0 ≤ value then some value.toNat else none

/-- `_validate_token`: the user and the group that are taken from a token. -/
def validateToken (state : TokenState Body Signature) (token : Token Body Signature) :
    Except String (Nat × Nat) := do
  check (token.version = tokenVersion) invalidToken
  match signing.decode token.body with
  | none => .error invalidToken
  | some fields =>
    match payloadInt fields "u", payloadInt fields "g", payloadInt fields "e",
      payloadInt fields "iat" with
    | some userId, some groupId, some epoch, some issuedAt =>
      match primaryKey userId, primaryKey groupId with
      | some user, some group =>
        match state.user user with
        | none => .error invalidToken
        | some found => do
            check found.isActive invalidToken
            check (signing.verify tokenVersion token.body token.signature found.authKey)
              invalidToken
            check (state.now - issuedAt ≤ ttl) expiredToken
            check (issuedAt - state.now ≤ maxFutureSkew) invalidToken
            check (!found.isSuperuser) invalidToken
            check (isEffectivelyActive state.row group) invalidToken
            check (epoch = (state.metadata group).tokenEpoch) invalidToken
            check (isEffectivelyActive state.row group && state.member group user)
              invalidToken
            return (user, group)
      | _, _ => .error invalidToken
    | _, _, _, _ => .error invalidToken

/-- What the objects of a call of `mint` say; they may be older than the database. -/
structure MintView where
  user : TokenUser
  groupActive : Bool := true
  member : Bool := true

/-- `can_mint`. -/
def canMint (view : MintView) : Bool :=
  !view.user.isSuperuser && view.user.isActive && view.groupActive && view.member

inductive TokenAction (Body Signature : Type) where
  | tick (seconds : Nat)
  | setUser (user : Nat) (row : TokenUser)
  | setGroup (group : Nat) (row : GroupRow)
  | setMember (group user : Nat) (isActive : Bool)
  | load (handle group : Nat)
  | edit (handle : Nat) (other : JsonFields)
  | save (handle : Nat)
  /-- `bump_group_token_epoch`. -/
  | bump (handle : Nat)
  | mint (handle user : Nat) (view : MintView) (issuedAt : Option Int)
  | validate (token : Token Body Signature)

def mintToken (payload : Payload) (key : Nat) : Token Body Signature where
  version := tokenVersion
  body := signing.encode payload
  signature := signing.sign tokenVersion (signing.encode payload) key

def tokenStep (state : TokenState Body Signature) :
    TokenAction Body Signature → Option (TokenState Body Signature)
  | .tick seconds => some { state with now := state.now + seconds }
  | .setUser user row => some { state with user := Function.update state.user user (some row) }
  | .setGroup group row => some { state with row := Function.update state.row group (some row) }
  | .setMember group user isActive => some { state with
      member := Function.update state.member group
        (Function.update (state.member group) user isActive) }
  | .load handle group => some { state with
      object := Function.update state.object handle (some (group, state.metadata group)) }
  | .edit handle other => (state.object handle).map fun (group, metadata) => { state with
      object := Function.update state.object handle (some (group, { metadata with other })) }
  | .save handle => (state.object handle).map fun (group, metadata) => { state with
      metadata := Function.update state.metadata group metadata }
  | .bump handle => (state.object handle).map fun (group, metadata) =>
    let bumped := { metadata with epoch := some (.int (metadata.tokenEpoch + 1)) }
    { state with
      object := Function.update state.object handle (some (group, bumped))
      metadata := Function.update state.metadata group bumped
      minted := state.minted.map fun minted =>
        if minted.payload.group = group then { minted with revoked := true } else minted }
  | .mint handle user view issuedAt => (state.object handle).bind fun (group, metadata) =>
    if canMint view then
      let payload : Payload := ⟨user, group, metadata.tokenEpoch, issuedAt.getD state.now⟩
      some { state with minted := ⟨payload, view.user.authKey,
        mintToken signing payload view.user.authKey, false⟩ :: state.minted }
    else none
  | .validate _ => some state

/-! ### What is promised, and when -/

/-- A token that is accepted was issued for the user and the group, is not too old and was not
revoked, and user, group and membership are in force. -/
def AcceptedRightly (state : TokenState Body Signature) (token : Token Body Signature) : Prop :=
  ∀ user group, validateToken signing ttl state token = .ok (user, group) →
    (∃ minted ∈ state.minted, minted.token = token ∧ minted.payload.user = user ∧
      minted.payload.group = group ∧ state.now - minted.payload.issuedAt ≤ ttl) ∧
    (∃ row, state.user user = some row ∧ row.isActive ∧ row.isSuperuser = false) ∧
    isEffectivelyActive state.row group ∧ state.member group user ∧
    ∀ minted ∈ state.minted, minted.token = token → minted.revoked = false

def ValidatesRightly (state : TokenState Body Signature) (action : TokenAction Body Signature)
    (_ : TokenState Body Signature) : Prop :=
  match action with
  | .validate token => AcceptedRightly signing ttl state token
  | _ => True

/-- Only `mint` makes signatures. -/
def Unforged (state : TokenState Body Signature) (action : TokenAction Body Signature)
    (_ : TokenState Body Signature) : Prop :=
  match action with
  | .validate token => ∀ key, token.signature = signing.sign tokenVersion token.body key →
      ∃ minted ∈ state.minted, minted.key = key ∧ signing.encode minted.payload = token.body
  | _ => True

/-- The object that is written holds the epoch that is stored. -/
def FreshWrite (state : TokenState Body Signature) (action : TokenAction Body Signature)
    (_ : TokenState Body Signature) : Prop :=
  match action with
  | .save handle | .bump handle => ∀ group metadata, state.object handle = some (group, metadata) →
      metadata.tokenEpoch = (state.metadata group).tokenEpoch
  | _ => True

/-! ### The epoch only rises -/

variable {signing} {ttl} {state next : TokenState Body Signature}
  {action : TokenAction Body Signature}

/-- No token and no object is ahead of the stored epoch, and a revoked token is behind it. -/
structure TokenBooks (signing : Signing Body Signature) (state : TokenState Body Signature) : Prop where
  token : ∀ minted ∈ state.minted, minted.token = mintToken signing minted.payload minted.key
  bounded : ∀ minted ∈ state.minted,
    minted.payload.epoch ≤ (state.metadata minted.payload.group).tokenEpoch
  revoked : ∀ minted ∈ state.minted, minted.revoked →
    minted.payload.epoch < (state.metadata minted.payload.group).tokenEpoch
  object : ∀ handle group metadata, state.object handle = some (group, metadata) →
    metadata.tokenEpoch ≤ (state.metadata group).tokenEpoch

theorem TokenBooks.rise (hbooks : TokenBooks signing state)
    (hminted : next.minted = state.minted)
    (hmetadata : ∀ group, (state.metadata group).tokenEpoch ≤ (next.metadata group).tokenEpoch)
    (hobject : ∀ handle group metadata, next.object handle = some (group, metadata) →
      metadata.tokenEpoch ≤ (next.metadata group).tokenEpoch) : TokenBooks signing next where
  token := by
    rw [hminted]
    exact hbooks.token
  bounded minted hmem := (hbooks.bounded minted (hminted ▸ hmem)).trans (hmetadata _)
  revoked minted hmem hrevoked :=
    lt_of_lt_of_le (hbooks.revoked minted (hminted ▸ hmem) hrevoked) (hmetadata _)
  object := hobject

theorem object_update {object : Nat → Option (Nat × GroupMetadata)} {metadata : Nat → GroupMetadata}
    {handle group : Nat} {loaded : GroupMetadata}
    (hobject : ∀ handle group found, object handle = some (group, found) →
      found.tokenEpoch ≤ (metadata group).tokenEpoch)
    (hloaded : loaded.tokenEpoch ≤ (metadata group).tokenEpoch) (other found : Nat)
    (seen : GroupMetadata)
    (hseen : Function.update object handle (some (group, loaded)) other = some (found, seen)) :
    seen.tokenEpoch ≤ (metadata found).tokenEpoch := by
  by_cases heq : other = handle
  · subst heq
    rw [Function.update_self] at hseen
    cases hseen
    exact hloaded
  · rw [Function.update_of_ne heq] at hseen
    exact hobject other found seen hseen

theorem TokenBooks.step (hbooks : TokenBooks signing state) (hfresh : FreshWrite state action next)
    (hstep : tokenStep signing state action = some next) : TokenBooks signing next := by
  cases action with
  | tick seconds =>
    cases hstep
    exact hbooks.rise rfl (fun _ => le_rfl) hbooks.object
  | setUser user row =>
    cases hstep
    exact hbooks.rise rfl (fun _ => le_rfl) hbooks.object
  | setGroup group row =>
    cases hstep
    exact hbooks.rise rfl (fun _ => le_rfl) hbooks.object
  | setMember group user isActive =>
    cases hstep
    exact hbooks.rise rfl (fun _ => le_rfl) hbooks.object
  | load handle group =>
    cases hstep
    exact hbooks.rise rfl (fun _ => le_rfl) (object_update hbooks.object le_rfl)
  | edit handle other =>
    obtain ⟨⟨group, metadata⟩, hobject, rfl⟩ := Option.map_eq_some_iff.mp hstep
    exact hbooks.rise rfl (fun _ => le_rfl)
      (object_update hbooks.object (hbooks.object handle group metadata hobject))
  | save handle =>
    obtain ⟨⟨group, metadata⟩, hobject, rfl⟩ := Option.map_eq_some_iff.mp hstep
    -- the epoch that is written is the one that is stored
    have hsame (found : Nat) : (state.metadata found).tokenEpoch =
        (Function.update state.metadata group metadata found).tokenEpoch := by
      by_cases heq : found = group
      · subst heq
        rw [Function.update_self]
        exact (hfresh found metadata hobject).symm
      · rw [Function.update_of_ne heq]
    refine hbooks.rise rfl (fun found => (hsame found).le) fun handle found seen hseen => ?_
    exact (hbooks.object handle found seen hseen).trans (hsame found).le
  | bump handle =>
    obtain ⟨⟨group, metadata⟩, hobject, rfl⟩ := Option.map_eq_some_iff.mp hstep
    have hstored := hfresh group metadata hobject
    let bumped : GroupMetadata :=
      { metadata with epoch := some (.int (metadata.tokenEpoch + 1)) }
    have hself : (Function.update state.metadata group bumped group).tokenEpoch =
        (state.metadata group).tokenEpoch + 1 := by
      rw [Function.update_self, ← hstored]
      rfl
    have hne {found : Nat} (hfound : found ≠ group) :
        Function.update state.metadata group bumped found = state.metadata found :=
      Function.update_of_ne hfound ..
    have hrises (found : Nat) : (state.metadata found).tokenEpoch ≤
        (Function.update state.metadata group bumped found).tokenEpoch := by
      by_cases heq : found = group
      · subst heq
        omega
      · rw [hne heq]
    have hmem {minted : Minted Body Signature} (hmem : minted ∈ state.minted.map fun minted =>
        if minted.payload.group = group then { minted with revoked := true } else minted) :
        ∃ old ∈ state.minted, minted.payload = old.payload ∧ minted.key = old.key ∧
          minted.token = old.token ∧
          (minted.revoked → old.revoked ∨ old.payload.group = group) := by
      obtain ⟨old, hold, rfl⟩ := List.mem_map.mp hmem
      refine ⟨old, hold, ?_⟩
      split
      next hgroup => exact ⟨rfl, rfl, rfl, fun _ => .inr hgroup⟩
      next => exact ⟨rfl, rfl, rfl, .inl⟩
    refine ⟨fun minted hminted => ?_, fun minted hminted => ?_, fun minted hminted hrevoked => ?_,
      object_update (fun handle found seen hseen =>
        (hbooks.object handle found seen hseen).trans (hrises found)) (by
          change _ ≤ (Function.update state.metadata group bumped group).tokenEpoch
          rw [Function.update_self])⟩
    · obtain ⟨old, hold, hpayload, hkey, htoken, _⟩ := hmem hminted
      rw [htoken, hpayload, hkey]
      exact hbooks.token old hold
    · obtain ⟨old, hold, hpayload, _⟩ := hmem hminted
      rw [hpayload]
      exact (hbooks.bounded old hold).trans (hrises _)
    · obtain ⟨old, hold, hpayload, _, _, hcases⟩ := hmem hminted
      rw [hpayload]
      rcases hcases hrevoked with hold' | hgroup
      · exact lt_of_lt_of_le (hbooks.revoked old hold hold') (hrises _)
      · have hle := hbooks.bounded old hold
        rw [hgroup] at hle ⊢
        change _ < (Function.update state.metadata group bumped group).tokenEpoch
        omega
  | mint handle user view issuedAt =>
    obtain ⟨⟨group, metadata⟩, hobject, hstep⟩ := Option.bind_eq_some_iff.mp hstep
    simp only at hstep
    split at hstep <;> cases hstep
    refine ⟨?_, ?_, ?_, hbooks.object⟩
    · exact List.forall_mem_cons.mpr ⟨rfl, hbooks.token⟩
    · exact List.forall_mem_cons.mpr ⟨hbooks.object handle group metadata hobject, hbooks.bounded⟩
    · exact List.forall_mem_cons.mpr ⟨nofun, hbooks.revoked⟩
  | validate token =>
    cases hstep
    exact hbooks

/-! ### Accepted tokens -/

theorem validateToken_ok {token : Token Body Signature} {user group : Nat}
    (hok : validateToken signing ttl state token = .ok (user, group)) :
    ∃ fields epoch issuedAt row, token.version = tokenVersion ∧
      signing.decode token.body = some fields ∧
      payloadInt fields "u" = some (user : Int) ∧ payloadInt fields "g" = some (group : Int) ∧
      payloadInt fields "e" = some epoch ∧ payloadInt fields "iat" = some issuedAt ∧
      state.user user = some row ∧ row.isActive ∧ row.isSuperuser = false ∧
      token.signature = signing.sign tokenVersion token.body row.authKey ∧
      state.now - issuedAt ≤ ttl ∧ isEffectivelyActive state.row group ∧
      epoch = (state.metadata group).tokenEpoch ∧ state.member group user := by
  unfold validateToken at hok
  simp only [bind_ok, check_ok, decide_eq_true_eq] at hok
  obtain ⟨_, hversion, hok⟩ := hok
  split at hok
  next => cases hok
  next fields hdecode =>
    split at hok
    next userId groupId epoch issuedAt huser hgroup hepoch hissued =>
      split at hok
      next found foundGroup hfound hfoundGroup =>
        split at hok
        next => cases hok
        next row hrow =>
          simp only [bind_ok, check_ok, pure_ok, Prod.mk.injEq, decide_eq_true_eq,
            Bool.and_eq_true, Bool.not_eq_true'] at hok
          obtain ⟨_, hactive, _, hverify, _, hage, _, _, _, hsuper, _, hgroupActive, _, hsame, _,
            ⟨_, hmember⟩, rfl, rfl⟩ := hok
          have hkey {value : Int} {key : Nat} (hkey : primaryKey value = some key) :
              value = (key : Int) := by
            unfold primaryKey at hkey
            split at hkey <;> cases hkey
            omega
          rw [hkey hfound] at huser
          rw [hkey hfoundGroup] at hgroup
          exact ⟨fields, epoch, issuedAt, row, hversion, hdecode, huser, hgroup, hepoch, hissued,
            hrow, hactive, hsuper, (signing.verify_iff ..).mp hverify, hage, hgroupActive, hsame,
            hmember⟩
      next => cases hok
    next => cases hok

theorem payloadInt_fields (payload : Payload) :
    payloadInt payload.fields "u" = some (payload.user : Int) ∧
      payloadInt payload.fields "g" = some (payload.group : Int) ∧
      payloadInt payload.fields "e" = some payload.epoch ∧
      payloadInt payload.fields "iat" = some payload.issuedAt := ⟨rfl, rfl, rfl, rfl⟩

theorem TokenBooks.accepts (hbooks : TokenBooks signing state)
    {token : Token Body Signature} (hunforged : Unforged signing state (.validate token) next) :
    AcceptedRightly signing ttl state token := by
  intro user group hok
  obtain ⟨fields, epoch, issuedAt, row, hversion, hdecode, huser, hgroup, hepoch, hissued, hrow,
    hactive, hsuper, hsignature, hage, hgroupActive, hsame, hmember⟩ := validateToken_ok hok
  -- a payload that is encoded as the body is the payload that was read
  have hread {payload : Payload} (hbody : signing.encode payload = token.body) :
      payload.user = user ∧ payload.group = group ∧ payload.epoch = epoch ∧
        payload.issuedAt = issuedAt := by
    rw [← hbody, signing.decode_encode, Option.some.injEq] at hdecode
    subst hdecode
    obtain ⟨hu, hg, he, hi⟩ := payloadInt_fields payload
    rw [hu, Option.some.injEq] at huser
    rw [hg, Option.some.injEq] at hgroup
    rw [he, Option.some.injEq] at hepoch
    rw [hi, Option.some.injEq] at hissued
    exact ⟨by omega, by omega, hepoch, hissued⟩
  obtain ⟨minted, hminted, hkey, hbody⟩ := hunforged row.authKey hsignature
  obtain ⟨hmintedUser, hmintedGroup, _, hmintedIssued⟩ := hread hbody
  refine ⟨⟨minted, hminted, ?_, hmintedUser, hmintedGroup, hmintedIssued ▸ hage⟩,
    ⟨row, hrow, hactive, hsuper⟩, hgroupActive, hmember, fun other hother htoken => ?_⟩
  · obtain ⟨version, body, signature⟩ := token
    simp only at hversion hsignature hbody
    subst hversion hbody hsignature
    rw [hbooks.token minted hminted, hkey]
    rfl
  · have hbody : signing.encode other.payload = token.body := by
      rw [← htoken, hbooks.token other hother]
      rfl
    obtain ⟨_, hotherGroup, hotherEpoch, _⟩ := hread hbody
    by_contra hrevoked
    have hless := hbooks.revoked other hother (by simpa using hrevoked)
    rw [hotherGroup, hotherEpoch, hsame] at hless
    exact lt_irrefl _ hless

/-- In every run whose writes are fresh, tokens are accepted rightly. -/
theorem tokens_validate_rightly {Body Signature : Type} (signing : Signing Body Signature) (ttl : Int)
    (state : TokenState Body Signature) (hminted : state.minted = [])
    (hobject : state.object = fun _ => none) (actions : List (TokenAction Body Signature))
    (hactions : EachStep (tokenStep signing) (fun state action next =>
      Unforged signing state action next ∧ FreshWrite state action next) state actions) :
    EachStep (tokenStep signing) (ValidatesRightly signing ttl) state actions := by
  have hstart : TokenBooks signing state := by
    refine ⟨?_, ?_, ?_, ?_⟩
    · rw [hminted]
      exact nofun
    · rw [hminted]
      exact nofun
    · rw [hminted]
      exact nofun
    · rw [hobject]
      exact nofun
  refine EachStep.of_invariant (fun state action next hbooks hcondition hstep =>
    ⟨hbooks.step hcondition.2 hstep, ?_⟩) hstart hactions
  cases action with
  | validate token => exact hbooks.accepts hcondition.1
  | _ => trivial

/-! ### A save that is late -/

/-- Payloads that are not encoded, and signatures that show what was signed. -/
def plainSigning : Signing Payload (String × Payload × Nat) where
  encode payload := payload
  decode payload := some payload.fields
  decode_encode _ := rfl
  sign version body key := (version, body, key)
  verify version body signature key := signature = (version, body, key)
  verify_iff _ _ _ _ := decide_eq_true_iff

def smallTokens : TokenState Payload (String × Payload × Nat) where
  now := 0
  user id := if id = 5 then some { authKey := 7 } else none
  row id := if id = 1 then some {} else none
  member group user := group = 1 && user = 5

def smallToken : Token Payload (String × Payload × Nat) :=
  mintToken plainSigning ⟨5, 1, 0, 0⟩ 7

/-- Two objects of the group are loaded and a token is issued. -/
def issueToken : List (TokenAction Payload (String × Payload × Nat)) :=
  [.load 1 1, .load 2 1, .mint 1 5 { user := { authKey := 7 } } none]

theorem smallToken_unforged {state next : TokenState Payload (String × Payload × Nat)}
    {minted : Minted Payload (String × Payload × Nat)} (hminted : minted ∈ state.minted)
    (hpayload : minted.payload = ⟨5, 1, 0, 0⟩) (hkey : minted.key = 7) :
    Unforged plainSigning state (.validate smallToken) next := by
  intro key hsignature
  refine ⟨minted, hminted, ?_, hpayload⟩
  rw [hkey]
  exact congrArg (fun signature => signature.2.2) hsignature

theorem issued_token_accepted : EachStep (tokenStep plainSigning)
    (ValidatesRightly plainSigning 3600) smallTokens (issueToken ++ [.validate smallToken]) := by
  refine tokens_validate_rightly plainSigning 3600 smallTokens rfl rfl _ ?_
  intro _ h1
  cases h1
  refine ⟨⟨trivial, trivial⟩, ?_⟩
  intro _ h2
  cases h2
  refine ⟨⟨trivial, trivial⟩, ?_⟩
  intro _ h3
  cases h3
  refine ⟨⟨trivial, trivial⟩, ?_⟩
  intro _ _
  exact ⟨⟨smallToken_unforged List.mem_cons_self rfl rfl, trivial⟩, trivial⟩

/-- The epoch is bumped with the second object, and then the first one is saved. -/
def lateMetadataSave : List (TokenAction Payload (String × Payload × Nat)) :=
  issueToken ++ [.bump 2, .save 1, .validate smallToken]

theorem not_always_revoked : ¬ ∀ (state : TokenState Payload (String × Payload × Nat))
    (actions : List (TokenAction Payload (String × Payload × Nat))), state.minted = [] →
    state.object = (fun _ => none) →
    EachStep (tokenStep plainSigning) (Unforged plainSigning) state actions →
    EachStep (tokenStep plainSigning) (ValidatesRightly plainSigning 3600) state actions := by
  intro hall
  have hunforged : EachStep (tokenStep plainSigning) (Unforged plainSigning) smallTokens
      lateMetadataSave := by
    intro _ h1
    cases h1
    refine ⟨trivial, ?_⟩
    intro _ h2
    cases h2
    refine ⟨trivial, ?_⟩
    intro _ h3
    cases h3
    refine ⟨trivial, ?_⟩
    intro _ h4
    cases h4
    refine ⟨trivial, ?_⟩
    intro _ h5
    cases h5
    refine ⟨trivial, ?_⟩
    intro _ _
    exact ⟨smallToken_unforged List.mem_cons_self rfl rfl, trivial⟩
  have hrightly := hall smallTokens lateMetadataSave rfl rfl hunforged
  obtain ⟨_, h1⟩ := hrightly _ rfl
  obtain ⟨_, h2⟩ := h1 _ rfl
  obtain ⟨_, h3⟩ := h2 _ rfl
  obtain ⟨_, h4⟩ := h3 _ rfl
  obtain ⟨_, h5⟩ := h4 _ rfl
  obtain ⟨haccepted, _⟩ := h5 _ rfl
  have hok := haccepted 5 1 (by rfl)
  have hrevoked := hok.2.2.2.2 _ List.mem_cons_self rfl
  cases hrevoked

end DjangoMojo.Account
