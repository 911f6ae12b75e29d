import DjangoMojo.Account.Groups
import DjangoMojo.Foundation.Trace

/-! # Saves of groups that overlap

A save that changes the parent locks the row of the group and the rows on the way up, and
validates the chain that it read. A save that finds the parent unchanged writes the whole
row without a lock. Every read, lock and write is a step of its own.
-/

namespace DjangoMojo.Account

open Foundation

/-! ### A database and the saves in it -/

/-- Where a call of `Group.save` stands, with the object that is saved. -/
inductive Saver where
  | idle
  | reading (group : Nat) (object : GroupRow)
  | writing (group : Nat) (object : GroupRow)
  | locking (group : Nat) (object : GroupRow)
  /-- In `validate_parent`; there is no group yet when the object is new. -/
  | climbing (group : Option Nat) (object : GroupRow) (chain : List Nat) (current : Option Nat)
  | updating (group : Option Nat) (object : GroupRow) (chain : List Nat)
  | updated (group : Nat) (object : GroupRow) (chain : List Nat)

structure Server where
  row : Nat → Option GroupRow := fun _ => none
  lock : Nat → Option Nat := fun _ => none
  saver : Nat → Saver := fun _ => .idle

namespace Server

variable (server : Server)

def setSaver (caller : Nat) (saver : Saver) : Server :=
  { server with saver := Function.update server.saver caller saver }

def setRow (group : Nat) (object : GroupRow) : Server :=
  { server with row := Function.update server.row group (some object) }

def takeLock (caller group : Nat) : Server :=
  { server with lock := Function.update server.lock group (some caller) }

def release (caller : Nat) : Server :=
  { server with
    lock := fun group => if server.lock group = some caller then none else server.lock group
    saver := Function.update server.saver caller .idle }

@[simp] theorem setSaver_saver_self (caller : Nat) (saver : Saver) :
    (server.setSaver caller saver).saver caller = saver := Function.update_self ..

@[simp] theorem release_saver_self (caller : Nat) : (server.release caller).saver caller = .idle :=
  Function.update_self ..

def lockable (caller group : Nat) : Bool :=
  server.lock group = none || server.lock group = some caller

/-- One step of `ancestors` with `lock`. -/
def climbStep (caller : Nat) (group : Option Nat) (object : GroupRow) (chain : List Nat)
    (current : Nat) : Option Server :=
  if current ∈ chain ∨ maxAncestorDepth ≤ chain.length then some (server.release caller)
  else if !server.lockable caller current then none
  else match server.row current with
    | none => some (server.release caller)
    | some found => some ((server.takeLock caller current).setSaver caller
        (.climbing group object (chain ++ [current]) found.parent))

/-- The next step of a save; a row that has no key yet is given the fresh one. -/
def advance (caller fresh : Nat) : Option Server :=
  match server.saver caller with
  | .idle => none
  | .reading group object =>
    if parentOf server.row group = object.parent then
      some (server.setSaver caller (.writing group object))
    else some (server.setSaver caller (.locking group object))
  | .writing group object =>
    if server.lock group = none then some ((server.setRow group object).setSaver caller .idle)
    else none
  | .locking group object =>
    if !server.lockable caller group then none
    else if object.parent = some group then some (server.release caller)
    else some ((server.takeLock caller group).setSaver caller
      (.climbing (some group) object [] object.parent))
  | .climbing group object chain (some current) =>
    server.climbStep caller group object chain current
  | .climbing group object chain none =>
    if group.any (· ∈ chain) then some (server.release caller)
    else some (server.setSaver caller (.updating group object chain))
  | .updating (some group) object chain =>
    some (server.setSaver caller (.updated group object chain))
  | .updating none object chain =>
    if server.row fresh = none ∧ server.lock fresh = none then
      some ((server.takeLock caller fresh).setSaver caller (.updated fresh object chain))
    else none
  | .updated group object _ => some ((server.setRow group object).release caller)

end Server

inductive SaveAction where
  | create (caller : Nat) (object : GroupRow)
  | save (caller group : Nat) (object : GroupRow)
  | advance (caller fresh : Nat)
  | fail (caller : Nat)

def saveStep (server : Server) : SaveAction → Option Server
  | .create caller object =>
    match server.saver caller with
    | .idle => some (server.setSaver caller (.climbing none object [] object.parent))
    | _ => none
  | .save caller group object =>
    match server.saver caller with
    | .idle => if (server.row group).isSome then
        some (server.setSaver caller (.reading group object)) else none
    | _ => none
  | .advance caller fresh => server.advance caller fresh
  | .fail caller => some (server.release caller)

/-! ### The property and the condition -/

/-- The ancestors of every group are found within the supported depth. -/
def Bounded (row : Nat → Option GroupRow) : Prop :=
  ∀ group, (row group).isSome → ∃ chain, ancestorsFrom row maxAncestorDepth group = .ok chain

def Acyclic (row : Nat → Option GroupRow) : Prop :=
  ∀ group, ¬ Relation.TransGen (fun lower above => parentOf row lower = some above) group group

/-- A write that took no lock finds the parent that was read, and the groups that move with
a group fit below the chain that was validated. -/
def SafeSave (server : Server) : SaveAction → Prop
  | .advance caller _ =>
    match server.saver caller with
    | .writing group object => parentOf server.row group = object.parent
    | .updated group _ chain => ∀ lower below rest,
        ChainOf (parentOf server.row) lower (below ++ group :: rest) →
          below.length + 1 + chain.length ≤ maxAncestorDepth
    | _ => True
  | _ => True

/-! ### What a save holds -/

def Saver.Holds (row : Nat → Option GroupRow) (lock : Nat → Option Nat) (caller : Nat) :
    Saver → Prop
  | .climbing group object chain current =>
    Leads (parentOf row) object.parent chain current ∧
      (∀ other ∈ chain, lock other = some caller ∧ (row other).isSome) ∧
      ∀ own ∈ group, lock own = some caller
  | .updating group object chain =>
    Leads (parentOf row) object.parent chain none ∧
      (∀ other ∈ chain, lock other = some caller ∧ (row other).isSome) ∧
      ∀ own ∈ group, lock own = some caller ∧ own ∉ chain
  | .updated group object chain =>
    Leads (parentOf row) object.parent chain none ∧
      (∀ other ∈ chain, lock other = some caller ∧ (row other).isSome) ∧
      lock group = some caller ∧ group ∉ chain
  | _ => True

theorem Saver.Holds.frame {row row' : Nat → Option GroupRow} {lock lock' : Nat → Option Nat}
    {caller : Nat} {saver : Saver} (hholds : saver.Holds row lock caller)
    (hlock : ∀ group, lock group = some caller → lock' group = some caller)
    (hrow : ∀ group, lock group = some caller → row' group = row group) :
    saver.Holds row' lock' caller := by
  have hchain {chain : List Nat} (hlocked : ∀ other ∈ chain,
      lock other = some caller ∧ (row other).isSome) : ∀ other ∈ chain,
        lock' other = some caller ∧ (row' other).isSome := fun other hother =>
    ⟨hlock other (hlocked other hother).1, by
      rw [hrow other (hlocked other hother).1]
      exact (hlocked other hother).2⟩
  have hleads {start last : Option Nat} {chain : List Nat} (hlocked : ∀ other ∈ chain,
      lock other = some caller ∧ (row other).isSome) (hleads : Leads (parentOf row) start chain last) :
      Leads (parentOf row') start chain last :=
    hleads.congr fun other hother => by rw [parentOf, parentOf, hrow other (hlocked other hother).1]
  cases saver with
  | climbing group object chain current =>
    obtain ⟨hup, hlocked, hown⟩ := hholds
    exact ⟨hleads hlocked hup, hchain hlocked, fun own hmem => hlock own (hown own hmem)⟩
  | updating group object chain =>
    obtain ⟨hup, hlocked, hown⟩ := hholds
    exact ⟨hleads hlocked hup, hchain hlocked, fun own hmem =>
      ⟨hlock own (hown own hmem).1, (hown own hmem).2⟩⟩
  | updated group object chain =>
    obtain ⟨hup, hlocked, hown, hnot⟩ := hholds
    exact ⟨hleads hlocked hup, hchain hlocked, hlock group hown, hnot⟩
  | _ => trivial

/-- A step of the caller leaves alone what the other saves have locked. -/
structure Leaves (caller : Nat) (server next : Server) : Prop where
  saver : ∀ other, other ≠ caller → next.saver other = server.saver other
  lock : ∀ other, other ≠ caller → ∀ group, server.lock group = some other →
    next.lock group = some other
  row : ∀ other, other ≠ caller → ∀ group, server.lock group = some other →
    next.row group = server.row group

namespace Leaves

variable {caller group : Nat} {server : Server}

theorem trans {first second third : Server} (hfirst : Leaves caller first second)
    (hsecond : Leaves caller second third) : Leaves caller first third where
  saver other hother := (hsecond.saver other hother).trans (hfirst.saver other hother)
  lock other hother group hlock := hsecond.lock other hother group (hfirst.lock other hother group hlock)
  row other hother group hlock :=
    (hsecond.row other hother group (hfirst.lock other hother group hlock)).trans
      (hfirst.row other hother group hlock)

theorem setSaver (saver : Saver) : Leaves caller server (server.setSaver caller saver) where
  saver _ hother := Function.update_of_ne hother ..
  lock _ _ _ hlock := hlock
  row _ _ _ _ := rfl

theorem setRow (object : GroupRow) (hlock : server.lockable caller group) :
    Leaves caller server (server.setRow group object) where
  saver _ _ := rfl
  lock _ _ _ hlock := hlock
  row other hother found hfound := by
    refine Function.update_of_ne (fun heq => ?_) ..
    subst heq
    simp [Server.lockable, hfound, hother] at hlock

theorem takeLock (hlock : server.lockable caller group) :
    Leaves caller server (server.takeLock caller group) where
  saver _ _ := rfl
  lock other hother found hfound := by
    refine (Function.update_of_ne (fun heq => ?_) ..).trans hfound
    subst heq
    simp [Server.lockable, hfound, hother] at hlock
  row _ _ _ _ := rfl

theorem release : Leaves caller server (server.release caller) where
  saver _ hother := Function.update_of_ne hother ..
  lock other hother group hlock := by
    change (if server.lock group = some caller then none else server.lock group) = _
    rw [if_neg (by rw [hlock, Option.some.injEq]; exact hother), hlock]
  row _ _ _ _ := rfl

end Leaves

variable {server next : Server} {caller fresh : Nat}

theorem advance_leaves (hholds : (server.saver caller).Holds server.row server.lock caller)
    (hstep : server.advance caller fresh = some next) : Leaves caller server next := by
  unfold Server.advance at hstep
  split at hstep
  next => cases hstep
  next group object _ =>
    split at hstep <;> cases hstep <;> exact Leaves.setSaver _
  next group object _ =>
    split at hstep
    next hfree =>
      cases hstep
      exact (Leaves.setRow object (by simp [Server.lockable, hfree])).trans (Leaves.setSaver _)
    next => cases hstep
  next group object _ =>
    split at hstep
    next => cases hstep
    next hlock =>
      split at hstep <;> cases hstep
      next => exact Leaves.release
      next => exact (Leaves.takeLock (by simpa using hlock)).trans (Leaves.setSaver _)
  next group object chain current _ =>
    unfold Server.climbStep at hstep
    split at hstep
    next =>
      cases hstep
      exact Leaves.release
    next =>
      split at hstep
      next => cases hstep
      next hlock =>
        split at hstep <;> cases hstep
        next => exact Leaves.release
        next => exact (Leaves.takeLock (by simpa using hlock)).trans (Leaves.setSaver _)
  next group object chain _ =>
    split at hstep <;> cases hstep
    next => exact Leaves.release
    next => exact Leaves.setSaver _
  next group object chain _ =>
    cases hstep
    exact Leaves.setSaver _
  next object chain _ =>
    split at hstep
    next hfree =>
      cases hstep
      exact (Leaves.takeLock (by simp [Server.lockable, hfree.2])).trans (Leaves.setSaver _)
    next => cases hstep
  next group object chain hsaver =>
    cases hstep
    rw [hsaver] at hholds
    exact (Leaves.setRow object (by simp [Server.lockable, hholds.2.2.1])).trans Leaves.release

theorem takeLock_holds {group : Nat} {saver : Saver} (hholds : saver.Holds server.row server.lock caller) :
    saver.Holds (server.takeLock caller group).row (server.takeLock caller group).lock caller := by
  refine hholds.frame (fun other hother => ?_) fun _ _ => rfl
  by_cases heq : other = group
  · subst heq
    exact Function.update_self ..
  · exact (Function.update_of_ne heq ..).trans hother

theorem advance_holds (hholds : (server.saver caller).Holds server.row server.lock caller)
    (hstep : server.advance caller fresh = some next) :
    (next.saver caller).Holds next.row next.lock caller := by
  have hset (server : Server) (saver : Saver) (hsaver : saver.Holds server.row server.lock caller) :
      ((server.setSaver caller saver).saver caller).Holds server.row server.lock caller := by
    rw [Server.setSaver_saver_self]
    exact hsaver
  have hrelease (server : Server) : ((server.release caller).saver caller).Holds
      (server.release caller).row (server.release caller).lock caller := by
    rw [Server.release_saver_self]
    trivial
  unfold Server.advance at hstep
  split at hstep
  next => cases hstep
  next group object _ =>
    split at hstep <;> cases hstep <;> exact hset server _ trivial
  next group object _ =>
    split at hstep
    next =>
      cases hstep
      exact hset (server.setRow group object) .idle trivial
    next => cases hstep
  next group object _ =>
    split at hstep
    next => cases hstep
    next =>
      split at hstep <;> cases hstep
      next => exact hrelease server
      next =>
        refine hset (server.takeLock caller group) _ ⟨.refl _, nofun, fun own hown => ?_⟩
        obtain rfl := Option.mem_some_iff.mp hown
        exact Function.update_self ..
  next group object chain current hsaver =>
    rw [hsaver] at hholds
    unfold Server.climbStep at hstep
    split at hstep
    next =>
      cases hstep
      exact hrelease server
    next =>
      split at hstep
      next => cases hstep
      next =>
        split at hstep <;> cases hstep
        next => exact hrelease server
        next found hfound =>
          have hlater := @takeLock_holds server caller current _ hholds
          obtain ⟨hup, hlocked, hown⟩ := hlater
          refine hset (server.takeLock caller current) _ ⟨?_, fun other hother => ?_, hown⟩
          · have hparent : found.parent = parentOf (server.takeLock caller current).row current := by
              change _ = (server.row current).bind _
              rw [hfound]
              rfl
            rw [hparent]
            exact hup.concat
          · rcases List.mem_append.mp hother with hother | hother
            · exact hlocked other hother
            · rw [List.mem_singleton] at hother
              subst hother
              refine ⟨Function.update_self .., ?_⟩
              change (server.row _).isSome
              rw [hfound]
              rfl
  next group object chain hsaver =>
    rw [hsaver] at hholds
    obtain ⟨hup, hlocked, hown⟩ := hholds
    split at hstep <;> cases hstep
    next => exact hrelease server
    next hnot =>
      refine hset server _ ⟨hup, hlocked, fun own hmem => ⟨hown own hmem, fun hchain => hnot ?_⟩⟩
      rw [Option.any_eq_true]
      exact ⟨own, hmem, by simpa using hchain⟩
  next group object chain hsaver =>
    rw [hsaver] at hholds
    obtain ⟨hup, hlocked, hown⟩ := hholds
    cases hstep
    exact hset server _ ⟨hup, hlocked, hown group rfl⟩
  next object chain hsaver =>
    rw [hsaver] at hholds
    split at hstep
    next hfree =>
      cases hstep
      obtain ⟨hup, hlocked, _⟩ := @takeLock_holds server caller fresh _ hholds
      refine hset (server.takeLock caller fresh) _ ⟨hup, hlocked, Function.update_self .., ?_⟩
      intro hmem
      have hsome := (hlocked fresh hmem).2
      change (server.row fresh).isSome at hsome
      rw [hfree.1] at hsome
      cases hsome
    next => cases hstep
  next group object chain _ =>
    cases hstep
    exact hrelease (server.setRow group object)

/-! ### Chains that grow and move -/

theorem bounded_iff {row : Nat → Option GroupRow} : Bounded row ↔
    ∀ group, (row group).isSome → ∃ chain, ChainOf (parentOf row) group chain ∧
      chain.length ≤ maxAncestorDepth ∧ ∀ other ∈ chain, (row other).isSome := by
  simp only [Bounded, ancestorsFrom_ok_iff]

theorem Bounded.acyclic {row : Nat → Option GroupRow} (hbounded : Bounded row) : Acyclic row := by
  rw [bounded_iff] at hbounded
  refine ChainOf.acyclic fun lower above hparent => ?_
  have hlower : (row lower).isSome := by
    rw [parentOf, Option.bind_eq_some_iff] at hparent
    obtain ⟨found, hfound, _⟩ := hparent
    rw [hfound]
    rfl
  obtain ⟨chain, hchain, _⟩ := hbounded lower hlower
  cases hchain with
  | root hroot => rw [hroot] at hparent; cases hparent
  | step hagain habove =>
    rw [hparent] at hagain
    cases hagain
    exact ⟨_, habove⟩

section

variable {row : Nat → Option GroupRow} {group : Nat} {object : GroupRow}

theorem parentOf_update_self :
    parentOf (Function.update row group (some object)) group = object.parent := by
  rw [parentOf, Function.update_self]
  rfl

theorem parentOf_update_ne {other : Nat} (hother : other ≠ group) :
    parentOf (Function.update row group (some object)) other = parentOf row other := by
  rw [parentOf, parentOf, Function.update_of_ne hother]

theorem isSome_update {other : Nat} (hsome : (row other).isSome) :
    (Function.update row group (some object) other).isSome := by
  by_cases heq : other = group
  · subst heq
    rw [Function.update_self]
    rfl
  · rwa [Function.update_of_ne heq]

theorem Bounded.setRow {top : List Nat} (hbounded : Bounded row)
    (hup : Leads (parentOf row) object.parent top none) (hsome : ∀ other ∈ top, (row other).isSome)
    (hnot : group ∉ top) (hfits : ∀ lower below rest,
      ChainOf (parentOf row) lower (below ++ group :: rest) →
        below.length + 1 + top.length ≤ maxAncestorDepth) :
    Bounded (Function.update row group (some object)) := by
  rw [bounded_iff] at hbounded ⊢
  have hne {nodes : List Nat} (habsent : group ∉ nodes) : ∀ other ∈ nodes,
      parentOf (Function.update row group (some object)) other = parentOf row other :=
    fun other hother => parentOf_update_ne fun heq => habsent (heq ▸ hother)
  have hgroup : ChainOf (parentOf (Function.update row group (some object))) group (group :: top) := by
    cases hparent : object.parent with
    | none =>
      rw [hparent] at hup
      cases hup
      exact .root (parentOf_update_self.trans hparent)
    | some above =>
      rw [hparent] at hup
      exact .step (parentOf_update_self.trans hparent) (hup.chainOf.congr (hne hnot))
  have hall : ∀ other ∈ group :: top, (Function.update row group (some object) other).isSome := by
    intro other hother
    rcases List.mem_cons.mp hother with rfl | hother
    · rw [Function.update_self]
      rfl
    · exact isSome_update (hsome other hother)
  intro lower hlower
  by_cases heq : lower = group
  · subst heq
    refine ⟨_, hgroup, ?_, hall⟩
    obtain ⟨rest, hold⟩ : ∃ rest, ChainOf (parentOf row) lower (lower :: rest) := by
      cases hrow : row lower with
      | none => exact ⟨[], .root (by rw [parentOf, hrow]; rfl)⟩
      | some found =>
        obtain ⟨chain, hchain, _⟩ := hbounded lower (by rw [hrow]; rfl)
        obtain ⟨rest, rfl⟩ := hchain.head
        exact ⟨rest, hchain⟩
    have hlength := hfits lower [] rest hold
    rw [List.length_nil, Nat.zero_add, Nat.add_comm] at hlength
    exact hlength
  rw [Function.update_of_ne heq] at hlower
  obtain ⟨chain, hchain, hlength, hchainSome⟩ := hbounded lower hlower
  by_cases hmem : group ∈ chain
  · obtain ⟨below, rest, rfl, habsent, _⟩ := hchain.of_mem hmem
    refine ⟨below ++ group :: top, hchain.append (hne habsent) hgroup, ?_, fun other hother => ?_⟩
    · have hfit := hfits lower below rest hchain
      rw [List.length_append, List.length_cons]
      omega
    · rcases List.mem_append.mp hother with hother | hother
      · exact isSome_update (hchainSome other (List.mem_append_left _ hother))
      · exact hall other hother
  · exact ⟨chain, hchain.congr (hne hmem), hlength, fun other hother =>
      isSome_update (hchainSome other hother)⟩

theorem Bounded.setRow_same (hbounded : Bounded row) (hsame : parentOf row group = object.parent) :
    Bounded (Function.update row group (some object)) := by
  rw [bounded_iff] at hbounded ⊢
  have hparent (other : Nat) :
      parentOf (Function.update row group (some object)) other = parentOf row other := by
    by_cases heq : other = group
    · subst heq
      exact parentOf_update_self.trans hsame.symm
    · exact parentOf_update_ne heq
  intro lower hlower
  by_cases hold : (row lower).isSome
  · obtain ⟨chain, hchain, hlength, hsome⟩ := hbounded lower hold
    exact ⟨chain, hchain.congr fun other _ => hparent other, hlength, fun other hother =>
      isSome_update (hsome other hother)⟩
  · have hroot : parentOf (Function.update row group (some object)) lower = none := by
      rw [hparent, parentOf]
      rw [Bool.not_eq_true, Option.isSome_eq_false_iff, Option.isNone_iff_eq_none] at hold
      rw [hold]
      rfl
    refine ⟨[lower], .root hroot, Nat.le_add_left 1 31, fun other hother => ?_⟩
    rw [List.mem_singleton] at hother
    exact hother ▸ hlower

end

theorem advance_bounded (hbounded : Bounded server.row)
    (hholds : (server.saver caller).Holds server.row server.lock caller)
    (hsafe : SafeSave server (.advance caller fresh))
    (hstep : server.advance caller fresh = some next) : Bounded next.row := by
  unfold SafeSave at hsafe
  simp only at hsafe
  unfold Server.advance at hstep
  split at hstep
  next => cases hstep
  next group object _ => split at hstep <;> cases hstep <;> exact hbounded
  next group object hsaver =>
    rw [hsaver] at hsafe
    split at hstep <;> cases hstep
    exact hbounded.setRow_same hsafe
  next group object _ =>
    split at hstep
    next => cases hstep
    next => split at hstep <;> cases hstep <;> exact hbounded
  next group object chain current _ =>
    unfold Server.climbStep at hstep
    split at hstep
    next =>
      cases hstep
      exact hbounded
    next =>
      split at hstep
      next => cases hstep
      next => split at hstep <;> cases hstep <;> exact hbounded
  next group object chain _ => split at hstep <;> cases hstep <;> exact hbounded
  next group object chain _ =>
    cases hstep
    exact hbounded
  next object chain _ =>
    split at hstep <;> cases hstep
    exact hbounded
  next group object chain hsaver =>
    rw [hsaver] at hsafe hholds
    obtain ⟨hup, hlocked, _, hnot⟩ := hholds
    cases hstep
    exact hbounded.setRow hup (fun other hother => (hlocked other hother).2) hnot hsafe

/-! ### Whole runs -/

structure Hierarchy (server : Server) : Prop where
  bounded : Bounded server.row
  holds : ∀ caller, (server.saver caller).Holds server.row server.lock caller

theorem Hierarchy.step (hserver : Hierarchy server) {action : SaveAction}
    (hsafe : SafeSave server action) (hstep : saveStep server action = some next) :
    Hierarchy next := by
  -- the caller of the step is looked at alone; the other saves keep what they have locked
  have hothers {caller : Nat} (hbounded : Bounded next.row) (hleaves : Leaves caller server next)
      (hown : (next.saver caller).Holds next.row next.lock caller) : Hierarchy next := by
    refine ⟨hbounded, fun other => ?_⟩
    by_cases heq : other = caller
    · exact heq ▸ hown
    · rw [hleaves.saver other heq]
      exact (hserver.holds other).frame (hleaves.lock other heq) (hleaves.row other heq)
  cases action with
  | create caller object =>
    simp only [saveStep] at hstep
    split at hstep <;> cases hstep
    refine hothers hserver.bounded (Leaves.setSaver _) ?_
    rw [Server.setSaver_saver_self]
    exact ⟨.refl _, nofun, nofun⟩
  | save caller group object =>
    simp only [saveStep] at hstep
    split at hstep
    next =>
      split at hstep <;> cases hstep
      refine hothers hserver.bounded (Leaves.setSaver _) ?_
      rw [Server.setSaver_saver_self]
      trivial
    next => cases hstep
  | advance caller fresh =>
    have hown := hserver.holds caller
    exact hothers (advance_bounded hserver.bounded hown hsafe hstep) (advance_leaves hown hstep)
      (advance_holds hown hstep)
  | fail caller =>
    cases hstep
    refine hothers hserver.bounded Leaves.release ?_
    rw [Server.release_saver_self]
    trivial

def twoGroups : Nat → Option GroupRow
  | 1 => some {}
  | 2 => some { parent := some 1 }
  | _ => none

theorem twoGroups_bounded : Bounded twoGroups := by
  rw [bounded_iff]
  intro group hgroup
  match group with
  | 0 => cases hgroup
  | 1 => exact ⟨[1], .root rfl, by decide, by decide⟩
  | 2 => exact ⟨[2, 1], .step rfl (.root rfl), by decide, by decide⟩
  | _ + 3 => cases hgroup

/-- Save 1 renames group 2; save 2 puts it at the top; save 3 puts group 1 below it. Save 1 has
read the parent before all this and writes it after it. -/
def lateSave : List SaveAction :=
  [.save 1 2 { parent := some 1 }, .advance 1 0] ++
  (.save 2 2 { parent := none } :: List.replicate 5 (.advance 2 0)) ++
  (.save 3 1 { parent := some 2 } :: List.replicate 6 (.advance 3 0)) ++ [.advance 1 0]

end DjangoMojo.Account
