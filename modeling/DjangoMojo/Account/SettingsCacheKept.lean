import DjangoMojo.Foundation.Trace
import DjangoMojo.Account.SettingsCache

/-! # When the cache of settings is transparent

An entry is settled if nothing is cached for it, or just what its row holds. Unless calls run
into each other, or a transaction takes back what it has pushed, an entry that is not settled is
about to be written by a session.
-/

namespace DjangoMojo.Account.SettingsCache

open Foundation

/-! ### Statements -/

namespace World

/-- Once no write is under way, `resolve` returns what the table alone determines. -/
def Transparent (dumps : Dumps) (world : World) : Prop :=
  (∀ id, world.sessions.get id = none) → ∀ name default chain,
    (resolve dumps world.rows name default (scopes chain) world.cache).1 =
      determined world.rows name default (scopes chain)

end World

/-- The next command writes the entry to the cache or deletes it there. -/
def Session.Owes (session : Session) (entry : Entry) : Prop :=
  match session.commands with
  | .push row :: _ => row.entry = entry
  | .evict other :: _ => other = entry
  | _ => False

def Settled (rows : Rows) (cache : Cache) (entry : Entry) : Prop :=
  ∀ text, cache entry = some text → rows.getFromDb entry = some (.str text)

/-- The entries whose rows may be others after the changes. -/
def Change.entries (rows : Rows) : Change → List Entry
  | .put id row => row.entry :: (rows.get id).toList.map Row.entry
  | .drop id => (rows.get id).toList.map Row.entry

def entriesOf (rows : Rows) : List Change → List Entry
  | [] => []
  | change :: rest => change.entries rows ++ entriesOf (change.apply rows) rest

namespace World

/-- A session other than this one, outside a transaction, writes the entry next. -/
def OwedApart (world : World) (id : Nat) (entry : Entry) : Prop :=
  ∃ other session, other ≠ id ∧ world.sessions.get other = some session ∧
    session.atomic = false ∧ session.Owes entry

def Owed (world : World) (entry : Entry) : Prop :=
  ∃ id session, world.sessions.get id = some session ∧ session.atomic = false ∧
    session.Owes entry

/-- What the next command of a session may find. A save outside a transaction finds its row under
the entry that it writes; a push finds the text that it writes in the row; a deletion finds
nothing cached. In each case another session may be about to write the entry. -/
def CommandUndisturbed (world : World) (id : Nat) (session : Session) : Prop :=
  session.atomic = false →
    match session.commands with
    | .save key row :: _ => ∀ old, world.rows.get key = some old → old.entry = row.entry ∨
        world.cache old.entry = none ∨ world.OwedApart id old.entry
    | .push row :: _ => row.setting.getValue = .null ∨
        (∃ text, row.setting.getValue = .str text ∧
          world.rows.getFromDb row.entry = some (.str text)) ∨ world.OwedApart id row.entry
    | .delete key :: _ => ∀ old, world.rows.get key = some old →
        world.cache old.entry = none ∨ world.OwedApart id old.entry
    | _ => True

/-- A transaction that ends with `COMMIT` finds cached for its entries what it commits, or nothing;
one that ends with `ROLLBACK` has pushed nothing. -/
def CloseUndisturbed (world : World) (session : Session) (commits : Bool) : Prop :=
  session.atomic = true →
    if commits then
      ∀ entry ∈ session.pushed ++ entriesOf world.rows session.changes,
        ∀ text, world.cache entry = some text →
          (session.view world.rows).getFromDb entry = some (.str text)
    else session.pushed = []

/-- A value is filled in while the row still holds it, a text, or while a session is about to
write the entry. -/
def FillUndisturbed (world : World) : Reader → Prop
  | .filling entry value => (∃ text, value = .str text ∧
      world.rows.getFromDb entry = some (.str text)) ∨ world.Owed entry
  | _ => True

def Undisturbed (world : World) (label : Label) (_ : World) : Prop :=
  match label with
  | .next id => ∀ session, world.sessions.get id = some session →
      world.CommandUndisturbed id session
  | .close id commits => ∀ session, world.sessions.get id = some session →
      world.CloseUndisturbed session commits
  | .read id => ∀ reader, world.readers.get id = some reader → world.FillUndisturbed reader
  | _ => True

end World

/-! ### Rows of other entries -/

theorem getFromDb_put {rows : Rows} {id : Nat} {row : Row} {entry : Entry}
    (hnew : row.entry ≠ entry) (hold : ∀ old, rows.get id = some old → old.entry ≠ entry) :
    Rows.getFromDb (rows.put id row) entry = rows.getFromDb entry := by
  have hfilter : Rows.filter (rows.put id row) entry = rows.filter entry :=
    Table.select_put_of_not (by simpa using hnew) fun old hget => by simpa using hold old hget
  have hfirst : Rows.first (rows.put id row) entry = rows.first entry := by
    rw [Rows.first, Rows.first, hfilter]
    cases hhead : (rows.filter entry).head? with
    | none => rfl
    | some found =>
      have hmem : found ∈ rows.filter entry := List.mem_of_head? hhead
      obtain ⟨other, hother, hentry⟩ := Table.mem_select.mp hmem
      have hne : found ≠ id := by
        rintro rfl
        exact hold other hother (by simpa using hentry)
      rw [Option.bind_some, Option.bind_some, Table.get_put, if_neg hne]
  rw [Rows.getFromDb, Rows.getFromDb, hfirst]

theorem getFromDb_delete {rows : Rows} {id : Nat} {entry : Entry}
    (hold : ∀ old, rows.get id = some old → old.entry ≠ entry) :
    Rows.getFromDb (rows.delete id) entry = rows.getFromDb entry := by
  have hfilter : Rows.filter (rows.delete id) entry = rows.filter entry :=
    Table.select_delete_of_not fun old hget => by simpa using hold old hget
  have hfirst : Rows.first (rows.delete id) entry = rows.first entry := by
    rw [Rows.first, Rows.first, hfilter]
    cases hhead : (rows.filter entry).head? with
    | none => rfl
    | some found =>
      have hmem : found ∈ rows.filter entry := List.mem_of_head? hhead
      obtain ⟨other, hother, hentry⟩ := Table.mem_select.mp hmem
      have hne : found ≠ id := by
        rintro rfl
        exact hold other hother (by simpa using hentry)
      rw [Option.bind_some, Option.bind_some, Table.get_delete, if_neg hne]
  rw [Rows.getFromDb, Rows.getFromDb, hfirst]

theorem getFromDb_apply {rows : Rows} {change : Change} {entry : Entry}
    (hentry : entry ∉ change.entries rows) :
    Rows.getFromDb (change.apply rows) entry = rows.getFromDb entry := by
  cases change with
  | put id row =>
    refine getFromDb_put (fun heq => hentry ?_) fun old hget heq => hentry ?_
    · rw [← heq]
      exact List.mem_cons_self
    · rw [Change.entries, hget]
      exact List.mem_cons_of_mem _ (by simp [heq])
  | drop id =>
    refine getFromDb_delete fun old hget heq => hentry ?_
    rw [Change.entries, hget]
    simp [heq]

theorem getFromDb_foldl {changes : List Change} {rows : Rows} {entry : Entry}
    (hentry : entry ∉ entriesOf rows changes) :
    Rows.getFromDb (changes.foldl Change.apply rows) entry = rows.getFromDb entry := by
  induction changes generalizing rows with
  | nil => rfl
  | cons change rest ih =>
    rw [entriesOf, List.mem_append, not_or] at hentry
    rw [List.foldl_cons, ih hentry.2, getFromDb_apply hentry.1]

/-- Where every entry of the walk is settled, the cache changes no answer. -/
theorem resolve_eq_determined {dumps : Dumps} {rows : Rows} {cache : Cache} {name : String}
    {default : Json} {walk : List (Option Nat)}
    (hsettled : ∀ group ∈ walk, Settled rows cache ⟨group, name⟩) :
    (resolve dumps rows name default walk cache).1 = determined rows name default walk := by
  induction walk with
  | nil => rfl
  | cons group rest ih =>
    have hrest := ih fun other hother => hsettled other (List.mem_cons_of_mem _ hother)
    have hgroup := hsettled group List.mem_cons_self
    rw [resolve, determined]
    split
    next text hcached => rw [hgroup text hcached]
    next hmissing =>
      split
      next value hvalue => rfl
      next hnone => exact hrest

/-! ### The invariant -/

/-- The session still has to write the entry, or to commit what it has written for it. -/
def Session.Pending (session : Session) (entry : Entry) : Prop :=
  if session.atomic then entry ∈ session.pushed else session.Owes entry

theorem Session.owes_of_pending {session : Session} {entry : Entry}
    (hatomic : session.atomic = false) (hpending : session.Pending entry) :
    session.Owes entry := by
  rw [Session.Pending, hatomic] at hpending
  exact hpending

namespace World

variable {dumps : Dumps} {world after : World}

def Pending (world : World) (entry : Entry) : Prop :=
  ∃ id session, world.sessions.get id = some session ∧ session.Pending entry

structure Sound (world : World) : Prop where
  settled : ∀ entry, Settled world.rows world.cache entry ∨ world.Pending entry

theorem sound_start : start.Sound where
  settled entry := .inl fun text hcached => by cases hcached

theorem Pending.kept {entry : Entry} (hpending : world.Pending entry) (id : Nat)
    (hothers : ∀ other, other ≠ id → after.sessions.get other = world.sessions.get other)
    (hkeeps : ∀ old, world.sessions.get id = some old → old.Pending entry →
      after.Pending entry) : after.Pending entry := by
  obtain ⟨other, session, hsession, hentry⟩ := hpending
  by_cases heq : other = id
  · subst heq
    exact hkeeps session hsession hentry
  · exact ⟨other, session, (hothers other heq).trans hsession, hentry⟩

theorem OwedApart.pending {entry : Entry} {id : Nat} (howed : world.OwedApart id entry)
    (hothers : ∀ other, other ≠ id → after.sessions.get other = world.sessions.get other) :
    after.Pending entry := by
  obtain ⟨other, session, hne, hsession, hatomic, howes⟩ := howed
  refine ⟨other, session, (hothers other hne).trans hsession, ?_⟩
  rw [Session.Pending, hatomic]
  exact howes

theorem get_setSession (world : World) (id : Nat) (session : Session) (other : Nat) :
    (world.setSession id session).sessions.get other =
      if other = id then some session else world.sessions.get other :=
  Table.get_put world.sessions id session other

theorem pending_setSession {id : Nat} {session : Session} {entry : Entry}
    (hentry : session.Pending entry) : (world.setSession id session).Pending entry :=
  ⟨id, session, by rw [get_setSession, if_pos rfl], hentry⟩

theorem Sound.setSession (hsound : world.Sound) {id : Nat} {session : Session}
    (hkeeps : ∀ old entry, world.sessions.get id = some old → old.Pending entry →
      session.Pending entry) : (world.setSession id session).Sound where
  settled entry := by
    refine (hsound.settled entry).imp_right fun hpending => ?_
    refine hpending.kept id (fun other hne => ?_) fun old hold hentry => ?_
    · rw [get_setSession, if_neg hne]
    · exact pending_setSession (hkeeps old entry hold hentry)

theorem pushed_of_str {row : Row} {text : String} (hvalue : row.setting.getValue = .str text) :
    pushed dumps row = some text := by
  rw [pushed, hvalue]
  rfl

theorem pushed_eq_none {row : Row} (hvalue : row.setting.getValue = .null) :
    pushed dumps row = none := by
  rw [pushed, hvalue]

section Commands

variable {id : Nat} {session : Session} {rest : List Command}
variable (hsession : world.sessions.get id = some session)
include hsession

theorem Sound.setCache (hsound : world.Sound) {entry : Entry} {text : Option String}
    {later : Session} (hatomic : later.atomic = session.atomic)
    (hpushed : ∀ other ∈ session.pushed, other ∈ later.pushed)
    (howes : ∀ other, session.Owes other → other = entry)
    (hentry : (∀ found, text = some found → world.rows.getFromDb entry = some (.str found)) ∨
      ((world.setCache entry text).setSession id later).Pending entry) :
    ((world.setCache entry text).setSession id later).Sound where
  settled other := by
    by_cases heq : other = entry
    · subst heq
      refine hentry.imp_left fun hfound found hcached => hfound found ?_
      change Function.update world.cache other text other = some found at hcached
      rwa [Function.update_self] at hcached
    · rcases hsound.settled other with hsettled | hpending
      · refine .inl fun found hcached => hsettled found ?_
        change Function.update world.cache entry text other = some found at hcached
        rwa [Function.update_of_ne heq] at hcached
      · refine .inr (hpending.kept id (fun key hne => ?_) fun old hold hothers => ?_)
        · exact (get_setSession _ id later key).trans (if_neg hne)
        · rw [hsession] at hold
          cases hold
          refine pending_setSession ?_
          rw [Session.Pending, hatomic]
          cases hbool : session.atomic with
          | true =>
            rw [Session.Pending, hbool] at hothers
            exact hpushed other hothers
          | false => exact absurd (howes other (Session.owes_of_pending hbool hothers)) heq

theorem Sound.setRows (hsound : world.Sound) {change : Change} {later : Session}
    (hatomic : session.atomic = false) (howes : ∀ other, ¬ session.Owes other)
    (hentry : ∀ entry ∈ change.entries world.rows,
      world.cache entry = none ∨ world.OwedApart id entry ∨ later.Pending entry) :
    (({ world with rows := change.apply world.rows } : World).setSession id later).Sound where
  settled entry := by
    have hothers : ∀ other, other ≠ id →
        (({ world with rows := change.apply world.rows } : World).setSession id
          later).sessions.get other = world.sessions.get other := by
      intro other hne
      rw [get_setSession, if_neg hne]
    by_cases hmem : entry ∈ change.entries world.rows
    · rcases hentry entry hmem with hmissing | howed | hlater
      · refine .inl fun text hcached => ?_
        change world.cache entry = some text at hcached
        rw [hmissing] at hcached
        cases hcached
      · exact .inr (howed.pending hothers)
      · exact .inr (pending_setSession hlater)
    · refine (hsound.settled entry).imp (fun hsettled text hcached => ?_) fun hpending => ?_
      · exact (getFromDb_apply hmem).trans (hsettled text hcached)
      · refine hpending.kept id hothers fun old hold hold' => ?_
        rw [hsession] at hold
        cases hold
        exact absurd (Session.owes_of_pending hatomic hold') (howes entry)

theorem Sound.change (hsound : world.Sound) (change : Change) (commands : List Command)
    (hnone : ∀ other, ¬ session.Owes other)
    (hentry : session.atomic = false → ∀ entry ∈ change.entries world.rows,
      world.cache entry = none ∨ world.OwedApart id entry ∨
        ({ session with commands := commands } : Session).Owes entry) :
    ((world.change session change).1.setSession id
      { (world.change session change).2 with commands := commands }).Sound := by
  cases hatomic : session.atomic with
  | true =>
    rw [World.change, if_pos hatomic]
    refine hsound.setSession fun old entry hold hpending => ?_
    rw [hsession] at hold
    cases hold
    rw [Session.Pending, if_pos hatomic] at hpending
    exact (if_pos hatomic).mpr hpending
  | false =>
    rw [World.change, if_neg (by rw [hatomic]; exact Bool.false_ne_true)]
    refine hsound.setRows hsession hatomic hnone fun entry hmem => ?_
    refine (hentry hatomic entry hmem).imp_right (Or.imp_right fun howes => ?_)
    rw [Session.Pending, hatomic]
    exact howes

end Commands

theorem Sound.next (hsound : world.Sound) {id : Nat} {session : Session}
    (hsession : world.sessions.get id = some session)
    (hclean : world.CommandUndisturbed id session)
    (hnext : world.next dumps id session = some after) : after.Sound := by
  unfold World.next at hnext
  unfold CommandUndisturbed at hclean
  split at hnext
  next hcommands => cases hnext
  next key row rest hcommands =>
    rw [hcommands] at hclean
    split at hnext
    next => cases hnext
    next =>
      cases hnext
      have hnone : ∀ other, ¬ session.Owes other := by
        intro other howes
        rw [Session.Owes, hcommands] at howes
        exact howes
      refine hsound.change hsession (.put key row) _ hnone fun hatomic entry hentry => ?_
      rcases List.mem_cons.mp hentry with rfl | hentry
      · exact .inr (.inr rfl)
      · obtain ⟨old, hold, rfl⟩ := List.mem_map.mp hentry
        rcases hclean hatomic old (Option.mem_toList.mp hold) with hsame | hmissing | howed
        · exact .inr (.inr hsame.symm)
        · exact .inl hmissing
        · exact .inr (.inl howed)
  next row rest hcommands =>
    rw [hcommands] at hclean
    cases hnext
    have howes : ∀ other, session.Owes other → other = row.entry := by
      intro other howes
      rw [Session.Owes, hcommands] at howes
      exact howes.symm
    refine hsound.setCache hsession rfl (fun other hother => ?_) howes ?_
    · split
      · exact List.mem_cons_of_mem _ hother
      · exact hother
    cases hatomic : session.atomic with
    | true =>
      cases htext : pushed dumps row with
      | none =>
        refine .inl fun found hfound => ?_
        cases hfound
      | some text =>
        refine .inr (pending_setSession ?_)
        change row.entry ∈ row.entry :: session.pushed
        exact List.mem_cons_self
    | false =>
      rcases hclean hatomic with hnull | ⟨text, hvalue, hrow⟩ | howed
      · rw [pushed_eq_none hnull]
        refine .inl fun found hfound => ?_
        cases hfound
      · rw [pushed_of_str hvalue]
        refine .inl fun found hfound => ?_
        cases hfound
        exact hrow
      · refine .inr (howed.pending fun other hne => ?_)
        exact (get_setSession _ id _ other).trans (if_neg hne)
  next entry rest hcommands =>
    cases hnext
    refine hsound.setCache hsession rfl (fun _ hother => hother) (fun other howes => ?_) (.inl ?_)
    · rw [Session.Owes, hcommands] at howes
      exact howes.symm
    · intro found hfound
      cases hfound
  next key rest hcommands =>
    rw [hcommands] at hclean
    cases hnext
    have hnone : ∀ other, ¬ session.Owes other := by
      intro other howes
      rw [Session.Owes, hcommands] at howes
      exact howes
    refine hsound.change hsession (.drop key) _ hnone fun hatomic entry hentry => ?_
    obtain ⟨old, hold, rfl⟩ := List.mem_map.mp hentry
    exact (hclean hatomic old (Option.mem_toList.mp hold)).imp_right .inl

theorem Sound.close (hsound : world.Sound) {id : Nat} {session : Session} {commits : Bool}
    (hsession : world.sessions.get id = some session)
    (hclean : world.CloseUndisturbed session commits)
    (hclose : world.close id session commits = some after) : after.Sound := by
  have hothers : ∀ other, other ≠ id →
      (world.sessions.delete id).get other = world.sessions.get other := by
    intro other hne
    rw [Table.get_delete, if_neg hne]
  -- where nothing of the session is pending, the others keep what was
  have hdone : ∀ rows : Rows, ∀ entry, ¬ session.Pending entry →
      rows.getFromDb entry = world.rows.getFromDb entry →
      Settled rows world.cache entry ∨
        ({ world with rows := rows, sessions := world.sessions.delete id } : World).Pending
          entry := by
    intro rows entry hnot hrows
    rcases hsound.settled entry with hsettled | hpending
    · exact .inl fun text hcached => hrows.trans (hsettled text hcached)
    · refine .inr (hpending.kept id hothers fun old hold hentry => ?_)
      rw [hsession] at hold
      cases hold
      exact absurd hentry hnot
  unfold World.close at hclose
  cases commits with
  | true =>
    simp only [if_true] at hclose
    split at hclose
    next hempty =>
      cases hclose
      have hcommands : session.commands = [] := List.isEmpty_iff.mp hempty
      cases hatomic : session.atomic with
      | true =>
        refine ⟨fun entry => ?_⟩
        rw [if_pos rfl]
        by_cases hmem : entry ∈ session.pushed ++ entriesOf world.rows session.changes
        · exact .inl (hclean hatomic entry hmem)
        · rw [List.mem_append, not_or] at hmem
          refine hdone _ entry (fun hpending => hmem.1 ?_) (getFromDb_foldl hmem.2)
          rwa [Session.Pending, if_pos hatomic] at hpending
      | false =>
        refine ⟨fun entry => hdone _ entry (fun hpending => ?_) rfl⟩
        have howes := Session.owes_of_pending hatomic hpending
        rw [Session.Owes, hcommands] at howes
        exact howes
    next => cases hclose
  | false =>
    simp only [Bool.false_eq_true, if_false] at hclose
    split at hclose
    next hatomic =>
      cases hclose
      refine ⟨fun entry => hdone _ entry (fun hpending => ?_) rfl⟩
      have hnothing : session.pushed = [] := hclean hatomic
      rw [Session.Pending, if_pos hatomic, hnothing] at hpending
      cases hpending
    next => cases hclose

theorem Sound.read (hsound : world.Sound) {id : Nat} {reader : Reader}
    (hclean : world.FillUndisturbed reader) : (world.read dumps id reader).Sound := by
  cases reader with
  | asking name walk =>
    cases walk with
    | nil => exact ⟨hsound.settled⟩
    | cons group rest =>
      simp only [World.read]
      split <;> exact ⟨hsound.settled⟩
  | selecting name group rest =>
    simp only [World.read]
    split <;> exact ⟨hsound.settled⟩
  | filling entry value =>
    refine ⟨fun other => ?_⟩
    by_cases heq : other = entry
    · subst heq
      rcases hclean with ⟨text, rfl, hrow⟩ | howed
      · refine .inl fun found hcached => ?_
        change Function.update world.cache other (some text) other = some found at hcached
        rw [Function.update_self] at hcached
        cases hcached
        exact hrow
      · obtain ⟨key, session, hsession, hatomic, howes⟩ := howed
        refine .inr ⟨key, session, hsession, ?_⟩
        rw [Session.Pending, hatomic]
        exact howes
    · refine (hsound.settled other).imp_left fun hsettled found hcached => hsettled found ?_
      change Function.update world.cache entry _ other = some found at hcached
      rwa [Function.update_of_ne heq] at hcached

theorem Sound.step (hsound : world.Sound) {label : Label}
    (hclean : world.Undisturbed label after) (hnext : world.step dumps label = some after) :
    after.Sound := by
  cases label with
  | openSession id atomic =>
    simp only [World.step] at hnext
    split at hnext
    next => cases hnext
    next hfree =>
      cases hnext
      refine hsound.setSession fun old entry hold _ => ?_
      rw [hold] at hfree
      exact absurd rfl hfree
  | call id call =>
    obtain ⟨session, hsession, hcall⟩ := Option.bind_eq_some_iff.mp hnext
    split at hcall
    next hempty =>
      cases hcall
      refine hsound.setSession fun old entry hold hpending => ?_
      rw [hsession] at hold
      cases hold
      have hcommands : session.commands = [] := List.isEmpty_iff.mp hempty
      cases hatomic : session.atomic with
      | true =>
        rw [Session.Pending, if_pos hatomic] at hpending
        exact hpending
      | false =>
        have howes := Session.owes_of_pending hatomic hpending
        rw [Session.Owes, hcommands] at howes
        exact howes.elim
    next => cases hcall
  | next id =>
    obtain ⟨session, hsession, hcommand⟩ := Option.bind_eq_some_iff.mp hnext
    exact hsound.next hsession (hclean session hsession) hcommand
  | refuse id =>
    obtain ⟨session, hsession, hrefuse⟩ := Option.bind_eq_some_iff.mp hnext
    split at hrefuse
    next key row rest hcommands =>
      cases hrefuse
      refine hsound.setSession fun old entry hold hpending => ?_
      rw [hsession] at hold
      cases hold
      cases hatomic : session.atomic with
      | true =>
        rw [Session.Pending, if_pos hatomic] at hpending
        exact hpending
      | false =>
        have howes := Session.owes_of_pending hatomic hpending
        rw [Session.Owes, hcommands] at howes
        exact howes.elim
    next => cases hrefuse
  | close id commits =>
    obtain ⟨session, hsession, hclose⟩ := Option.bind_eq_some_iff.mp hnext
    exact hsound.close hsession (hclean session hsession) hclose
  | resolve id name chain =>
    simp only [World.step] at hnext
    split at hnext
    next => cases hnext
    next =>
      cases hnext
      exact ⟨hsound.settled⟩
  | read id =>
    obtain ⟨reader, hreader, rfl⟩ := Option.map_eq_some_iff.mp hnext
    exact hsound.read (hclean reader hreader)

theorem Sound.transparent (hsound : world.Sound) : world.Transparent dumps := by
  intro hnone name default chain
  refine resolve_eq_determined fun group _ => ?_
  rcases hsound.settled ⟨group, name⟩ with hsettled | ⟨id, session, hsession, _⟩
  · exact hsettled
  · rw [hnone id] at hsession
    cases hsession

def textDumps : Dumps := ⟨fun _ => "null", fun _ htext => by simp at htext⟩

/-- `Setting.set` with a text, and the commands that it comes to. -/
def setText (atomic : Bool) : List Label :=
  [.openSession 0 atomic, .call 0 (.set 0 ⟨none, "SITE_NAME"⟩ (.str "Mojo") false),
    .next 0, .next 0, .next 0, .next 0, .next 0]

end World

end DjangoMojo.Account.SettingsCache
