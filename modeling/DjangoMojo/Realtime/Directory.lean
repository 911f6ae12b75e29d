import DjangoMojo.Foundation.Trace
import DjangoMojo.Realtime.Handler

/-! # The presence set against the open sockets

When does the presence set list the open connections, and no more of them than
the cap allows? When no command runs into one of the gaps between the commands
of the handlers: the conditions are on single steps, and hold of runs.
-/

namespace DjangoMojo.Realtime

open Foundation

def Call.isCount : Call → Bool
  | .count | .returned _ => true
  | .add | .expireAdded | .refresh | .other => false

namespace Handler

def inWindow (handler : Handler) : Bool :=
  handler.task = .updating || handler.task = .registering && handler.call = some .add

/-- Open and authenticated, or past the cap and about to be. -/
def hasSlot (config : Config) (handler : Handler) : Bool :=
  handler.isOpen && handler.authenticated ||
    handler.task = .counting &&
      match handler.call with
      | some (.returned value) => value < config.maxConnections
      | _ => false

def isPending (config : Config) (handler : Handler) : Bool :=
  handler.hasSlot config && (!handler.authenticated || handler.inWindow)

def isQuiet (handler : Handler) : Bool :=
  handler.call = none && (handler.waits || handler.cleanup = .done)

end Handler

namespace System

def isQuiet (system : System) : Bool := system.handlers.all Handler.isQuiet

structure Exact (config : Config) (system : System) : Prop where
  listed : system.isQuiet = true → system.getUserConnections = system.openConnections
  capped : 0 < config.maxConnections → (system.openConnections.card : Int) ≤ config.maxConnections
  /-- Once all messages of the calls of `disconnect_user` are delivered. -/
  disconnected : system.publishing = [] → ∀ id ∈ system.forced, ∀ handler,
    system.handlers[id]? = some handler → handler.mail = [] → handler.isOpen = false

/-- The step runs into no gap: the presence set does not expire while it shows an open
connection, a count leaves room for the slots that it does not show, a connection is not added
behind its own clean-up or before the `delete` of another one, and `disconnect_user` finds
nobody. -/
def undisturbed (config : Config) (system : System) : Action → Bool
  | .tick elapsed =>
    !system.online.isExpired (system.now + elapsed) ||
      system.openConnections ∩ system.online.members = ∅
  | .exec id =>
    match system.handlers[id]? with
    | none => true
    | some handler =>
      match handler.call with
      | some .count =>
        handler.task = .ended || config.maxConnections ≤ system.online.scard ||
          ((system.online.scard + (system.matching (Handler.isPending config)).card : Nat) :
            Int) < config.maxConnections
      | some .add =>
        (handler.cleanup = .none || handler.cleanup = .remove) &&
          system.matching (·.cleanup = .delete) = ∅
      | _ => true
  | .disconnectUser _ => system.openConnections = ∅
  | _ => true

end System

/-! ### What holds of every handler -/

/-- What ties a handler to the members of the presence set. -/
structure Handler.Sound (members : Finset Nat) (id : Nat) (handler : Handler) : Prop where
  stays : handler.isOpen = true → handler.cleanup = .none
  leaves : handler.task = .ended ↔ handler.cleanup ≠ .none
  counts : handler.task = .counting →
    handler.authenticated = false ∧ handler.call.any Call.isCount = true
  updates : handler.task = .updating → handler.authenticated = true
  adds : handler.call = some .add → handler.authenticated = true
  member : id ∈ members → handler.authenticated = true ∧
    (handler.cleanup = .none ∨ handler.cleanup = .remove)
  listed : handler.isOpen = true → handler.authenticated = true → handler.inWindow = false →
    id ∈ members
  deletes : handler.cleanup = .delete → members = ∅

structure System.Sound (config : Config) (system : System) : Prop where
  known : ∀ id ∈ system.online.members, id < system.handlers.length
  handlers : ∀ id (handler : Handler), system.handlers[id]? = some handler →
    handler.Sound system.online.members id
  slots : 0 < config.maxConnections →
    ((system.matching (Handler.hasSlot config)).card : Int) ≤ config.maxConnections
  calm : system.forced = []

namespace System

variable {config : Config} {system : System}

theorem mem_matching {condition : Handler → Bool} {id : Nat} :
    id ∈ system.matching condition ↔
      ∃ handler, system.handlers[id]? = some handler ∧ condition handler = true := by
  rw [matching, Finset.mem_filter, Finset.mem_range, Option.any_eq_true]
  constructor
  · exact fun hmem => hmem.2
  · rintro ⟨handler, hget, hcondition⟩
    exact ⟨(List.getElem?_eq_some_iff.mp hget).1, handler, hget, hcondition⟩

/-- A change of one handler changes what meets a condition at most by that handler. -/
theorem matching_set_subset (system : System) (condition : Handler → Bool) (id : Nat)
    (changed : Handler) (online : Presence) :
    ((system.put id changed online).matching condition) ⊆
      insert id (system.matching condition) := by
  intro other hother
  obtain ⟨found, hfound, hcondition⟩ := mem_matching.mp hother
  rw [Finset.mem_insert, mem_matching]
  by_cases heq : other = id
  · exact .inl heq
  · refine .inr ⟨found, ?_, hcondition⟩
    have hset : (system.handlers.set id changed)[other]? = some found := hfound
    rwa [List.getElem?_set_ne (Ne.symm heq)] at hset

theorem matching_set_of_imp {condition : Handler → Bool} {id : Nat} {handler changed : Handler}
    (hget : system.handlers[id]? = some handler)
    (himp : condition changed = true → condition handler = true) (online : Presence) :
    ((system.put id changed online).matching condition) ⊆ system.matching condition := by
  intro other hother
  obtain hsame | hold := Finset.mem_insert.mp
    (matching_set_subset system condition id changed online hother)
  · subst hsame
    obtain ⟨found, hfound, hcondition⟩ := mem_matching.mp hother
    have hset : (system.handlers.set other changed)[other]? = some found := hfound
    rw [List.getElem?_set_self (List.getElem?_eq_some_iff.mp hget).1] at hset
    cases hset
    exact mem_matching.mpr ⟨handler, hget, himp hcondition⟩
  · exact hold

namespace Sound

theorem change (hsound : Sound config system) {id : Nat} {handler changed : Handler}
    (online : Presence) (hget : system.handlers[id]? = some handler)
    (hself : changed.Sound online.members id)
    (hothers : ∀ other found, other ≠ id → system.handlers[other]? = some found →
      found.Sound system.online.members other → found.Sound online.members other)
    (hknown : ∀ other ∈ online.members, other = id ∨ other ∈ system.online.members)
    (hslots : 0 < config.maxConnections →
      (changed.hasSlot config = true → handler.hasSlot config = true) ∨
        (((system.matching (Handler.hasSlot config)).card + 1 : Nat) : Int) ≤
          config.maxConnections) :
    Sound config (system.put id changed online) where
  known other hother := by
    change other < (system.handlers.set id changed).length
    rw [List.length_set]
    obtain rfl | hold := hknown other hother
    · exact (List.getElem?_eq_some_iff.mp hget).1
    · exact hsound.known other hold
  handlers other found hfound := by
    have hset : (system.handlers.set id changed)[other]? = some found := hfound
    by_cases heq : other = id
    · subst heq
      rw [List.getElem?_set_self (List.getElem?_eq_some_iff.mp hget).1] at hset
      cases hset
      exact hself
    · rw [List.getElem?_set_ne (Ne.symm heq)] at hset
      exact hothers other found heq hset (hsound.handlers other found hset)
  slots hpositive := by
    obtain himp | hroom := hslots hpositive
    · have hle := Finset.card_le_card (matching_set_of_imp hget himp online)
      have hold := hsound.slots hpositive
      omega
    · have hle := Finset.card_le_card
        (matching_set_subset system (Handler.hasSlot config) id changed online)
      have hinsert := Finset.card_insert_le id (system.matching (Handler.hasSlot config))
      exact (Int.ofNat_le.mpr (hle.trans hinsert)).trans hroom
  calm := hsound.calm

theorem keep (hsound : Sound config system) {id : Nat} {handler changed : Handler}
    (hget : system.handlers[id]? = some handler)
    (hself : changed.Sound system.online.members id)
    (hslots : changed.hasSlot config = true → handler.hasSlot config = true) :
    Sound config (system.put id changed) :=
  hsound.change system.online hget hself (fun _ _ _ _ hfound => hfound)
    (fun _ hother => .inr hother) (fun _ => .inl hslots)

end Sound

end System

/-! ### What the steps of a handler keep -/

namespace Handler.Sound

variable {config : Config} {members others : Finset Nat} {id other : Nat} {handler : Handler}

/-- A handler is told apart by its socket, its user, its task, its call and its clean-up. -/
theorem congr (hsound : handler.Sound members id) {same : Handler}
    (hopen : same.isOpen = handler.isOpen) (hauth : same.authenticated = handler.authenticated)
    (htask : same.task = handler.task) (hcall : same.call = handler.call)
    (hcleanup : same.cleanup = handler.cleanup) : same.Sound members id := by
  obtain ⟨hstays, hleaves, hcounts, hupdates, hadds, hmember, hlisted, hdeletes⟩ := hsound
  constructor <;> simp only [inWindow, hopen, hauth, htask, hcall, hcleanup] <;> assumption

theorem connected (now : Time) (habsent : id ∉ members) :
    (Handler.connected now).Sound members id where
  stays _ := rfl
  leaves := by simp [Handler.connected]
  counts := nofun
  updates := nofun
  adds := nofun
  member hmem := absurd hmem habsent
  listed _ hauth := by simp [Handler.connected] at hauth
  deletes := nofun

theorem waits_iff : handler.waits = true ↔ handler.isOpen = true ∧ handler.task = .idle := by
  simp [waits]

theorem begins (hsound : handler.Sound members id) {task : Task} {call : Call}
    (hlive : handler.task ≠ .ended) (htask : task ≠ .ended) (hcall : call ≠ .add)
    (hcounts : task = .counting → handler.authenticated = false ∧ call.isCount = true)
    (hupdates : task = .updating → handler.authenticated = true)
    (hwindow : handler.inWindow = true → handler.authenticated = true → handler.isOpen = true →
      task = .updating) :
    Handler.Sound members id { handler with task, call := some call } := by
  obtain ⟨hstays, hleaves, _, _, hadds, hmember, hlisted, hdeletes⟩ := hsound
  have hclean : handler.cleanup = .none := by
    by_contra hne
    exact hlive (hleaves.mpr hne)
  refine ⟨fun _ => hclean, by simp [htask, hclean], hcounts, hupdates, by simp [hcall], hmember,
    fun hopen hauth hout => ?_, hdeletes⟩
  cases hold : handler.inWindow with
  | false => exact hlisted hopen hauth hold
  | true => simp [inWindow, hwindow hold hauth hopen] at hout

theorem rests (hsound : handler.Sound members id) (hlive : handler.task ≠ .ended)
    (hout : handler.inWindow = false) :
    Handler.Sound members id { handler with task := .idle, call := none } := by
  obtain ⟨hstays, hleaves, _, _, _, hmember, hlisted, hdeletes⟩ := hsound
  have hclean : handler.cleanup = .none := by
    by_contra hne
    exact hlive (hleaves.mpr hne)
  exact ⟨fun _ => hclean, by simp [hclean], nofun, nofun, nofun, hmember,
    fun hopen hauth _ => hlisted hopen hauth hout, hdeletes⟩

theorem registers (hsound : handler.Sound members id) (htask : handler.task = .updating) :
    Handler.Sound members id { handler with task := .registering, call := some .add } := by
  obtain ⟨hstays, hleaves, _, hupdates, _, hmember, _, hdeletes⟩ := hsound
  have hclean : handler.cleanup = .none := by
    by_contra hne
    have hended := hleaves.mpr hne
    rw [htask] at hended
    cases hended
  exact ⟨fun _ => hclean, by simp [hclean], nofun, nofun, fun _ => hupdates htask, hmember,
    fun _ _ hout => by simp [inWindow] at hout, hdeletes⟩

theorem accept (hsound : handler.Sound members id) (hlive : handler.task ≠ .ended) :
    handler.accept.Sound members id := by
  obtain ⟨hstays, hleaves, _, _, hadds, hmember, hlisted, hdeletes⟩ := hsound
  have hclean : handler.cleanup = .none := by
    by_contra hne
    exact hlive (hleaves.mpr hne)
  refine ⟨fun _ => hclean, by simp [Handler.accept, hclean], nofun, fun _ => rfl, nofun,
    fun hmem => ?_, fun _ _ hout => by simp [Handler.accept, inWindow] at hout, hdeletes⟩
  exact ⟨rfl, (hmember hmem).2⟩

theorem closes (hsound : handler.Sound members id) :
    Handler.Sound members id { handler with isOpen := false } :=
  ⟨nofun, hsound.leaves, hsound.counts, hsound.updates, hsound.adds, hsound.member, nofun,
    hsound.deletes⟩

/-- The task of a closed socket is over, whatever its call still does. -/
theorem leave (hsound : handler.Sound members id) (hclosed : handler.isOpen = false)
    (hlive : handler.task ≠ .ended) {call : Option Call}
    (hcall : call = some .add → handler.call = some .add) :
    Handler.Sound members id { handler.leave with call } := by
  obtain ⟨_, hleaves, _, _, hadds, hmember, _, _⟩ := hsound
  have hclean : handler.cleanup = .none := by
    by_contra hne
    exact hlive (hleaves.mpr hne)
  refine ⟨fun hopen => ?_, ?_, nofun, nofun, fun hadd => hadds (hcall hadd), fun hmem => ?_,
    fun hopen => ?_, fun hdelete => ?_⟩
  · simp [Handler.leave, hclosed] at hopen
  · cases hauth : handler.authenticated <;> simp [Handler.leave, hauth]
  · exact ⟨(hmember hmem).1, .inr (if_pos (hmember hmem).1)⟩
  · simp [Handler.leave, hclosed] at hopen
  · cases hauth : handler.authenticated <;> simp [Handler.leave, hauth] at hdelete

theorem finish (hsound : handler.Sound members id) (hcall : handler.call ≠ some .add)
    (value : Nat) : (handler.finish value).Sound members id := by
  obtain ⟨hstays, hleaves, hcounts, hupdates, _, hmember, hlisted, hdeletes⟩ := hsound
  have hnot : (handler.finish value).call ≠ some .add := by
    rw [Handler.finish]
    dsimp only
    split <;> simp
  refine ⟨hstays, hleaves, fun htask => ⟨(hcounts htask).1, ?_⟩, hupdates,
    fun hadd => absurd hadd hnot, hmember, fun hopen hauth hout => hlisted hopen hauth ?_, hdeletes⟩
  · have hcounting : handler.task = .counting := htask
    simp [Handler.finish, hcounting, Call.isCount]
  rw [inWindow, decide_eq_false hnot] at hout
  rw [inWindow, decide_eq_false hcall]
  exact hout

theorem sadd (hsound : handler.Sound members id) (hcall : handler.call = some .add)
    (hclean : handler.cleanup = .none ∨ handler.cleanup = .remove) :
    Handler.Sound (insert id members) id { handler with call := some .expireAdded } := by
  obtain ⟨hstays, hleaves, hcounts, hupdates, hadds, _, _, _⟩ := hsound
  refine ⟨hstays, hleaves, fun htask => ?_, hupdates, nofun, fun _ => ⟨hadds hcall, hclean⟩,
    fun _ _ _ => Finset.mem_insert_self _ _, fun hdelete => ?_⟩
  · have hcounts := (hcounts htask).2
    rw [hcall] at hcounts
    cases hcounts
  obtain hnone | hremove := hclean
  · exact absurd (hnone.symm.trans hdelete) (by decide)
  · exact absurd (hremove.symm.trans hdelete) (by decide)

theorem of_insert (hsound : handler.Sound members other) (hne : other ≠ id)
    (hclean : handler.cleanup ≠ .delete) : handler.Sound (insert id members) other :=
  ⟨hsound.stays, hsound.leaves, hsound.counts, hsound.updates, hsound.adds,
    fun hmem => hsound.member ((Finset.mem_insert.mp hmem).resolve_left hne),
    fun hopen hauth hout => Finset.mem_insert_of_mem (hsound.listed hopen hauth hout),
    fun hdelete => absurd hdelete hclean⟩

theorem of_erase (hsound : handler.Sound members other) (hne : other ≠ id) :
    handler.Sound (members.erase id) other :=
  ⟨hsound.stays, hsound.leaves, hsound.counts, hsound.updates, hsound.adds,
    fun hmem => hsound.member (Finset.mem_of_mem_erase hmem),
    fun hopen hauth hout => Finset.mem_erase.mpr ⟨hne, hsound.listed hopen hauth hout⟩,
    fun hdelete => by rw [hsound.deletes hdelete]; rfl⟩

/-- A clean-up moves on, once the connection is not in the presence set. -/
theorem cleans (hsound : handler.Sound members id) {cleanup : Cleanup}
    (hold : handler.cleanup ≠ .none) (hnew : cleanup ≠ .none) (habsent : id ∉ others)
    (hdeletes : cleanup = .delete → others = ∅) :
    Handler.Sound others id { handler with cleanup } := by
  have hclosed : handler.isOpen ≠ true := fun hopen => hold (hsound.stays hopen)
  refine ⟨fun hopen => absurd hopen hclosed, ?_, hsound.counts, hsound.updates, hsound.adds,
    fun hmem => absurd hmem habsent, fun hopen => absurd hopen hclosed, hdeletes⟩
  exact ⟨fun _ => hnew, fun _ => hsound.leaves.mpr hold⟩

end Handler.Sound

theorem Handler.hasSlot_finish (config : Config) (handler : Handler) (value : Nat) :
    (handler.finish value).hasSlot config =
      (handler.isOpen && handler.authenticated ||
        handler.task = .counting && decide ((value : Int) < config.maxConnections)) := by
  rw [hasSlot, finish]
  by_cases htask : handler.task = .counting
  · simp [htask]
  · simp [htask]

namespace System.Sound

variable {config : Config} {system next : System} {id : Nat} {handler : Handler}

theorem card_slots_le (hsound : Sound config system) :
    (system.matching (Handler.hasSlot config)).card ≤
      system.online.scard + (system.matching (Handler.isPending config)).card := by
  refine (Finset.card_le_card fun other hother => ?_).trans (Finset.card_union_le _ _)
  obtain ⟨found, hfound, hslot⟩ := mem_matching.mp hother
  have hold := hsound.handlers other found hfound
  rw [Finset.mem_union, mem_matching]
  by_cases hpending : found.isPending config = true
  · exact .inr ⟨found, hfound, hpending⟩
  · left
    rw [Handler.isPending, hslot, Bool.true_and, Bool.or_eq_true, not_or, Bool.not_eq_true',
      Bool.not_eq_false, Bool.not_eq_true] at hpending
    rw [Handler.hasSlot, Bool.or_eq_true, Bool.and_eq_true, Bool.and_eq_true,
      decide_eq_true_eq] at hslot
    obtain ⟨hopen, hauth⟩ | ⟨htask, _⟩ := hslot
    · exact hold.listed hopen hauth hpending.2
    · have hnot := (hold.counts htask).1
      rw [hpending.1] at hnot
      cases hnot

theorem exec (hsound : Sound config system) (hget : system.handlers[id]? = some handler)
    {call : Call} (hcall : handler.call = some call)
    (hclean : undisturbed config system (.exec id) = true)
    (hstep : system.exec id handler call = some next) : Sound config next := by
  have hold := hsound.handlers id handler hget
  have hfinish (value : Nat) (hne : call ≠ .add) : (handler.finish value).Sound
      system.online.members id :=
    hold.finish (by rw [hcall]; simpa using hne) value
  have hslots (hne : call.isCount = false) (value : Nat) :
      (handler.finish value).hasSlot config = true → handler.hasSlot config = true := by
    intro hslot
    rw [Handler.hasSlot_finish, Bool.or_eq_true, Bool.and_eq_true] at hslot
    obtain hopen | ⟨htask, _⟩ := hslot.imp_right Bool.and_eq_true_iff.mp
    · rw [Handler.hasSlot, hopen.1, hopen.2]
      rfl
    · have hcounts := (hold.counts (of_decide_eq_true htask)).2
      rw [hcall, Option.any_some, hne] at hcounts
      cases hcounts
  rw [undisturbed, hget] at hclean
  dsimp only at hclean
  rw [hcall] at hclean
  cases call with
  | count =>
    cases hstep
    refine hsound.change system.online hget (hfinish _ nofun) (fun _ _ _ _ hfound => hfound)
      (fun _ hother => .inr hother) fun _ => ?_
    by_cases hroom : handler.task = .counting ∧
        (system.online.scard : Int) < config.maxConnections
    case neg =>
      left
      rw [Handler.hasSlot_finish]
      intro hslot
      simp only [Bool.or_eq_true, Bool.and_eq_true, decide_eq_true_eq, hroom, or_false] at hslot
      rw [Handler.hasSlot, hslot.1, hslot.2]
      rfl
    right
    simp only [Bool.or_eq_true, decide_eq_true_eq] at hclean
    have hcard := hsound.card_slots_le
    obtain (hended | hfull) | hfree := hclean
    · rw [hroom.1] at hended
      cases hended
    · omega
    · omega
  | add =>
    cases hstep
    simp only [Bool.and_eq_true, Bool.or_eq_true, decide_eq_true_eq] at hclean
    obtain ⟨hleft, hnone⟩ := hclean
    refine hsound.change _ hget (hold.sadd hcall hleft) (fun other found hne hfound hother => ?_)
      (fun other hother => Finset.mem_insert.mp hother) (fun _ => .inl ?_)
    · refine hother.of_insert hne fun hdelete => ?_
      have hmem : other ∈ system.matching (·.cleanup = .delete) :=
        mem_matching.mpr ⟨found, hfound, decide_eq_true hdelete⟩
      rw [hnone] at hmem
      cases hmem
    · simp [Handler.hasSlot, hcall]
  | expireAdded | refresh =>
    cases hstep
    have hmembers : (system.online.expire system.now).members = system.online.members := by
      rw [Presence.expire]
      split
      next hempty => rw [hempty]; rfl
      next => rfl
    refine hsound.change _ hget (hmembers ▸ hfinish 0 nofun)
      (fun _ _ _ _ hfound => hmembers ▸ hfound) (fun _ hother => .inr (hmembers ▸ hother))
      (fun _ => .inl (hslots rfl 0))
  | other =>
    cases hstep
    exact hsound.keep hget ((hfinish 0 nofun).congr rfl rfl rfl rfl rfl) (hslots rfl 0)
  | returned value => cases hstep

theorem members_expire (online : Presence) (now : Time) :
    (online.expire now).members = online.members := by
  rw [Presence.expire]
  split
  next hempty =>
    rw [hempty]
    rfl
  next => rfl

theorem members_srem (online : Presence) (id : Nat) :
    (online.srem id).members = online.members.erase id := by
  rw [Presence.srem]
  split
  next hempty =>
    rw [hempty]
    rfl
  next => rfl

theorem hasSlot_cleanup {cleanup : Cleanup}
    (hslot : Handler.hasSlot config { handler with cleanup } = true) :
    handler.hasSlot config = true := hslot

theorem clean (hsound : Sound config system) (hget : system.handlers[id]? = some handler)
    (hstep : system.clean id handler = some next) : Sound config next := by
  have hold := hsound.handlers id handler hget
  rw [System.clean] at hstep
  split at hstep
  next => cases hstep
  next => cases hstep
  next hcleanup =>
    cases hstep
    have hself : Handler.Sound (system.online.srem id).members id
        { handler with cleanup := .card } :=
      hold.cleans (by simp [hcleanup]) nofun (by simp [members_srem]) nofun
    refine hsound.change _ hget hself (fun other found hne _ hother => ?_)
      (fun other hother => ?_) (fun _ => .inl hasSlot_cleanup)
    · rw [members_srem]
      exact hother.of_erase hne
    · rw [members_srem] at hother
      exact .inr (Finset.mem_of_mem_erase hother)
  next hcleanup =>
    cases hstep
    have habsent : id ∉ system.online.members := fun hmem => by
      have hclean := (hold.member hmem).2
      simp [hcleanup] at hclean
    refine hsound.keep hget (hold.cleans (by simp [hcleanup]) ?_ habsent fun hdelete => ?_)
      hasSlot_cleanup
    · split <;> nofun
    · split at hdelete
      next hzero => exact Finset.card_eq_zero.mp hzero
      next => cases hdelete
  next hcleanup =>
    cases hstep
    have hempty := hold.deletes hcleanup
    have hsame : Presence.missing.members = system.online.members := hempty.symm
    have hself : Handler.Sound Presence.missing.members id { handler with cleanup := .done } :=
      hold.cleans (by simp [hcleanup]) nofun (Finset.notMem_empty _) nofun
    exact hsound.change _ hget hself (fun _ _ _ _ hfound => hsame ▸ hfound)
      (fun _ hother => .inr (hsame ▸ hother)) (fun _ => .inl hasSlot_cleanup)
  next hcleanup =>
    cases hstep
    have habsent : id ∉ system.online.members := fun hmem => by
      have hclean := (hold.member hmem).2
      simp [hcleanup] at hclean
    have hsame := members_expire system.online system.now
    have hself : Handler.Sound (system.online.expire system.now).members id
        { handler with cleanup := .done } :=
      hold.cleans (by simp [hcleanup]) nofun (hsame ▸ habsent) nofun
    exact hsound.change _ hget hself (fun _ _ _ _ hfound => hsame ▸ hfound)
      (fun _ hother => .inr (hsame ▸ hother)) (fun _ => .inl hasSlot_cleanup)

theorem resume (hsound : Sound config system) (hget : system.handlers[id]? = some handler)
    {value : Nat} (hcall : handler.call = some (.returned value)) {changed : Handler}
    (hresume : handler.resume config value = some changed) :
    Sound config (system.put id changed) := by
  have hold := hsound.handlers id handler hget
  have hwindow (htask : handler.task ≠ .updating) : handler.inWindow = false := by
    simp [Handler.inWindow, htask, hcall]
  rw [Handler.resume] at hresume
  cases htask : handler.task with
  | idle | ended =>
    rw [htask] at hresume
    cases hresume
  | counting =>
    rw [htask] at hresume
    dsimp only at hresume
    have hlive : handler.task ≠ .ended := by simp [htask]
    split at hresume <;> cases hresume
    next =>
      refine hsound.keep hget (hold.rests hlive (hwindow (by simp [htask]))).closes
        fun hslot => ?_
      simp [Handler.hasSlot] at hslot
    next hbelow =>
      refine hsound.keep hget (hold.accept hlive) fun _ => ?_
      simp only [Handler.hasSlot, htask, hcall]
      simpa using Or.inr (not_le.mp hbelow)
  | updating =>
    rw [htask] at hresume
    cases hresume
    refine hsound.keep hget (hold.registers htask) fun hslot => ?_
    simpa [Handler.hasSlot, htask] using hslot
  | registering | subscribing =>
    rw [htask] at hresume
    cases hresume
    have hout := hwindow (by simp [htask])
    refine hsound.keep hget (hold.begins (by simp [htask]) nofun nofun nofun nofun fun hin => ?_)
      fun hslot => ?_
    · rw [hout] at hin
      cases hin
    · simpa [Handler.hasSlot, htask] using hslot
  | refreshing | calling =>
    rw [htask] at hresume
    cases hresume
    refine hsound.keep hget (hold.rests (by simp [htask]) (hwindow (by simp [htask])))
      fun hslot => ?_
    simpa [Handler.hasSlot, htask] using hslot

theorem onHandler (hsound : Sound config system) (hget : system.handlers[id]? = some handler)
    {action : Action} (haction : action.handler? = some id)
    (hclean : undisturbed config system action = true)
    (hstep : system.onHandler config id handler action = some next) : Sound config next := by
  have hold := hsound.handlers id handler hget
  have hactive : Handler.Sound system.online.members id
      { handler with lastActivity := system.now } := hold.congr rfl rfl rfl rfl rfl
  have hwaits (hwait : handler.waits = true) : handler.isOpen = true ∧ handler.task = .idle ∧
      handler.task ≠ .ended ∧ handler.inWindow = false := by
    obtain ⟨hopen, htask⟩ := Handler.Sound.waits_iff.mp hwait
    exact ⟨hopen, htask, by simp [htask], by simp [Handler.inWindow, htask]⟩
  have hcloses (hopen : handler.isOpen = true) :
      Sound config (system.put id { handler with isOpen := false }) := by
    refine hsound.keep hget hold.closes fun hslot => ?_
    rw [Handler.hasSlot, Bool.or_eq_true] at hslot ⊢
    exact .inr (hslot.resolve_left Bool.false_ne_true)
  cases action with
  | authenticate other =>
    simp only [System.onHandler] at hstep
    split at hstep
    next hguard =>
      obtain ⟨hwait, hauth⟩ := Bool.and_eq_true_iff.mp hguard
      rw [Bool.not_eq_true'] at hauth
      obtain ⟨hopen, htask, hlive, hout⟩ := hwaits hwait
      split at hstep <;> cases hstep
      next =>
        refine hsound.keep hget (hactive.begins hlive nofun nofun (fun _ => ⟨hauth, rfl⟩)
          nofun fun hin => ?_) fun hslot => ?_
        · exact absurd (hout.symm.trans hin) Bool.false_ne_true
        · simp [Handler.hasSlot, hauth] at hslot
      next hfree =>
        exact hsound.change system.online hget (hactive.accept hlive)
          (fun _ _ _ _ hfound => hfound) (fun _ hother => .inr hother)
          fun hpositive => absurd hpositive hfree
    next => cases hstep
  | ping other =>
    simp only [System.onHandler] at hstep
    split at hstep
    next hguard =>
      obtain ⟨hwait, hauth⟩ := Bool.and_eq_true_iff.mp hguard
      obtain ⟨hopen, htask, hlive, hout⟩ := hwaits hwait
      split at hstep <;> cases hstep
      next => exact hsound.keep hget hactive fun hslot => hslot
      next =>
        have hrefreshed : Handler.Sound system.online.members id
            { handler with lastActivity := system.now, lastPresenceRefresh := system.now } :=
          hold.congr rfl rfl rfl rfl rfl
        refine hsound.keep hget (hrefreshed.begins hlive nofun nofun nofun nofun
          fun hin => ?_) fun _ => ?_
        · exact absurd (hout.symm.trans hin) Bool.false_ne_true
        · rw [Handler.hasSlot, hopen, hauth]
          rfl
    next => cases hstep
  | message other =>
    simp only [System.onHandler] at hstep
    split at hstep
    next hwait =>
      obtain ⟨hopen, htask, hlive, hout⟩ := hwaits hwait
      split at hstep <;> cases hstep
      next hauth =>
        refine hsound.keep hget (hactive.begins hlive nofun nofun nofun nofun fun hin => ?_)
          fun _ => ?_
        · exact absurd (hout.symm.trans hin) Bool.false_ne_true
        · rw [Handler.hasSlot, hopen, hauth]
          rfl
      next => exact hsound.keep hget hactive fun hslot => hslot
    next => cases hstep
  | exec other =>
    cases haction
    simp only [System.onHandler] at hstep
    split at hstep
    next => cases hstep
    next call hcall => exact hsound.exec hget hcall hclean hstep
  | resume other =>
    simp only [System.onHandler] at hstep
    split at hstep
    next value hcall =>
      obtain ⟨changed, hresume, rfl⟩ := Option.map_eq_some_iff.mp hstep
      exact hsound.resume hget hcall hresume
    next => cases hstep
  | close other =>
    simp only [System.onHandler] at hstep
    split at hstep
    next hopen =>
      cases hstep
      exact hcloses hopen
    next => cases hstep
  | timeout other =>
    simp only [System.onHandler] at hstep
    obtain ⟨hguard, heq⟩ := Option.ite_none_right_eq_some.mp hstep
    cases heq
    exact hcloses (Bool.and_eq_true_iff.mp hguard).1
  | leave other =>
    simp only [System.onHandler] at hstep
    split at hstep
    next hguard =>
      cases hstep
      obtain ⟨hclosed, htask⟩ := Bool.and_eq_true_iff.mp hguard
      rw [Bool.not_eq_true'] at hclosed
      have hidle := of_decide_eq_true htask
      refine hsound.keep hget (hold.leave hclosed (by simp [hidle]) fun hcall => hcall)
        fun hslot => ?_
      simp [Handler.hasSlot, Handler.leave, hclosed] at hslot
    next => cases hstep
  | cancel other =>
    simp only [System.onHandler] at hstep
    split at hstep
    next => cases hstep
    next hguard =>
      cases hstep
      simp only [Bool.or_eq_true, not_or, Bool.not_eq_true, decide_eq_true_eq] at hguard
      refine hsound.keep hget (hold.leave hguard.1.1 hguard.2 fun hcall => ?_) fun hslot => ?_
      · split at hcall
        next => cases hcall
        next => exact hcall
      · simp [Handler.hasSlot, Handler.leave, hguard.1.1] at hslot
  | clean other => exact hsound.clean hget hstep
  | deliver other =>
    simp only [System.onHandler] at hstep
    split at hstep
    next => cases hstep
    next received rest _ =>
      split at hstep
      next =>
        cases hstep
        cases hreaction : decide (processRedisMessage received ≠ .close) with
        | true =>
          refine hsound.keep hget (hold.congr (Bool.and_true _) rfl rfl rfl rfl)
            fun hslot => ?_
          simpa [Handler.hasSlot] using hslot
        | false =>
          refine hsound.keep hget (hold.closes.congr (Bool.and_false _) rfl rfl rfl rfl)
            fun hslot => ?_
          simp only [Handler.hasSlot, Bool.and_false, Bool.false_and, Bool.false_or]
            at hslot
          rw [Handler.hasSlot, hslot, Bool.or_true]
      next => cases hstep
  | tick | connect | disconnectUser | publish => cases haction

/-- What is known of the handlers is known of those of a system with the same ones up to what
`same` leaves alone. -/
theorem of_handlers (hsound : Sound config system) (hforced : next.forced = [])
    (hlength : system.handlers.length ≤ next.handlers.length)
    (hmembers : next.online.members ⊆ system.online.members)
    (hhandlers : ∀ other (found : Handler), next.handlers[other]? = some found →
      found.Sound next.online.members other ∧ (found.hasSlot config = true →
        ∃ before, system.handlers[other]? = some before ∧ before.hasSlot config = true)) :
    Sound config next where
  known other hother := (hsound.known other (hmembers hother)).trans_le hlength
  handlers other found hfound := (hhandlers other found hfound).1
  slots hpositive := by
    have hsubset : next.matching (Handler.hasSlot config) ⊆
        system.matching (Handler.hasSlot config) := fun other hother => by
      obtain ⟨found, hfound, hslot⟩ := mem_matching.mp hother
      exact mem_matching.mpr ((hhandlers other found hfound).2 hslot)
    exact (Int.ofNat_le.mpr (Finset.card_le_card hsubset)).trans (hsound.slots hpositive)
  calm := hforced

/-- The presence set may expire while it shows no open connection. -/
theorem expires {now : Time} {online : Presence} (hsound : Sound config system)
    (honline : online = system.online ∨
      online = .missing ∧ system.openConnections ∩ system.online.members = ∅) :
    Sound config { system with now, online } := by
  obtain rfl | ⟨rfl, hnone⟩ := honline
  · exact ⟨hsound.known, hsound.handlers, hsound.slots, hsound.calm⟩
  · refine hsound.of_handlers hsound.calm le_rfl (Finset.empty_subset _)
      fun other found hfound => ?_
    have hold := hsound.handlers other found hfound
    refine ⟨?_, fun hslot => ⟨found, hfound, hslot⟩⟩
    refine ⟨hold.stays, hold.leaves, hold.counts, hold.updates, hold.adds,
      fun hmem => absurd hmem (Finset.notMem_empty _), fun hopen hauth hout => ?_, fun _ => rfl⟩
    have hshown : other ∈ system.openConnections ∩ system.online.members := by
      refine Finset.mem_inter.mpr
        ⟨mem_matching.mpr ⟨found, hfound, ?_⟩, hold.listed hopen hauth hout⟩
      rw [hopen, hauth]
      rfl
    rw [hnone] at hshown
    cases hshown

theorem onSystem (hsound : Sound config system) {action : Action}
    (hclean : undisturbed config system action = true)
    (hstep : system.onSystem action = some next) : Sound config next := by
  cases action with
  | tick elapsed =>
    cases hstep
    refine hsound.expires ?_
    rw [Presence.after]
    split
    next hexpired =>
      rw [undisturbed, hexpired, Bool.not_true, Bool.false_or] at hclean
      exact .inr ⟨rfl, of_decide_eq_true hclean⟩
    next => exact .inl rfl
  | connect =>
    cases hstep
    refine hsound.of_handlers hsound.calm (by simp) (Finset.Subset.refl _)
      fun other found hfound => ?_
    have hget : (system.handlers ++ [Handler.connected system.now])[other]? = some found := hfound
    obtain hlt | hge := Nat.lt_or_ge other system.handlers.length
    · rw [List.getElem?_append_left hlt] at hget
      exact ⟨hsound.handlers other found hget, fun hslot => ⟨found, hget, hslot⟩⟩
    · rw [List.getElem?_append_right hge, List.getElem?_singleton] at hget
      split at hget <;> cases hget
      exact ⟨.connected _ fun hmem => absurd (hsound.known other hmem) (not_lt.mpr hge),
        fun hslot => by simp [Handler.hasSlot, Handler.connected] at hslot⟩
  | disconnectUser order =>
    simp only [System.onSystem] at hstep
    split at hstep
    next =>
      cases hstep
      have hnone : system.openConnections = ∅ := of_decide_eq_true hclean
      refine ⟨hsound.known, hsound.handlers, hsound.slots, ?_⟩
      simp [hsound.calm, hnone]
    next => cases hstep
  | publish =>
    simp only [System.onSystem] at hstep
    split at hstep
    next => cases hstep
    next id rest _ =>
      cases hstep
      refine hsound.of_handlers hsound.calm (by simp) (Finset.Subset.refl _)
        fun other found hfound => ?_
      simp only [List.getElem?_modify] at hfound
      obtain ⟨before, hbefore, rfl⟩ := Option.map_eq_some_iff.mp hfound
      have hold := hsound.handlers other before hbefore
      split
      next =>
        split
        next =>
          exact ⟨hold.congr rfl rfl rfl rfl rfl, fun hslot => ⟨before, hbefore, hslot⟩⟩
        next => exact ⟨hold, fun hslot => ⟨before, hbefore, hslot⟩⟩
      next => exact ⟨hold, fun hslot => ⟨before, hbefore, hslot⟩⟩
  | _ => cases hstep

theorem step (hsound : Sound config system) {action : Action}
    (hclean : undisturbed config system action = true)
    (hstep : System.step config system action = some next) : Sound config next := by
  rw [System.step] at hstep
  split at hstep
  next => exact hsound.onSystem hclean hstep
  next id haction =>
    split at hstep
    next => cases hstep
    next handler hget => exact hsound.onHandler hget haction hclean hstep

theorem start (config : Config) : Sound config System.start where
  known _ hmem := absurd hmem (Finset.notMem_empty _)
  handlers _ _ hget := nomatch hget
  slots hpositive := by
    have hnone : System.start.matching (Handler.hasSlot config) = ∅ := rfl
    rw [hnone]
    exact hpositive.le
  calm := rfl

theorem exact (hsound : Sound config system) : Exact config system where
  listed hquiet := by
    have hquiet := List.all_eq_true.mp hquiet
    ext id
    rw [openConnections, mem_matching]
    constructor
    · intro hmem
      have hlt := hsound.known id hmem
      have hget := List.getElem?_eq_getElem hlt
      refine ⟨_, hget, ?_⟩
      obtain ⟨hauth, hclean⟩ := (hsound.handlers id _ hget).member hmem
      obtain ⟨_, hrest⟩ := Bool.and_eq_true_iff.mp (hquiet _ (List.getElem_mem hlt))
      obtain hwait | hdone := Bool.or_eq_true_iff.mp hrest
      · rw [(Handler.Sound.waits_iff.mp hwait).1, hauth]
        rfl
      · rw [of_decide_eq_true hdone] at hclean
        simp at hclean
    · rintro ⟨handler, hget, hopen⟩
      obtain ⟨hopen, hauth⟩ := Bool.and_eq_true_iff.mp hopen
      have hold := hsound.handlers id handler hget
      obtain ⟨_, hrest⟩ := Bool.and_eq_true_iff.mp (hquiet _ (List.mem_of_getElem? hget))
      obtain hwait | hdone := Bool.or_eq_true_iff.mp hrest
      · refine hold.listed hopen hauth ?_
        simp [Handler.inWindow, (Handler.Sound.waits_iff.mp hwait).2]
      · have hclean := hold.stays hopen
        rw [of_decide_eq_true hdone] at hclean
        cases hclean
  capped hpositive := by
    have hsubset : system.openConnections ⊆ system.matching (Handler.hasSlot config) :=
      fun id hid => by
        obtain ⟨handler, hget, hopen⟩ := mem_matching.mp hid
        exact mem_matching.mpr ⟨handler, hget, by rw [Handler.hasSlot, hopen, Bool.true_or]⟩
    exact (Int.ofNat_le.mpr (Finset.card_le_card hsubset)).trans (hsound.slots hpositive)
  disconnected _ id hid := by
    rw [hsound.calm] at hid
    cases hid

end System.Sound

namespace System

/-- In a run that runs into no gap the directory is exact at every moment. -/
theorem exact_of_undisturbed (config : Config) {actions : List Action}
    (hactions : EachStep (step config)
      (fun system action _ => undisturbed config system action = true) start actions) :
    Always (step config) (Exact config) start actions := by
  have hsound : Always (step config) (Sound config) start actions :=
    always_of_eachStep (fun _ _ _ hsound hclean hstep => hsound.step hclean hstep)
      (Sound.start config) hactions
  exact hsound.imp fun _ => Sound.exact

/-! ### Runs -/

/-- A connection authenticates: the count, the user, the `sadd` and `expire`, and the rest. -/
def signIn (id : Nat) : List Action :=
  [.authenticate id, .exec id, .resume id, .exec id, .resume id, .exec id, .exec id, .resume id,
    .exec id, .resume id, .exec id, .resume id]

/-- A connection signs in, pings after a minute, and leaves. -/
def oneVisit : List Action :=
  .connect :: signIn 0 ++ [.tick 60000, .ping 0, .exec 0, .resume 0, .close 0, .leave 0, .clean 0,
    .clean 0, .clean 0, .tick 300000]

theorem exact_oneVisit : Always (step {}) (Exact {}) start oneVisit :=
  exact_of_undisturbed {} (by decide +kernel)

def isExact (config : Config) (system : System) : Bool :=
  (!system.isQuiet || system.getUserConnections = system.openConnections) &&
    (config.maxConnections ≤ 0 || (system.openConnections.card : Int) ≤ config.maxConnections) &&
    (!system.publishing.isEmpty || system.forced.all fun id =>
      (system.handlers[id]?).all fun handler => !handler.mail.isEmpty || !handler.isOpen)

theorem Exact.isExact {config : Config} {system : System} (hexact : Exact config system) :
    system.isExact config = true := by
  rw [System.isExact, Bool.and_eq_true, Bool.and_eq_true]
  refine ⟨⟨?_, ?_⟩, ?_⟩
  · rw [Bool.or_eq_true, Bool.not_eq_true', decide_eq_true_eq]
    cases hquiet : system.isQuiet with
    | false => exact .inl rfl
    | true => exact .inr (hexact.listed hquiet)
  · rw [Bool.or_eq_true, decide_eq_true_eq, decide_eq_true_eq]
    exact (le_or_gt config.maxConnections 0).imp_right hexact.capped
  · cases hpublishing : system.publishing with
    | cons id rest => rfl
    | nil =>
      rw [List.isEmpty_nil, Bool.not_true, Bool.false_or, List.all_eq_true]
      intro id hid
      rw [Option.all_eq_true]
      intro handler hget
      cases hmail : handler.mail with
      | cons message rest => rfl
      | nil =>
        rw [hexact.disconnected hpublishing id hid handler hget hmail]
        rfl

/-- Runs through the gaps: a user is disconnected; a client sends anything but pings for five
minutes; two connections count before either is added; one is added between the last two
commands of a clean-up; and one is added behind its own clean-up. -/
def gaps : List (Config × List Action) :=
  [({}, .connect :: signIn 0 ++ [.disconnectUser [0], .publish, .deliver 0]),
    ({}, .connect :: signIn 0 ++ (List.replicate 20 [Action.tick 15000, .message 0, .exec 0,
      .resume 0]).flatten),
    ({ maxConnections := 1 }, [.connect, .connect, .authenticate 0, .authenticate 1, .exec 0,
      .exec 1, .resume 0, .resume 1]),
    ({}, .connect :: signIn 0 ++ [.connect, .authenticate 1, .exec 1, .resume 1, .exec 1, .resume 1,
      .close 0, .leave 0, .clean 0, .clean 0, .exec 1, .clean 0, .exec 1, .resume 1, .exec 1,
      .resume 1, .exec 1, .resume 1]),
    ({}, [.connect, .authenticate 0, .exec 0, .resume 0, .exec 0, .resume 0, .tick 30000,
      .timeout 0, .cancel 0, .clean 0, .clean 0, .clean 0, .exec 0, .exec 0])]

/-- No run through one of the gaps keeps the promise. -/
theorem not_exact_gaps : ¬ ∃ run ∈ gaps, Always (step run.1) (Exact run.1) start run.2 := by
  have hfails : ∀ run ∈ gaps, ((Foundation.run (step run.1) start run.2).any fun last =>
      !last.isExact run.1) = true := by decide +kernel
  rintro ⟨run, hrun, halways⟩
  exact not_always_of_run (isExact run.1) (fun _ => Exact.isExact) (hfails run hrun) halways

end System

end DjangoMojo.Realtime
