import DjangoMojo.Foundation.Trace
import DjangoMojo.Pools.Pool

/-! # One holder for every item

A copy of an item is an entry of the available list or a place in the hands of a worker. Where
no insertion, removal or rebuilding runs into another call on the same item, there is at most
one copy of it, and a copy off the list is one of a member.
-/

namespace DjangoMojo.Pools

open Foundation

/-! ### Statements -/

/-- Between the `SREM` and the `LREM` of a `remove`. -/
def Worker.removers (worker : Worker) (item : ItemId) : Nat :=
  match worker.phase with
  | .removeDrop other => if other = item then 1 else 0
  | _ => 0

/-- What `get_next_available` and the checkouts have given to a worker. -/
def Worker.given (worker : Worker) : List ItemId :=
  match worker.phase with
  | .validate item _ => item :: worker.held
  | _ => worker.held

namespace World

def offList (world : World) (item : ItemId) : Nat :=
  world.workers.total fun worker => worker.copies.count item

def removers (world : World) (item : ItemId) : Nat :=
  world.workers.total fun worker => worker.removers item

structure OneHolder (world : World) : Prop where
  listed : world.redis.availableList.Nodup
  free : ∀ id worker, world.workers.get id = some worker →
    ∀ item ∈ worker.held, item ∉ world.redis.availableList
  single : ∀ first second one other item, world.workers.get first = some one →
    world.workers.get second = some other → item ∈ one.held → item ∈ other.held →
    first = second

def GivesMembers (world : World) (_ : Label) (next : World) : Prop :=
  ∀ id worker after, world.workers.get id = some worker → next.workers.get id = some after →
    ∀ item ∈ after.given, item ∉ worker.given → item ∈ next.redis.allItemsSet

def Considerate (world : World) (label : Label) (_ : World) : Prop :=
  match label with
  | .act _ (.begin (.remove _ true)) | .act _ (.begin (.removeFromPool _ true))
  | .act _ (.begin (.initPool true)) =>
    ∀ id worker, world.workers.get id = some worker → worker.held = []
  | _ => True

end World

/-- The command runs into no other call. What is inserted is no member, and no `remove` still has
to take it off the list; what is removed is in nobody's hands; what is taken off the list is
not being removed; `remove_duplicates` clears what it read; a rebuilding clears a pool without
copies. -/
def Phase.Undisturbed (redis : Redis) (offList removers : ItemId → Nat) : Phase → Prop
  | .addInsert item => item ∉ redis.allItemsSet ∧ removers item = 0
  | .enlistInsert item => item ∉ redis.allItemsSet → removers item = 0
  | .initInsert items _ =>
    items.Nodup ∧ ∀ item ∈ items, item ∉ redis.allItemsSet ∧ removers item = 0
  | .removeLeave item => offList item = 0
  | .removeFromPoolLeave item => offList item = 0 ∧ item ∉ redis.availableList
  | .checkoutTake item _ => item ∈ redis.availableList → removers item = 0
  | .pop | .popInstance _ | .scan _ =>
    ∀ item, redis.availableList.getLast? = some item → removers item = 0
  | .duplicatesClear available =>
    ∀ item ∈ available, item ∈ redis.availableList ∧ removers item = 0
  | .initClearSet _ => redis.availableList = [] ∧ ∀ item, offList item = 0
  | _ => True

def World.Undisturbed (world : World) (label : Label) (_ : World) : Prop :=
  match label with
  | .act id .next => ∀ worker, world.workers.get id = some worker →
      worker.phase.Undisturbed world.redis world.offList world.removers
  | _ => True

/-! ### The invariant for one worker

The other workers are known by their copies and by their unfinished removals.
-/

structure Single (redis : Redis) (worker : Worker) (others removers : ItemId → Nat) : Prop where
  once : ∀ item,
    redis.availableList.count item + worker.copies.count item + others item ≤ 1
  member : ∀ item, 0 < worker.copies.count item + others item → item ∈ redis.allItemsSet
  listed : ∀ item ∈ redis.availableList,
    item ∈ redis.allItemsSet ∨ 0 < worker.removers item + removers item

namespace Single

variable {redis after : Redis} {worker later : Worker} {others removers : ItemId → Nat}

theorem no_copies (hsingle : Single redis worker others removers) {item : ItemId}
    (hnew : item ∉ redis.allItemsSet) (hremovers : worker.removers item + removers item = 0) :
    redis.availableList.count item + worker.copies.count item + others item = 0 := by
  have hlist : redis.availableList.count item = 0 := by
    refine List.count_eq_zero.mpr fun hitem => ?_
    rcases hsingle.listed item hitem with hmember | hremoving
    · exact hnew hmember
    · omega
  have hoff : ¬ 0 < worker.copies.count item + others item :=
    fun hpos => hnew (hsingle.member item hpos)
  omega

/-- Copies move between the list and the hands, or disappear, and members stay. -/
theorem shift (hsingle : Single redis worker others removers)
    (hset : after.allItemsSet = redis.allItemsSet)
    (hcount : ∀ item, after.availableList.count item + later.copies.count item ≤
      redis.availableList.count item + worker.copies.count item)
    (hmember : ∀ item, worker.copies.count item < later.copies.count item →
      item ∈ redis.allItemsSet)
    (hremovers : ∀ item ∈ after.availableList, worker.removers item ≤ later.removers item) :
    Single after later others removers where
  once item := by
    have honce := hsingle.once item
    have hle := hcount item
    omega
  member item hpos := by
    rw [hset]
    by_cases hmore : worker.copies.count item < later.copies.count item
    · exact hmember item hmore
    · exact hsingle.member item (by omega)
  listed item hitem := by
    rw [hset]
    have hle := hcount item
    have hpos := List.count_pos_iff.mpr hitem
    by_cases hold : item ∈ redis.availableList
    · refine (hsingle.listed item hold).imp_right fun hremoving => ?_
      have hmono := hremovers item hitem
      omega
    · have hzero := List.count_eq_zero.mpr hold
      exact .inl (hsingle.member item (by omega))

theorem stay (hsingle : Single redis worker others removers)
    (hset : after.allItemsSet = redis.allItemsSet)
    (hlist : after.availableList = redis.availableList)
    (hcopies : ∀ item, later.copies.count item ≤ worker.copies.count item)
    (hremovers : ∀ item, worker.removers item ≤ later.removers item) :
    Single after later others removers := by
  refine hsingle.shift hset (fun item => ?_) (fun item hmore => ?_) fun item _ => hremovers item
  · rw [hlist]
    exact Nat.add_le_add_left (hcopies item) _
  · exact absurd (hcopies item) (by omega)

theorem enter (hsingle : Single redis worker others removers) {items : List ItemId}
    (hitems : items.Nodup)
    (hnew : ∀ item ∈ items, item ∉ redis.allItemsSet ∧ worker.removers item + removers item = 0)
    (hcopies : ∀ item, later.copies.count item = worker.copies.count item + items.count item)
    (hremovers : ∀ item, worker.removers item ≤ later.removers item) :
    Single (redis.sadd items) later others removers where
  once item := by
    have honce := hsingle.once item
    change redis.availableList.count item + _ + _ ≤ 1
    rw [hcopies item]
    by_cases hitem : item ∈ items
    · have hzero := hsingle.no_copies (hnew item hitem).1 (hnew item hitem).2
      have hone := List.nodup_iff_count_le_one.mp hitems item
      omega
    · rw [List.count_eq_zero.mpr hitem]
      omega
  member item hpos := by
    rw [hcopies item] at hpos
    refine Finset.mem_union.mpr ?_
    by_cases hitem : item ∈ items
    · exact .inr (List.mem_toFinset.mpr hitem)
    · rw [List.count_eq_zero.mpr hitem] at hpos
      exact .inl (hsingle.member item (by omega))
  listed item hitem := by
    have hmono := hremovers item
    rcases hsingle.listed item hitem with hmember | hremoving
    · exact .inl (Finset.mem_union.mpr (.inl hmember))
    · exact .inr (by omega)

/-- A member leaves the pool; a copy on the list is about to be removed. -/
theorem depart (hsingle : Single redis worker others removers) {gone : ItemId}
    (hcopies : ∀ item, later.copies.count item ≤ worker.copies.count item)
    (hgone : later.copies.count gone + others gone = 0)
    (hlist : gone ∈ redis.availableList → 0 < later.removers gone)
    (hremovers : ∀ item, worker.removers item ≤ later.removers item) :
    Single (redis.srem gone) later others removers where
  once item := by
    have honce := hsingle.once item
    have hle := hcopies item
    change redis.availableList.count item + _ + _ ≤ 1
    omega
  member item hpos := by
    have hle := hcopies item
    refine Finset.mem_erase.mpr ⟨?_, hsingle.member item (by omega)⟩
    rintro rfl
    omega
  listed item hitem := by
    have hmono := hremovers item
    by_cases heq : item = gone
    · subst heq
      have hpos := hlist hitem
      exact .inr (by omega)
    · rcases hsingle.listed item hitem with hmember | hremoving
      · exact .inl (Finset.mem_erase.mpr ⟨heq, hmember⟩)
      · exact .inr (by omega)

/-- A copy of an item that is not being removed is one of a member. -/
theorem member_of_listed (hsingle : Single redis worker others removers) {item : ItemId}
    (hitem : item ∈ redis.availableList)
    (hremovers : worker.removers item + removers item = 0) : item ∈ redis.allItemsSet := by
  rcases hsingle.listed item hitem with hmember | hremoving
  · exact hmember
  · omega

end Single

/-! ### Copies across a command -/

theorem count_erase_add {items : List ItemId} {item : ItemId} (hitem : item ∈ items)
    (other : ItemId) :
    (items.erase item).count other + (if item == other then 1 else 0) = items.count other := by
  by_cases heq : item = other
  · subst heq
    have hpos := List.count_pos_iff.mpr hitem
    rw [List.count_erase_self, if_pos (beq_self_eq_true item)]
    omega
  · rw [List.count_erase_of_ne (Ne.symm heq), if_neg (by simpa using heq), Nat.add_zero]

theorem count_lpush (redis : Redis) (items : List ItemId) (item : ItemId) :
    (redis.lpush items).availableList.count item =
      items.count item + redis.availableList.count item := by
  rw [Redis.lpush, List.count_append, List.count_reverse]

theorem count_rpop {redis : Redis} {last : ItemId}
    (hlast : redis.availableList.getLast? = some last) (item : ItemId) :
    redis.availableList.count item =
      redis.rpop.availableList.count item + [last].count item := by
  obtain ⟨rest, hrest⟩ := List.getLast?_eq_some_iff.mp hlast
  rw [Redis.rpop, hrest, List.dropLast_concat, List.count_append]

theorem count_copies (worker : Worker) (item : ItemId) :
    worker.copies.count item = worker.held.count item + worker.phase.hands.count item :=
  List.count_append

theorem count_leave (worker : Worker) (deferred : List ItemId) (found : Option ItemId)
    (item : ItemId) :
    (worker.leave deferred found).copies.count item =
      worker.held.count item + found.toList.count item + deferred.count item := by
  cases deferred with
  | nil =>
    simp only [Worker.leave, Worker.copies, Phase.hands, List.append_nil, List.count_append,
      List.count_nil]
    omega
  | cons first rest =>
    simp only [Worker.leave, Worker.goes, Worker.copies, Phase.hands, List.count_append]
    omega

@[simp] theorem hands_phase (after : Then) : after.phase.hands = [] := by
  cases after with
  | finish => rfl
  | enlist item => rfl
  | nextInstance skips retries =>
    cases skips with
    | true => rfl
    | false =>
      rw [Then.phase]
      split <;> rfl

theorem count_scan_le (done : Prop) [Decidable done] (loop : Scan) (item : ItemId) :
    (if done then Phase.idle else .scan loop).hands.count item ≤ loop.deferred.count item := by
  split
  · exact Nat.zero_le _
  · exact Nat.le_refl _

@[simp] theorem copies_goes (worker : Worker) (phase : Phase) :
    (worker.goes phase).copies = worker.held ++ phase.hands := rfl

namespace Single

variable {redis after : Redis} {worker later : Worker} {others removers : ItemId → Nat}

/-- A command that answers and changes neither the set nor the list. -/
theorem answer (hsingle : Single redis worker others removers)
    (hremovers : ∀ item, worker.removers item = 0)
    (hset : after.allItemsSet = redis.allItemsSet)
    (hlist : after.availableList = redis.availableList) {phase : Phase}
    (hhands : phase.hands = [] ∨ phase.hands = worker.phase.hands) :
    Single after (worker.goes phase) others removers := by
  refine hsingle.stay hset hlist (fun item => ?_) fun item => ?_
  · rw [copies_goes, Worker.copies]
    rcases hhands with hempty | hsame
    · rw [hempty, List.append_nil, List.count_append]
      exact Nat.le_add_right _ _
    · rw [hsame]
  · rw [hremovers item]
    exact Nat.zero_le _

theorem push (hsingle : Single redis worker others removers)
    (hremovers : ∀ item, worker.removers item = 0) {items : List ItemId}
    (hcopies : ∀ item, later.copies.count item + items.count item ≤ worker.copies.count item) :
    Single (redis.lpush items) later others removers := by
  refine hsingle.shift rfl (fun item => ?_) (fun item hmore => ?_) fun item _ => ?_
  · have hle := hcopies item
    rw [count_lpush]
    omega
  · have hle := hcopies item
    omega
  · rw [hremovers item]
    exact Nat.zero_le _

/-- The last of the list comes into the hands, or is lost. -/
theorem take (hsingle : Single redis worker others removers)
    (hremovers : ∀ item, worker.removers item = 0) {last : ItemId}
    (hlast : redis.availableList.getLast? = some last)
    (hfree : worker.removers last + removers last = 0)
    (hcopies : ∀ item, later.copies.count item ≤ worker.copies.count item + [last].count item) :
    Single redis.rpop later others removers := by
  refine hsingle.shift rfl (fun item => ?_) (fun item hmore => ?_) fun item _ => ?_
  · have hle := hcopies item
    have hcount := count_rpop hlast item
    omega
  · have hle := hcopies item
    have hitem : item ∈ [last] := List.count_pos_iff.mp (by omega)
    rw [List.mem_singleton.mp hitem]
    exact hsingle.member_of_listed (List.mem_of_getLast? hlast) hfree
  · rw [hremovers item]
    exact Nat.zero_le _

/-- New members come into the hands of a worker that has none. -/
theorem insert (hsingle : Single redis worker others removers)
    (hremovers : ∀ item, worker.removers item = 0) (hempty : worker.phase.hands = [])
    {items : List ItemId} (hitems : items.Nodup)
    (hnew : ∀ item ∈ items, item ∉ redis.allItemsSet ∧ worker.removers item + removers item = 0)
    {phase : Phase} (hhands : phase.hands = items) :
    Single (redis.sadd items) (worker.goes phase) others removers := by
  refine hsingle.enter hitems hnew (fun item => ?_) fun item => ?_
  · rw [copies_goes, Worker.copies, hempty, hhands, List.append_nil, List.count_append]
  · rw [hremovers item]
    exact Nat.zero_le _

theorem unlist (hsingle : Single redis worker others removers)
    (hremovers : ∀ item, worker.removers item = 0) (hempty : worker.phase.hands = [])
    {phase : Phase} (hhands : phase.hands = []) {gone : ItemId}
    (hgone : worker.copies.count gone + others gone = 0)
    (hlist : gone ∈ redis.availableList → 0 < (worker.goes phase).removers gone) :
    Single (redis.srem gone) (worker.goes phase) others removers := by
  have hcopies : (worker.goes phase).copies = worker.copies := by
    rw [copies_goes, Worker.copies, hempty, hhands]
  refine hsingle.depart (fun item => ?_) ?_ hlist fun item => ?_
  · rw [hcopies]
  · rw [hcopies]
    exact hgone
  · rw [hremovers item]
    exact Nat.zero_le _

theorem drop (hsingle : Single redis worker others removers) {gone : ItemId}
    (hphase : worker.phase = .removeDrop gone) :
    Single (redis.lremAll gone) (worker.goes .idle) others removers := by
  have hcopies : worker.copies = (worker.goes .idle).copies := by
    rw [Worker.copies, hphase]
    rfl
  refine hsingle.shift rfl (fun item => ?_) (fun item hmore => ?_) fun item hitem => ?_
  · rw [hcopies]
    exact Nat.add_le_add_right (List.filter_sublist.count_le item) _
  · rw [hcopies] at hmore
    exact absurd hmore (Nat.lt_irrefl _)
  · have hne : gone ≠ item := by
      rintro rfl
      simp [Redis.lremAll] at hitem
    simp [Worker.removers, hphase, hne]

theorem checkout (hsingle : Single redis worker others removers)
    (hremovers : ∀ item, worker.removers item = 0) {item : ItemId}
    (hitem : item ∈ redis.availableList) (hfree : worker.removers item + removers item = 0) :
    Single (redis.lremOne item) ⟨item :: worker.held, .idle⟩ others removers := by
  have hcopies : ∀ other, (Worker.mk (item :: worker.held) .idle).copies.count other ≤
      worker.copies.count other + if item == other then 1 else 0 := by
    intro other
    rw [count_copies worker]
    change (item :: worker.held ++ []).count other ≤ _
    rw [List.append_nil, List.count_cons]
    omega
  refine hsingle.shift rfl (fun other => ?_) (fun other hmore => ?_) fun other _ => ?_
  · have hle := hcopies other
    have herase := count_erase_add hitem other
    change (redis.availableList.erase item).count other + _ ≤ _
    omega
  · have hle := hcopies other
    split at hle
    next heq =>
      rw [← eq_of_beq heq]
      exact hsingle.member_of_listed hitem hfree
    next => omega
  · rw [hremovers other]
    exact Nat.zero_le _

/-- What `remove_duplicates` read and clears comes into its hands, once each. -/
theorem clearDuplicates (hsingle : Single redis worker others removers)
    (hempty : worker.phase.hands = [])
    {available : List ItemId}
    (hclean : ∀ item ∈ available,
      item ∈ redis.availableList ∧ worker.removers item + removers item = 0) :
    Single { redis with availableList := [] }
      (worker.goes (.duplicatesPush available.dedup.reverse)) others removers := by
  have hcopies : ∀ item, (worker.goes (.duplicatesPush available.dedup.reverse)).copies.count item
      = worker.copies.count item + available.dedup.count item := by
    intro item
    rw [copies_goes, Worker.copies, hempty, Phase.hands, List.append_nil, List.count_append,
      List.count_reverse]
  refine hsingle.shift rfl (fun item => ?_) (fun item hmore => ?_) fun item hitem => ?_
  · rw [hcopies item, List.count_nil]
    by_cases hitem : item ∈ available
    · have hpos := List.count_pos_iff.mpr (hclean item hitem).1
      have hle := List.nodup_iff_count_le_one.mp (List.nodup_dedup available) item
      omega
    · rw [List.count_eq_zero.mpr fun hmem => hitem (List.mem_dedup.mp hmem)]
      omega
  · rw [hcopies item] at hmore
    have hmem : item ∈ available.dedup := List.count_pos_iff.mp (by omega)
    obtain ⟨hlist, hfree⟩ := hclean item (List.mem_dedup.mp hmem)
    exact hsingle.member_of_listed hlist hfree
  · cases hitem

theorem cleared (hlist : redis.availableList = [])
    (hnone : ∀ item, worker.copies.count item + others item = 0) :
    Single { redis with allItemsSet := ∅ } worker others removers where
  once item := by
    have hzero := hnone item
    change redis.availableList.count item + _ + _ ≤ 1
    rw [hlist, List.count_nil]
    omega
  member item hpos := by
    have hzero := hnone item
    omega
  listed item hitem := by
    change item ∈ redis.availableList at hitem
    rw [hlist] at hitem
    cases hitem

/-- The next command of a worker, where it runs into no other call. -/
theorem next (hsingle : Single redis worker others removers)
    (hclean : worker.phase.Undisturbed redis (fun item => worker.copies.count item + others item)
      fun item => worker.removers item + removers item)
    (hnext : worker.next redis = some (after, later)) : Single after later others removers := by
  have hcopies := fun item => count_copies worker item
  unfold Worker.next at hnext
  cases hphase : worker.phase
  all_goals simp only [hphase] at hnext hclean hcopies
  case removeDrop item =>
    cases hnext
    exact hsingle.drop hphase
  all_goals
    have hquiet : ∀ item, worker.removers item = 0 := by
      intro item
      rw [Worker.removers, hphase]
  case idle | initQuery | validate | judge => cases hnext
  case addCheck | removeLook | removeFromPoolReady | removeFromPoolLook | checkoutCheck |
      initDoubleCheck =>
    split at hnext
    all_goals
      cases hnext
      exact hsingle.answer hquiet rfl rfl (.inl rfl)
  case removeCheck item force | removeFromPoolCheck item force =>
    split at hnext
    all_goals cases hnext
    · exact hsingle.answer hquiet rfl rfl (.inl rfl)
    · cases force with
      | true => exact hsingle.answer hquiet rfl rfl (.inl rfl)
      | false => exact hsingle.answer hquiet rfl rfl (.inl rfl)
  case checkinCheck item | checkinLook item =>
    split at hnext
    all_goals cases hnext
    all_goals
      refine hsingle.answer hquiet rfl rfl ?_
      rw [hphase]
      first
      | exact .inl rfl
      | exact .inr rfl
  case initReady after =>
    split at hnext
    all_goals cases hnext
    · exact hsingle.answer hquiet rfl rfl (.inl (hands_phase after))
    · exact hsingle.answer hquiet rfl rfl (.inl rfl)
  case addInsert item =>
    cases hnext
    refine hsingle.insert hquiet (by rw [hphase]; rfl) (List.nodup_singleton item) ?_ rfl
    intro other hother
    rw [List.mem_singleton.mp hother]
    exact hclean
  case enlistInsert item =>
    split at hnext
    all_goals cases hnext
    next hmember => exact hsingle.answer hquiet rfl rfl (.inl rfl)
    next hnew =>
      refine hsingle.insert hquiet (by rw [hphase]; rfl) (List.nodup_singleton item) ?_ rfl
      intro other hother
      rw [List.mem_singleton.mp hother]
      exact ⟨hnew, hclean hnew⟩
  case initInsert items rest =>
    cases hnext
    exact hsingle.insert hquiet (by rw [hphase]; rfl) hclean.1 hclean.2 rfl
  case removeLeave item =>
    cases hnext
    refine hsingle.unlist hquiet (by rw [hphase]; rfl) rfl hclean fun _ => ?_
    simp [Worker.removers, Worker.goes]
  case removeFromPoolLeave item =>
    cases hnext
    exact hsingle.unlist hquiet (by rw [hphase]; rfl) rfl hclean.1
      fun hitem => absurd hitem hclean.2
  case addPush item | checkinPush item | initPush items rest =>
    cases hnext
    refine hsingle.push hquiet fun other => ?_
    rw [hcopies, copies_goes, List.count_append]
    rfl
  case removeFromPoolDrop item =>
    cases hnext
    refine hsingle.shift rfl (fun other => ?_) (fun other hmore => ?_) fun other _ => ?_
    · rw [hcopies, copies_goes, List.count_append]
      exact Nat.add_le_add_right (List.filter_sublist.count_le other) _
    · rw [hcopies, copies_goes, List.count_append] at hmore
      exact absurd hmore (Nat.lt_irrefl _)
    · rw [hquiet]
      exact Nat.zero_le _
  case duplicatesRead | scanSize =>
    cases hnext
    exact hsingle.answer hquiet rfl rfl (.inl rfl)
  case checkoutTake item waits =>
    split at hnext
    all_goals cases hnext
    next hitem => exact hsingle.checkout hquiet hitem (hclean hitem)
    next hitem =>
      cases waits with
      | true => exact hsingle
      | false => exact hsingle.answer hquiet rfl rfl (.inl rfl)
  case duplicatesClear available =>
    cases hnext
    exact hsingle.clearDuplicates (by rw [hphase]; rfl) hclean
  case duplicatesPush pending =>
    cases pending with
    | nil =>
      cases hnext
      exact hsingle.answer hquiet rfl rfl (.inl rfl)
    | cons item pending =>
      cases hnext
      refine hsingle.push hquiet fun other => ?_
      rw [hcopies, copies_goes, List.count_append]
      change _ + pending.count other + [item].count other ≤ _ + (item :: pending).count other
      rw [List.count_singleton, List.count_cons]
      omega
  case initLock force rest =>
    split at hnext
    all_goals cases hnext
    · cases force with
      | true => exact hsingle
      | false => exact hsingle.answer hquiet rfl rfl (.inl rfl)
    · refine hsingle.answer hquiet ?_ ?_ (.inl ?_)
      · rfl
      · rfl
      · cases force with
        | true => rfl
        | false => rfl
  case initWait rest =>
    split at hnext
    all_goals cases hnext
    · exact hsingle.answer hquiet rfl rfl (.inl (hands_phase rest))
    · exact hsingle
  case initClearList rest =>
    cases hnext
    refine hsingle.shift rfl (fun other => ?_) (fun other hmore => ?_) fun other hother => ?_
    · rw [hcopies, copies_goes, List.count_append]
      exact Nat.add_le_add_right (Nat.zero_le _) _
    · rw [hcopies, copies_goes, List.count_append] at hmore
      exact absurd hmore (Nat.lt_irrefl _)
    · cases hother
  case initClearSet rest =>
    cases hnext
    refine .cleared hclean.1 fun other => ?_
    have hzero := hclean.2 other
    simp only [hcopies] at hzero
    rw [copies_goes, List.count_append]
    exact hzero
  case initUnlock rest =>
    cases hnext
    refine hsingle.answer hquiet ?_ ?_ (.inl (hands_phase rest))
    · rfl
    · rfl
  case pop =>
    split at hnext
    all_goals cases hnext
    next hempty => exact hsingle.answer hquiet rfl rfl (.inl rfl)
    next item hlast =>
      refine hsingle.take hquiet hlast (hclean item hlast) fun other => ?_
      rw [hcopies]
      change (item :: worker.held ++ []).count other ≤ _
      rw [List.append_nil, List.count_cons, List.count_singleton]
      omega
  case popInstance retries =>
    split at hnext
    all_goals cases hnext
    next hempty => exact hsingle.answer hquiet rfl rfl (.inl rfl)
    next item hlast =>
      refine hsingle.take hquiet hlast (hclean item hlast) fun other => ?_
      rw [hcopies, copies_goes, List.count_append]
      split
      · exact Nat.le_add_right _ _
      · exact Nat.le_refl _
  case scan loop =>
    split at hnext
    all_goals cases hnext
    next hempty =>
      split
      · exact hsingle.answer hquiet rfl rfl (.inl rfl)
      · exact hsingle
    next item hlast =>
      refine hsingle.take hquiet hlast (hclean item hlast) fun other => ?_
      rw [hcopies, copies_goes, List.count_append, List.count_singleton]
      have hhands : ∀ phase : Phase, phase.hands = item :: loop.deferred →
          phase.hands.count other = loop.deferred.count other + if item == other then 1 else 0 := by
        intro phase hphase
        rw [hphase, List.count_cons]
      change _ ≤ _ + loop.deferred.count other + _
      split
      · rw [hhands (.putBack loop item) rfl]
        omega
      · rw [hhands (.judge loop item) rfl]
        omega
  case putBack loop item =>
    cases hnext
    refine hsingle.push hquiet fun other => ?_
    rw [hcopies, copies_goes, List.count_append, List.count_singleton]
    change _ ≤ _ + (item :: loop.deferred).count other
    rw [List.count_cons, ← Nat.add_assoc]
    exact Nat.add_le_add_right (Nat.add_le_add_left (count_scan_le _ loop other) _) _
  case resize loop =>
    cases hnext
    exact hsingle.answer hquiet rfl rfl (.inr (by rw [hphase]; rfl))
  case republish deferred found =>
    cases deferred with
    | nil =>
      cases hnext
      refine hsingle.stay rfl rfl (fun other => ?_) fun other => ?_
      · rw [hcopies, count_leave, Phase.hands, List.count_append]
        omega
      · rw [hquiet]
        exact Nat.zero_le _
    | cons item deferred =>
      cases hnext
      refine hsingle.push hquiet fun other => ?_
      rw [hcopies, count_leave, Phase.hands, List.count_append, List.count_singleton,
        List.count_cons]
      omega

/-- Checking in moves an item from what is held into the hands. -/
theorem returning (hsingle : Single redis worker others removers)
    (hphase : worker.phase = .idle) {item : ItemId}
    (hlater : worker.returning item = some later) : Single redis later others removers := by
  unfold Worker.returning at hlater
  split at hlater
  next hheld =>
    cases hlater
    refine hsingle.stay rfl rfl (fun other => ?_) fun other => ?_
    · rw [count_copies worker, hphase]
      change (worker.held.erase item ++ [item]).count other ≤ worker.held.count other + 0
      rw [List.count_append, List.count_singleton, count_erase_add hheld]
      exact Nat.le_refl _
    · rw [Worker.removers, hphase]
      exact Nat.zero_le _
  next => cases hlater

theorem begin (hsingle : Single redis worker others removers) (hphase : worker.phase = .idle)
    {operation : Operation} (hlater : worker.begin operation = some later) :
    Single redis later others removers := by
  have hquiet : ∀ item, worker.removers item = 0 := by
    intro item
    rw [Worker.removers, hphase]
  cases operation with
  | checkin item => exact hsingle.returning hphase hlater
  | returnInstance item => exact hsingle.returning hphase hlater
  | initPool force =>
    cases hlater
    refine hsingle.answer hquiet rfl rfl (.inl ?_)
    split <;> rfl
  | getNextAvailable skips =>
    cases hlater
    refine hsingle.answer hquiet rfl rfl (.inl ?_)
    split <;> rfl
  | _ =>
    cases hlater
    exact hsingle.answer hquiet rfl rfl (.inl rfl)

theorem giveUp (hsingle : Single redis worker others removers)
    (hlater : worker.giveUp = some later) : Single redis later others removers := by
  unfold Worker.giveUp at hlater
  split at hlater
  next hphase =>
    cases hlater
    refine hsingle.answer (fun item => ?_) rfl rfl (.inl rfl)
    rw [Worker.removers, hphase]
  next rest hphase =>
    cases hlater
    refine hsingle.answer (fun item => ?_) rfl rfl (.inl (hands_phase rest))
    rw [Worker.removers, hphase]
  next rest hphase =>
    cases hlater
    refine hsingle.answer (fun item => ?_) rfl rfl (.inl (hands_phase rest))
    rw [Worker.removers, hphase]
  next loop hphase =>
    cases hlater
    refine hsingle.stay rfl rfl (fun item => ?_) fun item => ?_
    · rw [count_leave, count_copies, hphase]
      exact Nat.le_refl _
    · rw [Worker.removers, hphase]
      exact Nat.zero_le _
  next => cases hlater

/-- A deferred item goes back to the list when its time has come. -/
theorem mature (hsingle : Single redis worker others removers) {item : ItemId}
    (hact : worker.act redis (.mature item) = some (after, later)) :
    Single after later others removers := by
  simp only [Worker.act] at hact
  split at hact
  next loop hphase =>
    split at hact
    next hitem =>
      cases hact
      refine hsingle.push (fun other => ?_) fun other => ?_
      · rw [Worker.removers, hphase]
      · rw [copies_goes, count_copies, hphase, List.count_append]
        change _ + (loop.deferred.erase item).count other + [item].count other ≤
          _ + loop.deferred.count other
        rw [List.count_singleton, Nat.add_assoc, count_erase_add hitem]
    next => cases hact
  next => cases hact

theorem decided (hsingle : Single redis worker others removers) {loop : Scan} {item : ItemId}
    (hphase : worker.phase = .judge loop item) (verdict : Verdict) :
    Single (worker.decided redis loop item verdict).1 (worker.decided redis loop item verdict).2
      others removers := by
  have hquiet : ∀ other, worker.removers other = 0 := by
    intro other
    rw [Worker.removers, hphase]
  have hcopies : ∀ other, worker.copies.count other =
      worker.held.count other + (loop.deferred.count other + if item == other then 1 else 0) := by
    intro other
    rw [count_copies, hphase]
    change _ + (item :: loop.deferred).count other = _
    rw [List.count_cons]
  cases verdict with
  | eligible =>
    refine hsingle.stay rfl rfl (fun other => ?_) fun other => ?_
    · rw [hcopies]
      change (worker.leave loop.deferred (some item)).copies.count other ≤ _
      rw [count_leave, Option.toList_some, List.count_singleton]
      omega
    · rw [hquiet]
      exact Nat.zero_le _
  | retryAfter seconds => exact hsingle.answer hquiet rfl rfl (.inr (by rw [hphase]; rfl))
  | skip =>
    refine hsingle.push hquiet fun other => ?_
    rw [hcopies, List.count_singleton]
    simp only [Worker.decided, copies_goes, List.count_append]
    refine Nat.le_trans (Nat.add_le_add_right (Nat.add_le_add_left
      (count_scan_le _ _ other) _) _) ?_
    exact Nat.le_of_eq (Nat.add_assoc _ _ _)

/-- A stale item is dropped by the worker that has it in hands. -/
theorem outdated (hsingle : Single redis worker others removers)
    (hlater : worker.outdated redis = some (after, later)) :
    Single after later others removers := by
  have hcopies := fun item => count_copies worker item
  -- the one copy is the worker's own
  have hlone : ∀ item rest, worker.phase.hands = item :: rest →
      (worker.held.count item + rest.count item) + others item = 0 ∧
        item ∉ redis.availableList := by
    intro item rest hhands
    have honce := hsingle.once item
    rw [hcopies, hhands, List.count_cons_self] at honce
    refine ⟨by omega, fun hitem => ?_⟩
    have hpos := List.count_pos_iff.mpr hitem
    omega
  unfold Worker.outdated at hlater
  cases hphase : worker.phase
  all_goals simp only [hphase] at hlater hcopies hlone
  case validate item retries =>
    cases hlater
    obtain ⟨hgone, hlist⟩ := hlone item [] rfl
    refine hsingle.depart (fun other => ?_) ?_ (fun hitem => absurd hitem hlist) fun other => ?_
    · rw [hcopies, copies_goes, List.count_append]
      exact Nat.add_le_add_left (Nat.zero_le _) _
    · rw [copies_goes, List.count_append]
      exact hgone
    · rw [Worker.removers, hphase]
      exact Nat.zero_le _
  case judge loop item =>
    split at hlater
    next =>
      cases hlater
      obtain ⟨hgone, hlist⟩ := hlone item loop.deferred rfl
      have hlater : ∀ other, (if maxRetries ≤ loop.staleRetries + 1
          then worker.leave loop.deferred none
          else worker.goes
            (.resize { loop with staleRetries := loop.staleRetries + 1 })).copies.count other =
              worker.held.count other + loop.deferred.count other := by
        intro other
        split
        · rw [count_leave]
          rfl
        · rw [copies_goes, List.count_append]
          rfl
      refine hsingle.depart (fun other => ?_) ?_ (fun hitem => absurd hitem hlist) fun other => ?_
      · rw [hlater, hcopies]
        change _ ≤ _ + (item :: loop.deferred).count other
        rw [List.count_cons]
        omega
      · rw [hlater]
        exact hgone
      · rw [Worker.removers, hphase]
        exact Nat.zero_le _
    next => cases hlater
  all_goals cases hlater

/-- Whatever a worker does, where its command runs into no other call. -/
theorem act (hsingle : Single redis worker others removers) {action : Action}
    (hclean : action = .next → worker.phase.Undisturbed redis
      (fun item => worker.copies.count item + others item)
      fun item => worker.removers item + removers item)
    (hact : worker.act redis action = some (after, later)) :
    Single after later others removers := by
  cases action with
  | begin operation =>
    simp only [Worker.act] at hact
    split at hact
    next hphase =>
      obtain ⟨_, hlater, heq⟩ := Option.map_eq_some_iff.mp hact
      cases heq
      exact hsingle.begin hphase hlater
    next => cases hact
  | next => exact hsingle.next (hclean rfl) hact
  | giveUp =>
    obtain ⟨_, hlater, heq⟩ := Option.map_eq_some_iff.mp hact
    cases heq
    exact hsingle.giveUp hlater
  | mature item => exact hsingle.mature hact
  | decide result =>
    simp only [Worker.act] at hact
    split at hact
    next loop item hphase =>
      have hdecided := hsingle.decided hphase (classifyPredicateResult result)
      rw [Option.some.inj hact] at hdecided
      exact hdecided
    next => cases hact
  | found =>
    simp only [Worker.act] at hact
    split at hact
    next item retries hphase =>
      cases hact
      refine hsingle.stay rfl rfl (fun other => ?_) fun other => ?_
      · rw [count_copies worker, hphase]
        change (item :: worker.held ++ []).count other ≤ _ + [item].count other
        rw [List.append_nil, List.count_cons, List.count_singleton]
      · rw [Worker.removers, hphase]
        exact Nat.zero_le _
    next => cases hact
  | stale => exact hsingle.outdated hact
  | query items =>
    simp only [Worker.act] at hact
    split at hact
    next rest hphase =>
      cases hact
      refine hsingle.answer (fun item => ?_) rfl rfl (.inl ?_)
      · rw [Worker.removers, hphase]
      · split <;> rfl
    next => cases hact

end Single

/-! ### The pool -/

namespace World

variable {world next : World}

/-- There is at most one copy of every item, and the copies off the list are of members. -/
structure Sound (world : World) : Prop where
  once : ∀ item, world.redis.availableList.count item + world.offList item ≤ 1
  member : ∀ item, 0 < world.offList item → item ∈ world.redis.allItemsSet
  listed : ∀ item ∈ world.redis.availableList,
    item ∈ world.redis.allItemsSet ∨ 0 < world.removers item

theorem sound_start : start.Sound where
  once item := Nat.zero_le _
  member item hpos := absurd hpos (Nat.lt_irrefl _)
  listed item hitem := by cases hitem

def others (world : World) (id : Nat) (item : ItemId) : Nat :=
  (world.workers.delete id).total fun worker => worker.copies.count item

def otherRemovers (world : World) (id : Nat) (item : ItemId) : Nat :=
  (world.workers.delete id).total fun worker => worker.removers item

section OneWorker

variable {id : Nat} {worker : Worker} (hworker : world.workers.get id = some worker)
include hworker

theorem offList_eq (item : ItemId) :
    world.offList item = worker.copies.count item + world.others id item := by
  have htotal := world.workers.total_delete (fun worker => worker.copies.count item) id
  rw [hworker] at htotal
  rw [offList, others, ← htotal, Nat.add_comm]
  rfl

theorem removers_eq (item : ItemId) :
    world.removers item = worker.removers item + world.otherRemovers id item := by
  have htotal := world.workers.total_delete (fun worker => worker.removers item) id
  rw [hworker] at htotal
  rw [removers, otherRemovers, ← htotal, Nat.add_comm]
  rfl

theorem Sound.single (hsound : world.Sound) :
    Single world.redis worker (world.others id) (world.otherRemovers id) where
  once item := by
    have honce := hsound.once item
    rw [offList_eq hworker] at honce
    omega
  member item hpos := by
    refine hsound.member item ?_
    rw [offList_eq hworker]
    exact hpos
  listed item hitem := by
    rw [← removers_eq hworker]
    exact hsound.listed item hitem

/-- Every item that a worker has off the list is a member. -/
theorem Sound.mem_set (hsound : world.Sound) {item : ItemId} (hitem : item ∈ worker.copies) :
    item ∈ world.redis.allItemsSet := by
  refine hsound.member item ?_
  have hpos := List.count_pos_iff.mpr hitem
  rw [offList_eq hworker]
  omega

end OneWorker

/-- Replacing a worker leaves the copies of the others alone. -/
theorem others_put (world : World) (redis : Redis) (id : Nat) (worker : Worker) :
    (World.mk redis (world.workers.put id worker)).others id = world.others id :=
  funext fun _ => world.workers.total_delete_put _ id worker

theorem otherRemovers_put (world : World) (redis : Redis) (id : Nat) (worker : Worker) :
    (World.mk redis (world.workers.put id worker)).otherRemovers id = world.otherRemovers id :=
  funext fun _ => world.workers.total_delete_put _ id worker

/-- What is sound for one worker is sound for the pool with it. -/
theorem sound_of_single {redis : Redis} {id : Nat} {worker : Worker}
    (hsingle : Single redis worker (world.others id) (world.otherRemovers id)) :
    (World.mk redis (world.workers.put id worker)).Sound := by
  have hworker : (World.mk redis (world.workers.put id worker)).workers.get id = some worker := by
    rw [Table.get_put, if_pos rfl]
  have hoff := fun item => offList_eq hworker item
  have hremovers := fun item => removers_eq hworker item
  simp only [others_put, otherRemovers_put] at hoff hremovers
  refine ⟨fun item => ?_, fun item hpos => ?_, fun item hitem => ?_⟩
  · have honce := hsingle.once item
    rw [hoff]
    change redis.availableList.count item + _ ≤ 1
    omega
  · rw [hoff] at hpos
    exact hsingle.member item hpos
  · rw [hremovers]
    exact hsingle.listed item hitem

theorem Sound.join (hsound : world.Sound) {id : Nat} (hfree : world.workers.get id = none) :
    ({ world with workers := world.workers.put id ⟨[], .idle⟩ } : World).Sound := by
  have htotal : ∀ measure : Worker → Nat,
      (world.workers.delete id).total measure = world.workers.total measure := by
    intro measure
    have hdelete := world.workers.total_delete measure id
    rw [hfree] at hdelete
    exact hdelete
  have hothers : ∀ item, world.others id item = world.offList item := fun _ => htotal _
  have hremovers : ∀ item, world.otherRemovers id item = world.removers item := fun _ => htotal _
  refine sound_of_single ⟨fun item => ?_, fun item hpos => ?_, fun item hitem => ?_⟩
  · rw [hothers]
    exact hsound.once item
  · rw [hothers] at hpos
    refine hsound.member item (Nat.lt_of_lt_of_eq hpos ?_)
    exact Nat.zero_add _
  · rw [hremovers]
    exact (hsound.listed item hitem).imp_right fun hpos =>
      Nat.lt_of_lt_of_eq hpos (Nat.zero_add _).symm

theorem Sound.step (hsound : world.Sound) {label : Label}
    (hclean : world.Undisturbed label next) (hnext : world.step label = some next) :
    next.Sound := by
  cases label with
  | join id =>
    simp only [World.step] at hnext
    split at hnext
    next => cases hnext
    next hfree =>
      cases hnext
      exact hsound.join (by simpa using hfree)
  | act id action =>
    obtain ⟨worker, hworker, hact⟩ := Option.bind_eq_some_iff.mp hnext
    obtain ⟨⟨redis, later⟩, hlater, rfl⟩ := Option.map_eq_some_iff.mp hact
    refine sound_of_single ((hsound.single hworker).act (fun haction => ?_) hlater)
    subst haction
    have hundisturbed := hclean worker hworker
    rw [funext (offList_eq hworker), funext (removers_eq hworker)] at hundisturbed
    exact hundisturbed
  | expireLock =>
    cases hnext
    exact ⟨hsound.once, hsound.member, hsound.listed⟩

theorem Sound.oneHolder (hsound : world.Sound) : world.OneHolder where
  listed := by
    refine List.nodup_iff_count_le_one.mpr fun item => ?_
    have honce := hsound.once item
    omega
  free id worker hworker item hitem hlist := by
    have honce := hsound.once item
    have hheld := List.count_pos_iff.mpr hitem
    have hlisted := List.count_pos_iff.mpr hlist
    rw [offList_eq hworker, count_copies] at honce
    omega
  single first second one other item hone hother hitem hsame := by
    by_contra hne
    have honce := hsound.once item
    have hheld := List.count_pos_iff.mpr hitem
    have hothers : other.copies.count item ≤ world.others first item := by
      have hget : (world.workers.delete first).get second = some other := by
        rw [Table.get_delete, if_neg (Ne.symm hne)]
        exact hother
      have htotal := (world.workers.delete first).total_delete
        (fun worker => worker.copies.count item) second
      rw [hget] at htotal
      exact Nat.le.intro ((Nat.add_comm _ _).trans htotal)
    have hmore := List.count_pos_iff.mpr hsame
    rw [offList_eq hone, count_copies] at honce
    rw [count_copies] at hothers
    omega

theorem given_subset_copies (worker : Worker) {item : ItemId} (hitem : item ∈ worker.given) :
    item ∈ worker.copies := by
  unfold Worker.given at hitem
  split at hitem
  next other retries hphase =>
    rw [Worker.copies, hphase]
    rcases List.mem_cons.mp hitem with rfl | hheld
    · exact List.mem_append_right _ List.mem_cons_self
    · exact List.mem_append_left _ hheld
  next => exact List.mem_append_left _ hitem

/-- In a run whose commands run into no other call every item has one holder at every moment, and
only members are given. -/
theorem oneHolder_of_undisturbed {labels : List Label}
    (hlabels : EachStep step Undisturbed start labels) :
    Always step OneHolder start labels ∧ EachStep step GivesMembers start labels := by
  have hstep : ∀ world label next, Sound world → world.Undisturbed label next →
      step world label = some next → Sound next :=
    fun _ _ _ hsound hclean hnext => hsound.step hclean hnext
  refine ⟨(always_of_eachStep hstep sound_start hlabels).imp fun _ => Sound.oneHolder, ?_⟩
  refine EachStep.of_invariant ?_ sound_start hlabels
  intro world label next hsound hclean hnext
  have hafter := hstep world label next hsound hclean hnext
  refine ⟨hafter, fun id worker later _ hlater item hitem _ => ?_⟩
  exact hafter.mem_set hlater (given_subset_copies later hitem)

/-! ### Runs on one item -/

def addAndReturn : List Label :=
  [.join 0, .join 1, .act 0 (.begin (.add "a")), .act 0 .next, .act 0 .next, .act 0 .next,
    .act 1 (.begin (.getNextAvailable false)), .act 1 .next, .act 1 (.begin (.checkin "a")),
    .act 1 .next, .act 1 .next, .act 1 .next]

theorem oneHolder_addAndReturn :
    Always step OneHolder start addAndReturn ∧ EachStep step GivesMembers start addAndReturn := by
  refine oneHolder_of_undisturbed ?_
  iterate 4
    rintro _ ⟨⟩
    refine ⟨by first | trivial | (rintro _ ⟨⟩; trivial), ?_⟩
  -- the `SADD`
  rintro _ ⟨⟩
  refine ⟨by rintro _ ⟨⟩; exact ⟨by decide +kernel, by decide +kernel⟩, ?_⟩
  iterate 2
    rintro _ ⟨⟩
    refine ⟨by first | trivial | (rintro _ ⟨⟩; trivial), ?_⟩
  -- the `BRPOP`
  rintro _ ⟨⟩
  refine ⟨by rintro _ ⟨⟩ _ ⟨⟩; decide +kernel, ?_⟩
  iterate 4
    rintro _ ⟨⟩
    refine ⟨by first | trivial | (rintro _ ⟨⟩; trivial), ?_⟩
  trivial

/-- Two workers add an item, and each asks before the other has inserted it. -/
def twoAdds : List Label :=
  [.join 0, .join 1, .act 0 (.begin (.add "a")), .act 1 (.begin (.add "a")), .act 0 .next,
    .act 1 .next, .act 0 .next, .act 0 .next, .act 1 .next, .act 1 .next]

theorem not_oneHolder_twoAdds :
    EachStep step Considerate start twoAdds ∧ ¬ Always step OneHolder start twoAdds := by
  constructor
  · iterate 10
      rintro _ ⟨⟩
      refine ⟨trivial, ?_⟩
    trivial
  · exact not_always_of_run (fun world => decide world.redis.availableList.Nodup)
      (fun _ hholder => decide_eq_true hholder.listed) (by decide +kernel)

end World

end DjangoMojo.Pools
