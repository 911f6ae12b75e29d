import DjangoMojo.Account.Groups

/-! # The groups that a key reaches

`get_groups` goes down from the group of the key; `is_group_allowed` goes up from a group
and gives up after nine groups. They agree where no group below the key is deeper.
-/

namespace DjangoMojo.Account

open Foundation

structure Forest where
  groups : Groups
  chains : ∀ group row, groups.get group = some row → ∃ chain,
    ChainOf (parentOf groups.get) group chain ∧ ∀ other ∈ chain, (groups.get other).isSome

def ActiveChild (row : Nat → Option GroupRow) (above lower : Nat) : Prop :=
  parentOf row lower = some above ∧ isActiveGroup row lower

def ActiveBelow (row : Nat → Option GroupRow) : Nat → Nat → Prop :=
  Relation.ReflTransGen (ActiveChild row)

variable {row : Nat → Option GroupRow} {own group : Nat}

/-! ### Up and down -/

theorem ActiveBelow.chain {chain : List Nat} (hbelow : ActiveBelow row own group)
    (hown : ChainOf (parentOf row) own chain) : ∃ below,
      ChainOf (parentOf row) group (below ++ chain) ∧ ∀ lower ∈ below, isActiveGroup row lower := by
  induction hbelow with
  | refl => exact ⟨[], hown, nofun⟩
  | @tail above lower _ hstep ih =>
    obtain ⟨below, habove, hactive⟩ := ih
    refine ⟨lower :: below, .step hstep.1 habove, fun other hother => ?_⟩
    rcases List.mem_cons.mp hother with rfl | hother
    · exact hstep.2
    · exact hactive other hother

theorem activeBelow_of_chain {chain : List Nat} (hchain : ChainOf (parentOf row) group chain)
    (hactive : ∀ other ∈ chain, isActiveGroup row other) (hown : own ∈ chain) :
    ActiveBelow row own group := by
  induction hchain with
  | root _ =>
    rw [List.mem_singleton] at hown
    exact hown ▸ .refl
  | @step lower above chain hparent habove ih =>
    rcases List.mem_cons.mp hown with rfl | hown
    · exact .refl
    · exact .tail (ih (fun other hother => hactive other (List.mem_cons_of_mem _ hother)) hown)
        ⟨hparent, hactive lower List.mem_cons_self⟩

theorem isEffectivelyActive_iff : isEffectivelyActive row group ↔ ∃ chain,
    ChainOf (parentOf row) group chain ∧ chain.length ≤ 9 ∧
      ∀ other ∈ chain, isActiveGroup row other := by
  unfold isEffectivelyActive
  have hrow {other : Nat} (hactive : isActiveGroup row other) : (row other).isSome := by
    rw [isActiveGroup] at hactive
    cases hother : row other with
    | none => rw [hother] at hactive; cases hactive
    | some _ => rfl
  cases hfound : ancestorsFrom row (8 + 1) group with
  | error _ =>
    refine iff_of_false nofun ?_
    rintro ⟨chain, hchain, hlength, hactive⟩
    have hok := ancestorsFrom_ok_iff.mpr ⟨hchain, hlength, fun other hother =>
      hrow (hactive other hother)⟩
    rw [hfound] at hok
    cases hok
  | ok chain =>
    obtain ⟨hchain, hlength, _⟩ := ancestorsFrom_ok_iff.mp hfound
    rw [List.all_eq_true]
    constructor
    · exact fun hactive => ⟨chain, hchain, hlength, hactive⟩
    · rintro ⟨other, hother, _, hactive⟩
      exact hchain.unique hother ▸ hactive

theorem isGroupAllowed_iff : isGroupAllowed row own group = .ok true ↔
    isEffectivelyActive row own ∧ ActiveBelow row own group ∧
      ∃ chain, ChainOf (parentOf row) group chain ∧ chain.length ≤ 9 := by
  have hexact : isGroupAllowed row own group = .ok true ↔ isEffectivelyActive row group ∧
      ∃ chain, ChainOf (parentOf row) group chain ∧ own ∈ chain := by
    unfold isGroupAllowed
    by_cases hactive : isEffectivelyActive row group
    · obtain ⟨chain, hchain, hlength, hall⟩ := isEffectivelyActive_iff.mp hactive
      simp only [hactive, Bool.not_true, Bool.false_eq_true, if_false, true_and]
      by_cases heq : group = own
      · rw [if_pos heq]
        exact iff_of_true rfl ⟨chain, hchain, heq ▸ hchain.self_mem⟩
      rw [if_neg heq]
      have hsome : ∀ other ∈ chain, (row other).isSome := fun other hother => by
        have hother := hall other hother
        rw [isActiveGroup, Option.any_eq_true] at hother
        obtain ⟨found, hfound, _⟩ := hother
        rw [hfound]
        rfl
      have hchild : isChildOf row group own = .ok (chain.tail.any (· = own)) := by
        unfold isChildOf ancestors
        change (climb row maxAncestorDepth [] (parentOf row group) >>= _) = _
        cases hchain with
        | root hroot =>
          rw [hroot, climb]
          rfl
        | @step _ above top hparent habove =>
          have hclimb : climb row maxAncestorDepth [] (some above) = .ok top :=
            climb_ok_iff.mpr ⟨habove, by
              rw [List.length_cons] at hlength
              rw [maxAncestorDepth]
              omega, fun other hother =>
              ⟨List.not_mem_nil, hsome other (List.mem_cons_of_mem _ hother)⟩⟩
          rw [hparent, hclimb]
          rfl
      rw [hchild, Except.ok.injEq, List.any_eq_true]
      obtain ⟨rest, rfl⟩ := hchain.head
      simp only [List.tail_cons, decide_eq_true_eq]
      constructor
      · rintro ⟨other, hother, rfl⟩
        exact ⟨_, hchain, List.mem_cons_of_mem _ hother⟩
      · rintro ⟨other, hother, hmem⟩
        rw [← hchain.unique hother] at hmem
        exact ⟨own, (List.mem_cons.mp hmem).resolve_left (Ne.symm heq), rfl⟩
    · simp [hactive]
  rw [hexact, isEffectivelyActive_iff, isEffectivelyActive_iff]
  constructor
  · rintro ⟨⟨chain, hchain, hlength, hall⟩, other, hother, hmem⟩
    rw [← hchain.unique hother] at hmem
    obtain ⟨below, rest, rfl, _, hown⟩ := hchain.of_mem hmem
    refine ⟨⟨_, hown, ?_, fun above habove => hall above (List.mem_append_right _ habove)⟩,
      activeBelow_of_chain hchain hall hmem, _, hchain, hlength⟩
    rw [List.length_append] at hlength
    omega
  · rintro ⟨⟨top, htop, _, hall⟩, hbelow, chain, hchain, hlength⟩
    obtain ⟨below, hown, hactive⟩ := hbelow.chain htop
    rw [hchain.unique hown] at hlength hchain
    refine ⟨⟨_, hchain, hlength, fun other hother => ?_⟩, _, hchain,
      List.mem_append_right _ htop.self_mem⟩
    rcases List.mem_append.mp hother with hother | hother
    · exact hactive other hother
    · exact hall other hother

/-! ### The list -/

theorem Groups.mem_children {groups : Groups} {above lower : Nat} :
    lower ∈ groups.children above ↔ parentOf groups.get lower = some above := by
  unfold Groups.children
  rw [Table.mem_select, parentOf]
  cases groups.get lower <;> simp

theorem Groups.mem_childrenOf {groups : Groups} {allIds : List Nat} {above lower : Nat} :
    lower ∈ groups.childrenOf allIds above ↔
      lower ∈ allIds ∧ ActiveChild groups.get above lower := by
  unfold Groups.childrenOf
  rw [Table.mem_select, ActiveChild, parentOf, isActiveGroup]
  cases groups.get lower <;> simp [and_assoc, and_comm, and_left_comm]

theorem Groups.key_of_parent {groups : Groups} {above : Nat}
    (hparent : parentOf groups.get group = some above) : group ∈ groups.keys := by
  rw [parentOf, Option.bind_eq_some_iff] at hparent
  obtain ⟨found, hfound, _⟩ := hparent
  exact (groups.mem_keys group).mpr (by rw [hfound]; rfl)

theorem Groups.edge_children {groups : Groups} : Edge groups.children =
    fun above lower => parentOf groups.get lower = some above := by
  funext above lower
  exact propext groups.mem_children

theorem Groups.mem_allChildIds {groups : Groups} : group ∈ groups.allChildIds own ↔
    Relation.TransGen (fun above lower => parentOf groups.get lower = some above) own group := by
  have hnodes : ∀ above, ∀ lower ∈ groups.children above, lower ∈ groups.keys :=
    fun above lower hlower => Groups.key_of_parent (Groups.mem_children.mp hlower)
  have hroom : unseen groups.keys [] < groups.count + 1 :=
    Nat.lt_succ_of_le (List.length_filter_le ..)
  have hfound := collect_found hnodes hroom own
  rw [Groups.allChildIds, hfound.mem_iff, Relation.TransGen.head'_iff, Groups.edge_children]
  exact exists_congr fun lower => and_congr_left' Groups.mem_children

theorem Groups.mem_getGroups {groups : Groups} (hown : (groups.get own).isSome)
    (hactive : isEffectivelyActive groups.get own) :
    group ∈ groups.getGroups own ↔ ActiveBelow groups.get own group := by
  let next := groups.childrenOf (own :: groups.allChildIds own)
  have hnodes : ∀ above, ∀ lower ∈ next above, lower ∈ own :: groups.keys :=
    fun above lower hlower =>
      List.mem_cons_of_mem _ (Groups.key_of_parent (Groups.mem_childrenOf.mp hlower).2.1)
  have hstack : ∀ other ∈ [own], other ∈ own :: groups.keys := fun other hother =>
    List.mem_singleton.mp hother ▸ List.mem_cons_self
  have hfound : FoundFrom next [] [own]
      (walk next (1 + edgesLeft next (own :: groups.keys) []) [own] []) :=
    walk_found hnodes hstack (by simp)
  -- what is below the group was collected, so every active child is an edge of the walk
  have hedges : Relation.ReflTransGen (Edge next) own group ↔ ActiveBelow groups.get own group := by
    constructor
    · intro hreach
      induction hreach with
      | refl => exact .refl
      | tail _ hedge ih => exact .tail ih (Groups.mem_childrenOf.mp hedge).2
    · intro hbelow
      induction hbelow with
      | refl => exact .refl
      | @tail above lower hbelow hstep ih =>
        refine .tail ih (Groups.mem_childrenOf.mpr ⟨List.mem_cons_of_mem _ ?_, hstep⟩)
        have hplain : ActiveBelow groups.get ≤ Relation.ReflTransGen fun above lower =>
            parentOf groups.get lower = some above :=
          Relation.ReflTransGen.mono fun _ _ hedge => And.left hedge
        exact Groups.mem_allChildIds.mpr (Relation.TransGen.tail' (hplain _ _ hbelow) hstep.1)
  have hexists (hbelow : ActiveBelow groups.get own group) : (groups.get group).isSome := by
    rcases Relation.ReflTransGen.cases_tail hbelow with heq | ⟨above, _, hstep⟩
    · exact heq ▸ hown
    · exact (groups.mem_keys group).mp (Groups.key_of_parent hstep.1)
  rw [Groups.getGroups, hactive, Bool.not_true, if_neg Bool.false_ne_true, Table.mem_select]
  simp only [decide_eq_true_eq]
  rw [← hedges]
  constructor
  · rintro ⟨_, _, hkept⟩
    obtain ⟨start, hstart, hreach⟩ := (hfound.mem_iff next group).mp hkept
    exact List.mem_singleton.mp hstart ▸ hreach
  · intro hreach
    obtain ⟨found, hrow⟩ := Option.isSome_iff_exists.mp (hexists (hedges.mp hreach))
    exact ⟨found, hrow, (hfound.mem_iff next group).mpr ⟨own, List.mem_singleton_self own, hreach⟩⟩

/-! ### Both together -/

/-- No group that is reached over active children has more than eight groups above it. -/
def Shallow (row : Nat → Option GroupRow) (own : Nat) : Prop :=
  isEffectivelyActive row own → ∀ group, ActiveBelow row own group →
    ∀ chain, ChainOf (parentOf row) group chain → chain.length ≤ 9

/-- The list of a key holds exactly the groups that it is allowed in, if and only if no
group below it is too deep for the check. -/
theorem getGroups_exact_iff (forest : Forest) (own : Nat)
    (hown : (forest.groups.get own).isSome) :
    (∀ group, group ∈ forest.groups.getGroups own ↔
        isGroupAllowed forest.groups.get own group = .ok true) ↔
      Shallow forest.groups.get own := by
  by_cases hactive : isEffectivelyActive forest.groups.get own
  · have hchain : ∀ {group}, ActiveBelow forest.groups.get own group →
        ∃ chain, ChainOf (parentOf forest.groups.get) group chain := by
      intro group hbelow
      obtain ⟨found, hfound⟩ := Option.isSome_iff_exists.mp hown
      obtain ⟨top, htop, _⟩ := forest.chains own found hfound
      obtain ⟨below, hchain, _⟩ := hbelow.chain htop
      exact ⟨_, hchain⟩
    simp only [Groups.mem_getGroups hown hactive, isGroupAllowed_iff, hactive, true_and]
    constructor
    · intro hsame _ group hbelow chain hchain
      obtain ⟨_, other, hother, hlength⟩ := (hsame group).mp hbelow
      exact hchain.unique hother ▸ hlength
    · intro hshallow group
      refine ⟨fun hbelow => ⟨hbelow, ?_⟩, fun hallowed => hallowed.1⟩
      obtain ⟨chain, hchain⟩ := hchain hbelow
      exact ⟨chain, hchain, hshallow hactive group hbelow chain hchain⟩
  · have hnone (group : Nat) : group ∉ forest.groups.getGroups own := by
      rw [Groups.getGroups, Bool.eq_false_of_not_eq_true hactive]
      exact List.not_mem_nil
    refine iff_of_true (fun group => iff_of_false (hnone group) ?_) fun hown => absurd hown hactive
    rw [isGroupAllowed_iff]
    exact fun hallowed => hactive hallowed.1

/-! ### A line of ten groups -/

/-- Group `n` is the parent of group `n + 1`, for ten groups. -/
def lineOfTen : Groups where
  keys := List.range 10
  get id := if id < 10 then some { parent := if id = 0 then none else some (id - 1) } else none
  nodup := List.nodup_range
  mem_keys id := by
    rw [List.mem_range]
    split <;> simp [*]

theorem lineOfTen_chain : ∀ id < 10,
    ChainOf (parentOf lineOfTen.get) id (List.range (id + 1)).reverse := by
  intro id hid
  induction id with
  | zero => exact .root rfl
  | succ id ih =>
    have hparent : parentOf lineOfTen.get (id + 1) = some id := by
      simp [parentOf, lineOfTen, hid]
    rw [List.range_succ, List.reverse_append]
    exact .step hparent (ih (by omega))

def forestOfTen : Forest where
  groups := lineOfTen
  chains group row hrow := by
    have hid : group < 10 := by
      by_contra hnot
      rw [show lineOfTen.get group = none from if_neg hnot] at hrow
      cases hrow
    refine ⟨_, lineOfTen_chain group hid, fun other hother => ?_⟩
    have hother : other < 10 := by
      rw [List.mem_reverse, List.mem_range] at hother
      omega
    simp [lineOfTen, hother]

theorem forestOfTen_exact : (∀ group, group ∈ forestOfTen.groups.getGroups 1 ↔
    isGroupAllowed forestOfTen.groups.get 1 group = .ok true) ↔
      Shallow forestOfTen.groups.get 1 :=
  getGroups_exact_iff forestOfTen 1 rfl

/-- The list of a key can hold a group that it is not allowed in. -/
theorem not_all_getGroups_exact : ¬ ∀ (forest : Forest) (own group : Nat),
    (forest.groups.get own).isSome → (group ∈ forest.groups.getGroups own ↔
      isGroupAllowed forest.groups.get own group = .ok true) := by
  intro hall
  have hlisted : 9 ∈ forestOfTen.groups.getGroups 0 := by decide
  have hrefused : isGroupAllowed forestOfTen.groups.get 0 9 = .ok false := by rfl
  have hallowed := (hall forestOfTen 0 9 rfl).mp hlisted
  rw [hrefused] at hallowed
  cases hallowed

end DjangoMojo.Account
