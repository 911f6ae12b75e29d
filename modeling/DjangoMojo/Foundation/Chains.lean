import Mathlib.Data.List.Nodup
import Mathlib.Logic.Function.Basic
import Mathlib.Logic.Relation

/-! # Chains of parents

Every node has at most one parent. The chain of a node is the list of the nodes that are
met on the way to a node without a parent, nearest first.
-/

namespace DjangoMojo.Foundation

variable {Node : Type}

/-- The nodes from `first` to its root. -/
inductive ChainOf (parent : Node → Option Node) : Node → List Node → Prop where
  | root {node : Node} (hroot : parent node = none) : ChainOf parent node [node]
  | step {node above : Node} {chain : List Node} (hparent : parent node = some above)
      (habove : ChainOf parent above chain) : ChainOf parent node (node :: chain)

/-- The list leads upwards from its first node to the parent of its last. -/
inductive Leads (parent : Node → Option Node) : Option Node → List Node → Option Node → Prop where
  | refl (start : Option Node) : Leads parent start [] start
  | cons {node : Node} {chain : List Node} {last : Option Node}
      (hrest : Leads parent (parent node) chain last) : Leads parent (some node) (node :: chain) last

namespace ChainOf

variable {parent : Node → Option Node} {first : Node} {chain : List Node}

theorem unique {other : List Node} (hchain : ChainOf parent first chain)
    (hother : ChainOf parent first other) : chain = other := by
  induction hchain generalizing other with
  | root hroot =>
    cases hother with
    | root _ => rfl
    | step hparent _ => rw [hroot] at hparent; cases hparent
  | step hparent _ ih =>
    cases hother with
    | root hroot => rw [hroot] at hparent; cases hparent
    | step hagain habove =>
      rw [hparent] at hagain
      cases hagain
      rw [ih habove]

theorem head (hchain : ChainOf parent first chain) : ∃ rest, chain = first :: rest := by
  cases hchain with
  | root _ => exact ⟨[], rfl⟩
  | step _ _ => exact ⟨_, rfl⟩

theorem self_mem (hchain : ChainOf parent first chain) : first ∈ chain := by
  obtain ⟨rest, rfl⟩ := hchain.head
  exact List.mem_cons_self

/-- From each of its nodes on a chain is the chain of that node. -/
theorem of_mem (hchain : ChainOf parent first chain) {node : Node} (hnode : node ∈ chain) :
    ∃ below rest, chain = below ++ node :: rest ∧ node ∉ below ∧
      ChainOf parent node (node :: rest) := by
  induction hchain with
  | root hroot =>
    rw [List.mem_singleton] at hnode
    subst hnode
    exact ⟨[], [], rfl, List.not_mem_nil, .root hroot⟩
  | @step lower above chain hparent habove ih =>
    by_cases heq : node = lower
    · subst heq
      exact ⟨[], chain, rfl, List.not_mem_nil, .step hparent habove⟩
    · obtain ⟨below, rest, rfl, hnot, hown⟩ := ih ((List.mem_cons.mp hnode).resolve_left heq)
      refine ⟨lower :: below, rest, rfl, ?_, hown⟩
      rw [List.mem_cons, not_or]
      exact ⟨heq, hnot⟩

theorem nodup (hchain : ChainOf parent first chain) : chain.Nodup := by
  induction hchain with
  | root _ => exact List.nodup_singleton _
  | @step node above chain hparent habove ih =>
    refine List.nodup_cons.mpr ⟨fun hmem => ?_, ih⟩
    obtain ⟨below, rest, heq, _, hown⟩ := habove.of_mem hmem
    have hlength := congrArg List.length (hown.unique (.step hparent habove))
    rw [heq] at hlength
    simp only [List.length_cons, List.length_append] at hlength
    omega

theorem congr {other : Node → Option Node} (hchain : ChainOf parent first chain)
    (hsame : ∀ node ∈ chain, other node = parent node) : ChainOf other first chain := by
  induction hchain with
  | root hroot => exact .root ((hsame _ List.mem_cons_self).trans hroot)
  | step hparent _ ih =>
    exact .step ((hsame _ List.mem_cons_self).trans hparent)
      (ih fun node hnode => hsame node (List.mem_cons_of_mem _ hnode))

theorem append {node : Node} {below rest top : List Node} {other : Node → Option Node}
    (hchain : ChainOf parent first (below ++ node :: rest))
    (hsame : ∀ lower ∈ below, other lower = parent lower) (htop : ChainOf other node top) :
    ChainOf other first (below ++ top) := by
  induction below generalizing first with
  | nil =>
    obtain ⟨_, heq⟩ := hchain.head
    cases heq
    exact htop
  | cons lower below ih =>
    generalize hrest : below ++ node :: rest = upper at hchain ih
    rw [List.cons_append, hrest] at hchain
    cases hchain with
    | root _ => exact absurd hrest (by simp)
    | step hparent habove =>
      exact .step ((hsame _ List.mem_cons_self).trans hparent)
        (ih habove fun node hnode => hsame node (List.mem_cons_of_mem _ hnode))

theorem acyclic (hall : ∀ node above, parent node = some above → ∃ chain, ChainOf parent above chain)
    (node : Node) : ¬ Relation.TransGen (fun lower above => parent lower = some above) node node := by
  have hshorter : ∀ {lower above : Node},
      Relation.TransGen (fun lower above => parent lower = some above) lower above →
      ∀ chain, ChainOf parent lower chain →
        ∃ top, ChainOf parent above top ∧ top.length < chain.length := by
    intro lower above hreach
    induction hreach with
    | single hparent =>
      intro chain hchain
      cases hchain with
      | root hroot => rw [hroot] at hparent; cases hparent
      | step hagain habove =>
        rw [hparent] at hagain
        cases hagain
        exact ⟨_, habove, Nat.lt_succ_self _⟩
    | tail _ hparent ih =>
      intro chain hchain
      obtain ⟨top, htop, hlength⟩ := ih chain hchain
      cases htop with
      | root hroot => rw [hroot] at hparent; cases hparent
      | step hagain habove =>
        rw [hparent] at hagain
        cases hagain
        exact ⟨_, habove, by simp only [List.length_cons] at hlength; omega⟩
  intro hcycle
  obtain ⟨above, hparent, _⟩ := Relation.TransGen.head'_iff.mp hcycle
  obtain ⟨chain, hchain⟩ := hall node above hparent
  obtain ⟨top, htop, hlength⟩ := hshorter hcycle (node :: chain) (.step hparent hchain)
  have heq := congrArg List.length (htop.unique (.step hparent hchain))
  omega

end ChainOf

namespace Leads

variable {parent : Node → Option Node} {start last : Option Node} {chain : List Node}

theorem concat {node : Node} (hleads : Leads parent start chain (some node)) :
    Leads parent start (chain ++ [node]) (parent node) := by
  generalize hnode : some node = found at hleads
  induction hleads with
  | refl start =>
    subst hnode
    exact .cons (.refl _)
  | cons _ ih => exact .cons (ih hnode)

theorem congr {other : Node → Option Node} (hleads : Leads parent start chain last)
    (hsame : ∀ node ∈ chain, other node = parent node) : Leads other start chain last := by
  induction hleads with
  | refl start => exact .refl start
  | @cons node chain last hrest ih =>
    refine .cons ?_
    rw [hsame node List.mem_cons_self]
    exact ih fun lower hlower => hsame lower (List.mem_cons_of_mem _ hlower)

theorem chainOf {node : Node} (hleads : Leads parent (some node) chain none) :
    ChainOf parent node chain := by
  generalize hstart : some node = start at hleads
  generalize hlast : (none : Option Node) = last at hleads
  induction hleads generalizing node with
  | refl start => rw [← hstart] at hlast; cases hlast
  | @cons lower chain last hrest ih =>
    obtain rfl : node = lower := Option.some.inj hstart
    cases habove : parent node with
    | none =>
      rw [habove] at hrest
      cases hrest
      exact .root habove
    | some above => exact .step habove (ih habove.symm hlast)

end Leads

end DjangoMojo.Foundation
