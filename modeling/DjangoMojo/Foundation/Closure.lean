import Mathlib.Algebra.BigOperators.Group.List.Basic
import Mathlib.Algebra.Order.BigOperators.Group.List
import Mathlib.Algebra.Order.Monoid.Canonical.Defs
import Mathlib.Algebra.Order.Ring.Nat
import Mathlib.Data.List.Nodup
import Mathlib.Logic.Relation

/-! # What can be reached

Two ways to go through the nodes that can be reached: a recursion that collects the
children of a node, and a loop over a stack. Both end with a closed set.
-/

namespace DjangoMojo.Foundation

variable {Node : Type} (next : Node → List Node)

def Edge (first second : Node) : Prop := second ∈ next first

/-- What is found from some nodes on, beside what was already seen. -/
structure FoundFrom (seen starts found : List Node) : Prop where
  kept : ∀ node ∈ seen, node ∈ found
  started : ∀ node ∈ starts, node ∈ found
  closed : ∀ node ∈ found, node ∉ seen → ∀ child ∈ next node, child ∈ found
  reached : ∀ node ∈ found, node ∈ seen ∨ ∃ start ∈ starts, Relation.ReflTransGen (Edge next) start node

theorem FoundFrom.mem_iff {starts found : List Node} (hfound : FoundFrom next [] starts found)
    (node : Node) : node ∈ found ↔ ∃ start ∈ starts, Relation.ReflTransGen (Edge next) start node := by
  constructor
  · intro hnode
    exact (hfound.reached node hnode).resolve_left List.not_mem_nil
  · rintro ⟨start, hstart, hreach⟩
    induction hreach with
    | refl => exact hfound.started start hstart
    | tail _ hedge ih => exact hfound.closed _ ih List.not_mem_nil _ hedge

variable [DecidableEq Node]

/-! ### A recursion -/

/-- Collect what is below a node; a child that was collected is not gone through again. -/
def collect : Nat → List Node → Node → List Node
  | 0, collected, _ => collected
  | fuel + 1, collected, node => (next node).foldl (fun collected child =>
    if child ∈ collected then collected else collect fuel (child :: collected) child) collected

def unseen (nodes seen : List Node) : Nat := (nodes.filter fun node => node ∉ seen).length

theorem unseen_le {nodes seen more : List Node} (hmore : ∀ node ∈ seen, node ∈ more) :
    unseen nodes more ≤ unseen nodes seen := by
  refine List.Sublist.length_le (List.monotone_filter_right _ fun node hnode => ?_)
  simp only [decide_eq_true_eq] at hnode ⊢
  exact fun hseen => hnode (hmore node hseen)

theorem unseen_cons_lt {nodes seen : List Node} {node : Node} (hnode : node ∈ nodes)
    (hnew : node ∉ seen) : unseen nodes (node :: seen) < unseen nodes seen := by
  unfold unseen
  induction nodes with
  | nil => exact absurd hnode List.not_mem_nil
  | cons head rest ih =>
    have hrest : unseen rest (node :: seen) ≤ unseen rest seen :=
      unseen_le fun other hother => List.mem_cons_of_mem _ hother
    unfold unseen at hrest
    rw [List.filter_cons, List.filter_cons]
    by_cases heq : head = node
    · subst heq
      rw [if_neg (by simp), if_pos (by simpa using hnew), List.length_cons]
      omega
    · have hmem := ih ((List.mem_cons.mp hnode).resolve_left (Ne.symm heq))
      by_cases hseen : head ∈ seen
      · rw [if_neg (by simp [hseen]), if_neg (by simp [hseen])]
        exact hmem
      · rw [if_pos (by simp [hseen, heq]), if_pos (by simp [hseen])]
        exact Nat.succ_lt_succ hmem

variable {next}

theorem collect_found {nodes : List Node} (hnodes : ∀ node, ∀ child ∈ next node, child ∈ nodes)
    {fuel : Nat} {collected : List Node} (hfuel : unseen nodes collected < fuel) (node : Node) :
    FoundFrom next collected (next node) (collect next fuel collected node) := by
  induction fuel generalizing collected node with
  | zero => exact absurd hfuel (Nat.not_lt_zero _)
  | succ fuel ih =>
    -- the fold goes through the children; each is collected with all that is below it
    have hfold : ∀ (children found : List Node), (∀ child ∈ children, child ∈ nodes) →
        (∀ node ∈ collected, node ∈ found) →
        FoundFrom next found children (children.foldl (fun collected child =>
          if child ∈ collected then collected
          else collect next fuel (child :: collected) child) found) := by
      intro children
      induction children with
      | nil =>
        intro found _ _
        exact ⟨fun _ hnode => hnode, nofun, fun _ hnode hnot => absurd hnode hnot,
          fun _ hnode => .inl hnode⟩
      | cons child rest ihrest =>
        intro found hchildren hkept
        rw [List.foldl_cons]
        split
        next hseen =>
          have hrest := ihrest found (fun other hother =>
            hchildren other (List.mem_cons_of_mem _ hother)) hkept
          refine ⟨hrest.kept, ?_, hrest.closed, fun other hother => ?_⟩
          · intro other hother
            rcases List.mem_cons.mp hother with rfl | hother
            · exact hrest.kept _ hseen
            · exact hrest.started _ hother
          · exact (hrest.reached other hother).imp_right fun ⟨start, hstart, hreach⟩ =>
              ⟨start, List.mem_cons_of_mem _ hstart, hreach⟩
        next hnew =>
          have hroom : unseen nodes (child :: found) < fuel := by
            have hless := unseen_cons_lt (hchildren child List.mem_cons_self) hnew
            have hle : unseen nodes found ≤ unseen nodes collected := unseen_le hkept
            omega
          have hchild := ih hroom child
          have hall : ∀ other ∈ collected, other ∈ collect next fuel (child :: found) child :=
            fun other hother => hchild.kept other (List.mem_cons_of_mem _ (hkept other hother))
          have hrest := ihrest _ (fun other hother =>
            hchildren other (List.mem_cons_of_mem _ hother)) hall
          refine ⟨?_, ?_, ?_, ?_⟩
          · intro other hother
            exact hrest.kept other (hchild.kept other (List.mem_cons_of_mem _ hother))
          · intro other hother
            rcases List.mem_cons.mp hother with rfl | hother
            · exact hrest.kept _ (hchild.kept _ List.mem_cons_self)
            · exact hrest.started other hother
          · intro other hother hnot below hbelow
            by_cases hin : other ∈ collect next fuel (child :: found) child
            · refine hrest.kept below ?_
              by_cases heq : other = child
              · subst heq
                exact hchild.started below hbelow
              · refine hchild.closed other hin ?_ below hbelow
                rw [List.mem_cons, not_or]
                exact ⟨heq, hnot⟩
            · exact hrest.closed other hother hin below hbelow
          · intro other hother
            rcases hrest.reached other hother with hin | ⟨start, hstart, hreach⟩
            · rcases hchild.reached other hin with hseen | ⟨start, hstart, hreach⟩
              · rcases List.mem_cons.mp hseen with rfl | hseen
                · exact .inr ⟨_, List.mem_cons_self, .refl⟩
                · exact .inl hseen
              · exact .inr ⟨child, List.mem_cons_self, .head hstart hreach⟩
            · exact .inr ⟨start, List.mem_cons_of_mem _ hstart, hreach⟩
    exact hfold (next node) collected (hnodes node) fun _ hmem => hmem

/-! ### A stack -/

variable (next)

/-- Take nodes off a stack; one that is new puts its children there. -/
def walk : Nat → List Node → List Node → List Node
  | 0, _, seen => seen
  | _ + 1, [], seen => seen
  | fuel + 1, node :: stack, seen =>
    if node ∈ seen then walk fuel stack seen
    else walk fuel ((next node).reverse ++ stack) (node :: seen)

def edgesLeft (nodes seen : List Node) : Nat :=
  ((nodes.filter fun node => node ∉ seen).map fun node => (next node).length).sum

theorem edgesLeft_cons {nodes seen : List Node} {node : Node} (hnode : node ∈ nodes)
    (hnew : node ∉ seen) :
    (next node).length + edgesLeft next nodes (node :: seen) ≤ edgesLeft next nodes seen := by
  have hsplit : ∀ nodes : List Node, edgesLeft next nodes (node :: seen) +
      ((nodes.filter fun other => other = node).map fun other => (next other).length).sum =
        edgesLeft next nodes seen := by
    intro nodes
    unfold edgesLeft
    induction nodes with
    | nil => rfl
    | cons head rest ih =>
      by_cases heq : head = node
      · subst heq
        simp [hnew] at ih ⊢
        omega
      · by_cases hseen : head ∈ seen
        · simpa [List.filter_cons, hseen, heq] using ih
        · simp [hseen, heq] at ih ⊢
          omega
  have hmem : (next node).length ∈
      (nodes.filter fun other => other = node).map fun other => (next other).length :=
    List.mem_map.mpr ⟨node, List.mem_filter.mpr ⟨hnode, by simp⟩, rfl⟩
  have hle := List.le_sum_of_mem hmem
  have htotal := hsplit nodes
  omega

variable {next}

theorem walk_found {nodes : List Node} (hnodes : ∀ node, ∀ child ∈ next node, child ∈ nodes)
    {fuel : Nat} {stack seen : List Node} (hstack : ∀ node ∈ stack, node ∈ nodes)
    (hfuel : stack.length + edgesLeft next nodes seen ≤ fuel) :
    FoundFrom next seen stack (walk next fuel stack seen) := by
  induction fuel generalizing stack seen with
  | zero =>
    obtain rfl : stack = [] := List.length_eq_zero_iff.mp (by omega)
    exact ⟨fun _ hnode => hnode, nofun, fun _ hnode hnot => absurd hnode hnot,
      fun _ hnode => .inl hnode⟩
  | succ fuel ih =>
    cases stack with
    | nil =>
      exact ⟨fun _ hnode => hnode, nofun, fun _ hnode hnot => absurd hnode hnot,
        fun _ hnode => .inl hnode⟩
    | cons node stack =>
      rw [List.length_cons] at hfuel
      have hrest : ∀ other ∈ stack, other ∈ nodes := fun other hother =>
        hstack other (List.mem_cons_of_mem _ hother)
      simp only [walk]
      split
      next hseen =>
        have hroom : stack.length + edgesLeft next nodes seen ≤ fuel := by omega
        have hfound := ih hrest hroom
        refine ⟨hfound.kept, ?_, hfound.closed, ?_⟩
        · intro other hother
          rcases List.mem_cons.mp hother with rfl | hother
          · exact hfound.kept _ hseen
          · exact hfound.started _ hother
        · intro other hother
          exact (hfound.reached other hother).imp_right fun ⟨start, hstart, hreach⟩ =>
            ⟨start, List.mem_cons_of_mem _ hstart, hreach⟩
      next hnew =>
        have hless := edgesLeft_cons next (hstack node List.mem_cons_self) hnew
        have hpushed : ∀ other ∈ (next node).reverse ++ stack, other ∈ nodes := by
          intro other hother
          rcases List.mem_append.mp hother with hchild | hother
          · exact hnodes node other (List.mem_reverse.mp hchild)
          · exact hrest other hother
        have hroom : ((next node).reverse ++ stack).length +
            edgesLeft next nodes (node :: seen) ≤ fuel := by
          rw [List.length_append, List.length_reverse]
          omega
        have hfound := ih hpushed hroom
        refine ⟨?_, ?_, ?_, ?_⟩
        · exact fun other hother => hfound.kept other (List.mem_cons_of_mem _ hother)
        · intro other hother
          rcases List.mem_cons.mp hother with rfl | hother
          · exact hfound.kept _ List.mem_cons_self
          · exact hfound.started _ (List.mem_append_right _ hother)
        · intro other hother hnot child hchild
          by_cases heq : other = node
          · subst heq
            exact hfound.started child (List.mem_append_left _ (List.mem_reverse.mpr hchild))
          · refine hfound.closed other hother ?_ child hchild
            rw [List.mem_cons, not_or]
            exact ⟨heq, hnot⟩
        · intro other hother
          rcases hfound.reached other hother with hin | ⟨start, hstart, hreach⟩
          · rcases List.mem_cons.mp hin with rfl | hin
            · exact .inr ⟨_, List.mem_cons_self, .refl⟩
            · exact .inl hin
          · rcases List.mem_append.mp hstart with hchild | hstart
            · exact .inr ⟨node, List.mem_cons_self, .head (List.mem_reverse.mp hchild) hreach⟩
            · exact .inr ⟨start, List.mem_cons_of_mem _ hstart, hreach⟩

end DjangoMojo.Foundation
