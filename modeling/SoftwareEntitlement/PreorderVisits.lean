import Mathlib.Data.List.Forall2
import Mathlib.Data.List.Lex

/-!
# Visits in pre-order

A tree is given by a root and the list of branches of each node.  The address
of a node lists the numbers of the branches which lead to it from the root: its
length is the level of the node, and the lexicographic order of addresses puts
a node before what is below it, and what is below one branch before what is
below the next.

A recursion which visits a node, and then goes down its branches one level
deeper, makes the visits of the whole tree in this order.
-/

namespace Branching

variable {Node : Type*} (branches : Node → List Node)

/-- The node at an address, below the given one. -/
def nodeAt : List ℕ → Node → Option Node
  | [], node => some node
  | number :: address, node =>
      (branches node)[number]?.bind (nodeAt address)

/-- The addresses of all nodes with the nodes, each once and in pre-order. -/
structure InPreorder (root : Node) (visits : List (List ℕ × Node)) :
    Prop where
  mem_iff : ∀ address node, (address, node) ∈ visits ↔
    nodeAt branches address root = some node
  ordered : visits.Pairwise fun earlier later => earlier.1 < later.1

/-- The visits below several branches, numbered from the given number on. -/
def below : ℕ → List (List (List ℕ × Node)) → List (List ℕ × Node)
  | _, [] => []
  | number, visits :: rest =>
      visits.map (fun visit => (number :: visit.1, visit.2)) ++
        below (number + 1) rest

variable {branches} {root : Node}

theorem InPreorder.unique {visits visits' : List (List ℕ × Node)}
    (hvisits : InPreorder branches root visits)
    (hvisits' : InPreorder branches root visits') : visits = visits' := by
  have hnodup : ∀ {visits : List (List ℕ × Node)},
      InPreorder branches root visits → visits.Nodup := by
    intro visits hvisits
    refine hvisits.ordered.imp fun {earlier later} hlt heq => ?_
    exact lt_irrefl _ (heq ▸ hlt)
  have hperm : visits.Perm visits' := by
    refine (List.perm_ext_iff_of_nodup (hnodup hvisits)
      (hnodup hvisits')).mpr fun visit => ?_
    exact (hvisits.mem_iff visit.1 visit.2).trans
      (hvisits'.mem_iff visit.1 visit.2).symm
  refine hperm.eq_of_pairwise (fun visit other _ _ hlt hgt => ?_)
    hvisits.ordered hvisits'.ordered
  exact absurd hgt (lt_asymm hlt)

section Below

variable {nodes : List Node} {visits : List (List (List ℕ × Node))}
  {number : ℕ}

theorem mem_below_iff (hvisits : List.Forall₂ (InPreorder branches) nodes visits)
    {address : List ℕ} {node : Node} :
    (address, node) ∈ below number visits ↔
      ∃ branch rest, address = (number + branch) :: rest ∧
        nodes[branch]?.bind (nodeAt branches rest) = some node := by
  induction hvisits generalizing number with
  | nil => simp [below]
  | @cons child first children others hfirst hothers ih =>
      rw [below, List.mem_append, ih, List.mem_map]
      constructor
      · rintro (⟨⟨rest, found⟩, hmem, heq⟩ | ⟨branch, rest, rfl, hfound⟩)
        · cases heq
          exact ⟨0, rest, rfl, (hfirst.mem_iff rest found).mp hmem⟩
        · refine ⟨branch + 1, rest, ?_, hfound⟩
          rw [Nat.add_right_comm, Nat.add_assoc]
      · rintro ⟨branch, rest, rfl, hfound⟩
        cases branch with
        | zero =>
            left
            exact ⟨(rest, node), (hfirst.mem_iff rest node).mpr hfound, rfl⟩
        | succ branch =>
            right
            refine ⟨branch, rest, ?_, hfound⟩
            rw [Nat.add_right_comm, Nat.add_assoc]

theorem pairwise_below
    (hvisits : List.Forall₂ (InPreorder branches) nodes visits) :
    (below number visits).Pairwise fun earlier later =>
      earlier.1 < later.1 := by
  induction hvisits generalizing number with
  | nil => exact List.Pairwise.nil
  | @cons child first children others hfirst hothers ih =>
      rw [below, List.pairwise_append]
      refine ⟨?_, ih, ?_⟩
      · rw [List.pairwise_map]
        exact hfirst.ordered.imp fun {earlier later} hlt => by simpa using hlt
      · rintro visit hvisit ⟨address, node⟩ hlater
        obtain ⟨⟨rest, found⟩, -, rfl⟩ := List.mem_map.mp hvisit
        obtain ⟨branch, rest', rfl, -⟩ := (mem_below_iff hothers).mp hlater
        rw [List.cons_lt_cons_iff]
        left
        omega

/-- The visits of a tree are the root and the visits below its branches. -/
theorem InPreorder.node
    (hvisits : List.Forall₂ (InPreorder branches) (branches root) visits) :
    InPreorder branches root (([], root) :: below 0 visits) := by
  constructor
  · intro address node
    rw [List.mem_cons, mem_below_iff hvisits]
    cases address with
    | nil => simp [nodeAt, eq_comm]
    | cons number rest => simp [nodeAt]
  · rw [List.pairwise_cons]
    refine ⟨?_, pairwise_below hvisits⟩
    rintro ⟨address, node⟩ hvisit
    obtain ⟨branch, rest, rfl, -⟩ := (mem_below_iff hvisits).mp hvisit
    exact List.nil_lt_cons _ _

end Below

section FiniteTrees

theorem exists_forall₂ {nodes : List Node}
    (hexists : ∀ node ∈ nodes, ∃ visits, InPreorder branches node visits) :
    ∃ visits, List.Forall₂ (InPreorder branches) nodes visits := by
  induction nodes with
  | nil => exact ⟨[], List.Forall₂.nil⟩
  | cons node nodes ih =>
      obtain ⟨⟨first, hfirst⟩, hrest⟩ := List.forall_mem_cons.mp hexists
      obtain ⟨others, hothers⟩ := ih hrest
      exact ⟨first :: others, List.Forall₂.cons hfirst hothers⟩

theorem exists_inPreorder
    (hfinite : WellFounded fun child node => child ∈ branches node)
    (root : Node) : ∃ visits, InPreorder branches root visits := by
  induction root using hfinite.induction with
  | _ root ih =>
      obtain ⟨visits, hvisits⟩ := exists_forall₂ ih
      exact ⟨_, InPreorder.node hvisits⟩

variable {m : Type → Type} [Monad m] [LawfulMonad m]
  {visit walk : ℕ → Node → m Unit}

theorem forM_below {nodes : List Node}
    {visits : List (List (List ℕ × Node))} {level : ℕ} (number : ℕ)
    (hvisits : List.Forall₂ (InPreorder branches) nodes visits)
    (hwalk : ∀ node ∈ nodes, ∀ visits, InPreorder branches node visits →
      walk (level + 1) node = forM visits fun position =>
        visit (level + 1 + position.1.length) position.2) :
    forM nodes (walk (level + 1)) =
      forM (below number visits) fun position =>
        visit (level + position.1.length) position.2 := by
  induction hvisits generalizing number with
  | nil => rfl
  | @cons child first children others hfirst hothers ih =>
      obtain ⟨hchild, hchildren⟩ := List.forall_mem_cons.mp hwalk
      rw [List.forM_cons, hchild first hfirst, ih (number + 1) hchildren, below,
        List.forM_append, List.forM_map]
      simp only [List.length_cons, Nat.add_assoc, Nat.add_comm 1]

/-- A recursion of this form makes the visits of the tree in pre-order, each
at the level of its node. -/
theorem walk_eq_forM
    (hfinite : WellFounded fun child node => child ∈ branches node)
    (hwalk : ∀ level node, walk level node = do
      visit level node
      forM (branches node) (walk (level + 1)))
    {visits : List (List ℕ × Node)}
    (hvisits : InPreorder branches root visits) (level : ℕ) :
    walk level root = forM visits fun position =>
      visit (level + position.1.length) position.2 := by
  induction root using hfinite.induction generalizing visits level with
  | _ root ih =>
      obtain ⟨deeper, hdeeper⟩ :=
        exists_forall₂ fun node (_ : node ∈ branches root) =>
          exists_inPreorder hfinite node
      obtain rfl := hvisits.unique (InPreorder.node hdeeper)
      rw [hwalk, List.forM_cons]
      congr 1
      funext _
      exact forM_below 0 hdeeper fun node hnode visits hvisits =>
        ih node hnode hvisits (level + 1)

end FiniteTrees

end Branching
