import AvlCollections.Tree.Walk
import AvlCollections.Proofs.Tree.Nodes

/-! # Walking a tree in order

`paths` lists the paths to the nodes from left to right, so that the `i`-th path reaches the
`i`-th node. The smallest node is at the left spine, the largest at the right spine, and
`nextPath?` takes the `i`-th path to the `(i + 1)`-th, or to nothing after the last: climbing
to the nearest ancestor reached from a left child is the step back up the recursion of
`paths`.
-/

namespace AvlCollections

namespace Path

/-- Climbing from a path one step longer: the nearest such ancestor is found below the first
step, or it is the top when the first step was taken from the side sought. -/
theorem climbFrom?_cons (d e : Dir) (q : Path) :
    Path.climbFrom? d (e :: q) =
      match q.climbFrom? d with
      | some w => some (e :: w)
      | none => if e = d then some [] else none := by
  unfold climbFrom?
  rw [List.reverse_cons, List.dropWhile_append]
  cases hq : q.reverse.dropWhile (· ≠ d) with
  | nil =>
    by_cases hed : e = d
    · simp [hed]
    · simp [hed]
  | cons a w => simp

end Path

namespace Tree

variable {α : Type}

/-- The paths to the nodes, in order. -/
def paths : Tree α → List Path
  | nil => []
  | node l _ _ _ r => l.paths.map (.left :: ·) ++ [] :: r.paths.map (.right :: ·)

@[simp] theorem paths_nil : (nil : Tree α).paths = [] := rfl

@[simp] theorem paths_node (l : Tree α) (s : Nat) (v : α) (h : Nat) (r : Tree α) :
    (node l s v h r).paths = l.paths.map (.left :: ·) ++ [] :: r.paths.map (.right :: ·) := rfl

theorem length_paths (t : Tree α) : t.paths.length = t.nodes.length := by
  induction t with
  | nil => rfl
  | node l s v h r ihl ihr => simp [ihl, ihr]

/-- The `i`-th path reaches the `i`-th node. -/
theorem nodeAt?_getElem_paths (t : Tree α) (i : Nat) (hi : i < t.paths.length) :
    t.nodeAt? t.paths[i] = t.nodes[i]? := by
  induction t generalizing i with
  | nil => simp at hi
  | node l s v h r ihl ihr =>
    have hl := length_paths l
    simp only [paths_node, nodes_node]
    rcases Nat.lt_or_ge i l.paths.length with hi' | hi'
    · rw [List.getElem_append_left (by simpa using hi'), List.getElem_map,
        List.getElem?_append_left (by omega), nodeAt?_node_left, ihl i hi']
    · rw [List.getElem_append_right (by simpa using hi'), List.getElem?_append_right (by omega)]
      simp only [List.length_map]
      rcases Nat.eq_or_lt_of_le hi' with heq | hlt
      · simp [← heq, hl]
      · obtain ⟨j, rfl⟩ : ∃ j, i = l.paths.length + 1 + j := ⟨i - l.paths.length - 1, by omega⟩
        have hj : j < r.paths.length := by simp at hi; omega
        simp only [show l.paths.length + 1 + j - l.paths.length = j + 1 by omega,
          show l.paths.length + 1 + j - l.nodes.length = j + 1 by omega,
          List.getElem_cons_succ, List.getElem?_cons_succ, List.getElem_map, nodeAt?_node_right]
        exact ihr j hj

theorem firstPath?_node (l : Tree α) (s : Nat) (v : α) (h : Nat) (r : Tree α) :
    (node l s v h r).firstPath? = some ((l.firstPath?).elim [] (.left :: ·)) := by
  cases l <;> simp [firstPath?, leftSpine]

theorem lastPath?_node (l : Tree α) (s : Nat) (v : α) (h : Nat) (r : Tree α) :
    (node l s v h r).lastPath? = some ((r.lastPath?).elim [] (.right :: ·)) := by
  cases r <;> simp [lastPath?, rightSpine]

/-- The left spine leads to the first node. -/
theorem head?_paths (t : Tree α) : t.paths.head? = t.firstPath? := by
  induction t with
  | nil => rfl
  | node l s v h r ihl _ =>
    rw [firstPath?_node, ← ihl]
    cases hp : l.paths <;> simp [hp]

/-- The right spine leads to the last node. -/
theorem getLast?_paths (t : Tree α) : t.paths.getLast? = t.lastPath? := by
  induction t with
  | nil => rfl
  | node l s v h r _ ihr =>
    rw [lastPath?_node, ← ihr, paths_node, List.getLast?_append, List.getLast?_cons]
    cases hr : r.paths.getLast? <;> simp [List.getLast?_map, hr]

/-- From the top, the successor is the first node of the right subtree. -/
theorem nextPath?_node_nil (l : Tree α) (s : Nat) (v : α) (h : Nat) (r : Tree α) :
    (node l s v h r).nextPath? [] = (r.firstPath?).map (.right :: ·) := by
  cases r <;> simp [nextPath?, firstPath?, subtree, Path.climbFrom?]

/-- In the left subtree the successor is the subtree's own, or the top after its last node. -/
theorem nextPath?_node_left (l : Tree α) (s : Nat) (v : α) (h : Nat) (r : Tree α) (q : Path) :
    (node l s v h r).nextPath? (.left :: q) =
      some ((l.nextPath? q).elim [] (.left :: ·)) := by
  simp only [nextPath?, subtree]
  split
  · simp
  · rw [Path.climbFrom?_cons]
    split <;> simp_all

/-- In the right subtree the successor is the subtree's own, or nothing after its last
node. -/
theorem nextPath?_node_right (l : Tree α) (s : Nat) (v : α) (h : Nat) (r : Tree α) (q : Path) :
    (node l s v h r).nextPath? (.right :: q) = (r.nextPath? q).map (.right :: ·) := by
  simp only [nextPath?, subtree]
  split
  · simp
  · rw [Path.climbFrom?_cons]
    split <;> simp_all

/-- The successor of the `i`-th node is the `(i + 1)`-th, and the last node has none. -/
theorem nextPath?_getElem_paths (t : Tree α) (i : Nat) (hi : i < t.paths.length) :
    t.nextPath? t.paths[i] = t.paths[i + 1]? := by
  induction t generalizing i with
  | nil => simp at hi
  | node l s v h r ihl ihr =>
    simp only [paths_node]
    rcases Nat.lt_or_ge i l.paths.length with hi' | hi'
    · -- inside the left subtree: its own successor, or the top after its last node
      rw [List.getElem_append_left (by simpa using hi'), List.getElem_map, nextPath?_node_left,
        ihl i hi']
      rcases Nat.lt_or_ge (i + 1) l.paths.length with hn | hn
      · rw [List.getElem?_append_left (by simpa using hn), List.getElem?_eq_getElem hn]
        simp [List.getElem?_map, List.getElem?_eq_getElem hn]
      · have : i + 1 = l.paths.length := by omega
        rw [List.getElem?_append_right (by simp; omega), List.getElem?_eq_none (by omega)]
        simp [this]
    · rw [List.getElem_append_right (by simpa using hi')]
      simp only [List.length_map]
      rcases Nat.eq_or_lt_of_le hi' with heq | hlt
      · -- the top: the first node of the right subtree comes next
        subst heq
        rw [List.getElem?_append_right (by simp)]
        simp only [Nat.sub_self, List.getElem_cons_zero, List.length_map,
          Nat.add_sub_cancel_left, List.getElem?_cons_succ, List.getElem?_map, nextPath?_node_nil]
        rw [← head?_paths, List.head?_eq_getElem?]
      · -- inside the right subtree
        obtain ⟨j, rfl⟩ : ∃ j, i = l.paths.length + 1 + j := ⟨i - l.paths.length - 1, by omega⟩
        have hj : j < r.paths.length := by simp at hi; omega
        rw [List.getElem?_append_right (by simp; omega)]
        simp only [show l.paths.length + 1 + j - l.paths.length = j + 1 by omega,
          List.getElem_cons_succ, List.getElem_map, nextPath?_node_right, ihr j hj,
          List.length_map, show l.paths.length + 1 + j + 1 - l.paths.length = j + 2 by omega,
          List.getElem?_cons_succ, List.getElem?_map]

/-- From the top, the predecessor is the last node of the left subtree. -/
theorem prevPath?_node_nil (l : Tree α) (s : Nat) (v : α) (h : Nat) (r : Tree α) :
    (node l s v h r).prevPath? [] = (l.lastPath?).map (.left :: ·) := by
  cases l <;> simp [prevPath?, lastPath?, subtree, Path.climbFrom?]

/-- In the right subtree the predecessor is the subtree's own, or the top before its first
node. -/
theorem prevPath?_node_right (l : Tree α) (s : Nat) (v : α) (h : Nat) (r : Tree α) (q : Path) :
    (node l s v h r).prevPath? (.right :: q) =
      some ((r.prevPath? q).elim [] (.right :: ·)) := by
  simp only [prevPath?, subtree]
  split
  · simp
  · rw [Path.climbFrom?_cons]
    split <;> simp_all

/-- In the left subtree the predecessor is the subtree's own, or nothing before its first
node. -/
theorem prevPath?_node_left (l : Tree α) (s : Nat) (v : α) (h : Nat) (r : Tree α) (q : Path) :
    (node l s v h r).prevPath? (.left :: q) = (l.prevPath? q).map (.left :: ·) := by
  simp only [prevPath?, subtree]
  split
  · simp
  · rw [Path.climbFrom?_cons]
    split <;> simp_all

/-- The predecessor of the `i`-th node is the `(i - 1)`-th, and the first node has none. -/
theorem prevPath?_getElem_paths (t : Tree α) (i : Nat) (hi : i < t.paths.length) :
    t.prevPath? t.paths[i] = if i = 0 then none else t.paths[i - 1]? := by
  induction t generalizing i with
  | nil => simp at hi
  | node l s v h r ihl ihr =>
    simp only [paths_node]
    rcases Nat.lt_or_ge i l.paths.length with hi' | hi'
    · -- inside the left subtree: its own predecessor, or nothing before its first node
      rw [List.getElem_append_left (by simpa using hi'), List.getElem_map, prevPath?_node_left,
        ihl i hi']
      split
      · rfl
      · rw [List.getElem?_append_left (by simp; omega), List.getElem?_map]
    · rw [List.getElem_append_right (by simpa using hi')]
      simp only [List.length_map]
      rcases Nat.eq_or_lt_of_le hi' with heq | hlt
      · -- the top: the last node of the left subtree comes before
        subst heq
        simp only [Nat.sub_self, List.getElem_cons_zero, prevPath?_node_nil, ← getLast?_paths]
        rcases Nat.eq_zero_or_pos l.paths.length with h0 | hpos
        · simp [List.length_eq_zero_iff.1 h0]
        · rw [if_neg (by omega), List.getElem?_append_left (by simp; omega),
            List.getLast?_eq_getElem?, List.getElem?_map]
      · -- inside the right subtree: its own predecessor, or the top before its first node
        obtain ⟨j, rfl⟩ : ∃ j, i = l.paths.length + 1 + j := ⟨i - l.paths.length - 1, by omega⟩
        have hj : j < r.paths.length := by simp at hi; omega
        rw [if_neg (show l.paths.length + 1 + j ≠ 0 by omega),
          List.getElem?_append_right (by simp)]
        simp only [show l.paths.length + 1 + j - l.paths.length = j + 1 by omega,
          List.getElem_cons_succ, List.getElem_map, prevPath?_node_right, ihr j hj,
          List.length_map]
        rcases j with _ | j
        · simp
        · simp [show l.paths.length + 1 + j - l.paths.length = j + 1 by omega,
            List.getElem?_map, List.getElem?_eq_getElem (show j < r.paths.length by omega)]

end Tree

end AvlCollections
