import AvlCollections.Tree.Insert
import AvlCollections.Proofs.Tree.Height
import AvlCollections.Proofs.Ascending

/-! # Insertion

Insertion follows the comparator down one path. On a tree whose elements ascend it either
stops at the one stored element that is equivalent to the new one, or adds a node for the new
element between the smaller and the larger ones. It keeps `Avl`, and the tree grows by at
most one level.
-/

namespace AvlCollections

namespace Tree

variable {α : Type} {cmp : α → α → Ordering}

/-- What a step of insertion that added a node did at the top: it went left or right and
rebalanced there. -/
theorem insert_eq_added {l r t' : Tree α} {s : Nat} {v : α} {h : Nat} {x : α} {slot : Nat}
    (ins : (node l s v h r).insert cmp x slot = .added t') :
    (cmp x v = .lt ∧ ∃ l', l.insert cmp x slot = .added l' ∧ t' = balance l' s v r) ∨
      (cmp x v = .gt ∧ ∃ r', r.insert cmp x slot = .added r' ∧ t' = balance l s v r') := by
  rw [insert] at ins
  split at ins
  · next hc =>
    split at ins
    · next l' hl =>
      cases ins
      exact .inl ⟨hc, l', hl, rfl⟩
    · cases ins
  · next hc =>
    split at ins
    · next r' hr =>
      cases ins
      exact .inr ⟨hc, r', hr, rfl⟩
    · cases ins
  · cases ins

/-- What a step of insertion that found an equivalent element did at the top. -/
theorem insert_eq_occupied {l r : Tree α} {s : Nat} {v : α} {h : Nat} {x : α} {slot n : Nat}
    {p : Path} (ins : (node l s v h r).insert cmp x slot = .occupied n p) :
    (cmp x v = .lt ∧ ∃ q, l.insert cmp x slot = .occupied n q ∧ p = .left :: q) ∨
      (cmp x v = .gt ∧ ∃ q, r.insert cmp x slot = .occupied n q ∧ p = .right :: q) ∨
      (cmp x v = .eq ∧ n = s ∧ p = []) := by
  rw [insert] at ins
  split at ins
  · next hc =>
    split at ins
    · cases ins
    · next n' q hl =>
      cases ins
      exact .inl ⟨hc, q, hl, rfl⟩
  · next hc =>
    split at ins
    · cases ins
    · next n' q hr =>
      cases ins
      exact .inr (.inl ⟨hc, q, hr, rfl⟩)
  · next hc =>
    cases ins
    exact .inr (.inr ⟨hc, rfl, rfl⟩)

/-- Insertion keeps `Avl` and grows the tree by at most one level. -/
theorem avl_insert {t t' : Tree α} {x : α} {slot : Nat} (ht : t.Avl)
    (ins : t.insert cmp x slot = .added t') :
    t'.Avl ∧ t.height ≤ t'.height ∧ t'.height ≤ t.height + 1 := by
  induction t generalizing t' with
  | nil =>
    cases ins
    exact ⟨avl_branch slot x avl_nil avl_nil (by simp) (by simp), by simp, by simp [leaf]⟩
  | node l s v h r ihl ihr =>
    rcases insert_eq_added ins with ⟨-, l', hl, rfl⟩ | ⟨-, r', hr, rfl⟩
    · obtain ⟨avl, lo, hi⟩ := ihl ht.left hl
      exact avl_balance_left_grown ht avl lo hi
    · obtain ⟨avl, lo, hi⟩ := ihr ht.right hr
      exact avl_balance_right_grown ht avl lo hi

/-- A new node adds one to the size and its slot to the slots. -/
theorem size_insert {t t' : Tree α} {x : α} {slot : Nat} (ins : t.insert cmp x slot = .added t') :
    t'.size = t.size + 1 ∧ slot ∈ t'.slots := by
  induction t generalizing t' with
  | nil =>
    cases ins
    simp [leaf, size]
  | node l s v h r ihl ihr =>
    rcases insert_eq_added ins with ⟨-, l', hl, rfl⟩ | ⟨-, r', hr, rfl⟩
    · obtain ⟨hsize, hslot⟩ := ihl hl
      refine ⟨?_, by simp [hslot]⟩
      simp only [size_balance, size, hsize]
      omega
    · obtain ⟨hsize, hslot⟩ := ihr hr
      refine ⟨?_, by simp [hslot]⟩
      simp only [size_balance, size, hsize]
      omega

/-- The path that insertion returns on finding an equivalent element leads to it. -/
theorem nodeAt?_of_insert_occupied {t : Tree α} {x : α} {slot n : Nat} {p : Path}
    (ins : t.insert cmp x slot = .occupied n p) :
    ∃ v, t.nodeAt? p = some (n, v) ∧ cmp x v = .eq := by
  induction t generalizing p with
  | nil => cases ins
  | node l s v h r ihl ihr =>
    rcases insert_eq_occupied ins with ⟨-, q, hl, rfl⟩ | ⟨-, q, hr, rfl⟩ | ⟨hc, rfl, rfl⟩
    · exact ihl hl
    · exact ihr hr
    · exact ⟨v, rfl, hc⟩

variable [Std.TransCmp cmp]

/-- On a tree whose elements ascend, insertion puts the new node after the smaller elements
and before the larger ones. -/
theorem nodes_insert {t t' : Tree α} {x : α} {slot : Nat} (ht : Ascending cmp t.toList)
    (ins : t.insert cmp x slot = .added t') :
    ∃ xs ys, t.nodes = xs ++ ys ∧ t'.nodes = xs ++ (slot, x) :: ys ∧
      (∀ e ∈ xs, cmp e.2 x = .lt) ∧ ∀ e ∈ ys, cmp x e.2 = .lt := by
  induction t generalizing t' with
  | nil =>
    cases ins
    exact ⟨[], [], by simp, by simp [leaf], by simp, by simp⟩
  | node l s v h r ihl ihr =>
    obtain ⟨hasl, hasr, below, above⟩ := Ascending.append_cons_iff.1 ht
    rcases insert_eq_added ins with ⟨hc, l', hl, rfl⟩ | ⟨hc, r', hr, rfl⟩
    · -- the new node lands in the left subtree; `v` and the right subtree lie above it
      obtain ⟨xs, ys, hn, hn', lo, hi⟩ := ihl hasl hl
      refine ⟨xs, ys ++ (s, v) :: r.nodes, by simp [hn], by simp [hn'], lo, ?_⟩
      intro e he
      simp only [List.mem_append, List.mem_cons] at he
      rcases he with he | rfl | he
      · exact hi e he
      · exact hc
      · have hmem : e.2 ∈ r.toList := by
          rw [toList_eq_map_nodes]
          exact List.mem_map_of_mem he
        exact Std.TransCmp.lt_trans hc (above _ hmem)
    · -- the new node lands in the right subtree; the left subtree and `v` lie below it
      obtain ⟨xs, ys, hn, hn', lo, hi⟩ := ihr hasr hr
      refine ⟨l.nodes ++ (s, v) :: xs, ys, by simp [hn], by simp [hn'], ?_, hi⟩
      intro e he
      simp only [List.mem_append, List.mem_cons] at he
      rcases he with he | rfl | he
      · have hmem : e.2 ∈ l.toList := by
          rw [toList_eq_map_nodes]
          exact List.mem_map_of_mem he
        exact Std.TransCmp.lt_trans (below _ hmem) (Std.OrientedCmp.lt_of_gt hc)
      · exact Std.OrientedCmp.lt_of_gt hc
      · exact lo e he

/-- On a tree whose elements ascend, insertion adds a node exactly when no stored element is
equivalent to the new one. -/
theorem insert_added_iff {t : Tree α} {x : α} {slot : Nat} (ht : Ascending cmp t.toList) :
    (∃ t', t.insert cmp x slot = .added t') ↔ ∀ y ∈ t.toList, cmp x y ≠ .eq := by
  constructor
  · rintro ⟨t', ins⟩ y hy
    obtain ⟨xs, ys, hn, -, lo, hi⟩ := nodes_insert ht ins
    rw [toList_eq_map_nodes, hn] at hy
    simp only [List.map_append, List.mem_append, List.mem_map] at hy
    rcases hy with ⟨e, he, rfl⟩ | ⟨e, he, rfl⟩
    · simp [Std.OrientedCmp.gt_of_lt (lo e he)]
    · simp [hi e he]
  · intro none_eq
    cases ins : t.insert cmp x slot with
    | added t' => exact ⟨t', rfl⟩
    | occupied n p =>
      obtain ⟨v, hv, e⟩ := nodeAt?_of_insert_occupied ins
      exact absurd e (none_eq v (mem_toList_of_nodeAt? hv))

end Tree

end AvlCollections
