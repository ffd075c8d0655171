import AvlCollections.Tree.Erase
import AvlCollections.Proofs.Tree.Height

/-! # Removal

Removing the node at a path takes its element out of the in-order list and frees one slot:
the node's own slot, or, for a node with two children, the slot of its in-order successor,
whose element moves up into the removed node. Removal keeps `Avl`, and the tree shrinks by at
most one level.
-/

namespace AvlCollections

namespace Tree

variable {α : Type}

/-- A step of `eraseMin` below the top: the smallest node goes from the left subtree, which
is then rebalanced with the top. -/
theorem eraseMin_node_eq {ll lr r t' : Tree α} {ls : Nat} {lv : α} {lh s : Nat} {v : α}
    {ms : Nat} {mv : α} (h : eraseMin (node ll ls lv lh lr) s v r = (ms, mv, t')) :
    ∃ l', eraseMin ll ls lv lr = (ms, mv, l') ∧ t' = balance l' s v r := by
  rw [eraseMin] at h
  split at h
  · next ms' mv' l' hm =>
    simp only [Prod.mk.injEq] at h
    obtain ⟨rfl, rfl, rfl⟩ := h
    exact ⟨l', hm, rfl⟩

/-- The smallest node comes first in order; the rest keeps its order. -/
theorem nodes_eraseMin {l r t' : Tree α} {s : Nat} {v : α} {ms : Nat} {mv : α}
    (h : eraseMin l s v r = (ms, mv, t')) : (ms, mv) :: t'.nodes = l.nodes ++ (s, v) :: r.nodes := by
  induction l generalizing s v r t' with
  | nil =>
    simp only [eraseMin, Prod.mk.injEq] at h
    obtain ⟨rfl, rfl, rfl⟩ := h
    rfl
  | node ll ls lv lh lr ihl _ =>
    obtain ⟨l', hm, rfl⟩ := eraseMin_node_eq h
    simp [← ihl hm]

/-- Removing the smallest node keeps `Avl` and shrinks the tree by at most one level. -/
theorem avl_eraseMin {l r t' : Tree α} {s : Nat} {v : α} {hh ms : Nat} {mv : α}
    (ht : (node l s v hh r).Avl) (h : eraseMin l s v r = (ms, mv, t')) :
    t'.Avl ∧ hh ≤ t'.height + 1 ∧ t'.height ≤ hh := by
  induction l generalizing s v hh r t' with
  | nil =>
    simp only [eraseMin, Prod.mk.injEq] at h
    obtain ⟨rfl, rfl, rfl⟩ := h
    obtain ⟨-, hr, rfl, -, h₂⟩ := ht
    simp only [height_nil] at h₂ ⊢
    exact ⟨hr, by omega, by omega⟩
  | node ll ls lv lh lr ihl _ =>
    obtain ⟨l', hm, rfl⟩ := eraseMin_node_eq h
    obtain ⟨avl, lo, hi⟩ := ihl ht.left hm
    exact avl_balance_left_shrunk ht avl (by simpa using lo) (by simpa using hi)

/-- How the top of a tree is removed: with at most one child that child takes its place;
with two, the smallest node of the right subtree gives its element to the top and goes. -/
theorem eraseTop_eq {l r t' : Tree α} {s freed : Nat} (h : eraseTop l s r = (freed, t')) :
    (l = nil ∧ freed = s ∧ t' = r) ∨ (r = nil ∧ freed = s ∧ t' = l) ∨
      ∃ rl rs rv rh rr mv r', r = node rl rs rv rh rr ∧ eraseMin rl rs rv rr = (freed, mv, r') ∧
        t' = balance l s mv r' := by
  cases l with
  | nil =>
    simp only [eraseTop, Prod.mk.injEq] at h
    exact .inl ⟨rfl, h.1.symm, h.2.symm⟩
  | node ll ls lv lh lr =>
    cases r with
    | nil =>
      simp only [eraseTop, Prod.mk.injEq] at h
      exact .inr (.inl ⟨rfl, h.1.symm, h.2.symm⟩)
    | node rl rs rv rh rr =>
      simp only [eraseTop, Prod.mk.injEq] at h
      obtain ⟨rfl, rfl⟩ := h
      exact .inr (.inr ⟨rl, rs, rv, rh, rr, _, _, rfl, rfl, rfl⟩)

theorem toList_eraseTop {l r t' : Tree α} {s freed : Nat} (h : eraseTop l s r = (freed, t')) :
    t'.toList = l.toList ++ r.toList := by
  rcases eraseTop_eq h with ⟨rfl, -, rfl⟩ | ⟨rfl, -, rfl⟩ | ⟨rl, rs, rv, rh, rr, mv, r', rfl, hm, rfl⟩
  · simp
  · simp
  · have hn := congrArg (List.map Prod.snd) (nodes_eraseMin hm)
    simp only [List.map_cons, List.map_append] at hn
    simp only [toList_eq_map_nodes, nodes_balance, nodes_node, List.map_append, List.map_cons,
      ← hn]

/-- The freed slot is the top's, or the slot of the top's in-order successor. -/
theorem slots_eraseTop {l r t' : Tree α} {s freed : Nat} (h : eraseTop l s r = (freed, t')) :
    ∃ as bs, l.slots ++ s :: r.slots = as ++ freed :: bs ∧ t'.slots = as ++ bs := by
  rcases eraseTop_eq h with ⟨rfl, rfl, ht'⟩ | ⟨rfl, rfl, ht'⟩ |
    ⟨rl, rs, rv, rh, rr, mv, r', rfl, hm, rfl⟩
  · exact ⟨[], r.slots, by simp, by simp [ht']⟩
  · exact ⟨l.slots, [], by simp, by simp [ht']⟩
  · have hn := congrArg (List.map Prod.fst) (nodes_eraseMin hm)
    simp only [List.map_cons, List.map_append] at hn
    refine ⟨l.slots ++ [s], r'.slots, ?_, by simp⟩
    simp only [slots_eq_map_nodes, nodes_node, List.map_append, List.map_cons, ← hn]
    simp

/-- Removing the top keeps `Avl` and shrinks the tree by at most one level. -/
theorem avl_eraseTop {l r t' : Tree α} {s : Nat} {v : α} {hh freed : Nat}
    (ht : (node l s v hh r).Avl) (h : eraseTop l s r = (freed, t')) :
    t'.Avl ∧ hh ≤ t'.height + 1 ∧ t'.height ≤ hh := by
  rcases eraseTop_eq h with ⟨rfl, -, rfl⟩ | ⟨rfl, -, rfl⟩ |
    ⟨rl, rs, rv, rh, rr, mv, r', rfl, hm, rfl⟩
  · obtain ⟨-, hr, rfl, -, h₂⟩ := ht
    simp only [height_nil] at h₂ ⊢
    exact ⟨hr, by omega, by omega⟩
  · obtain ⟨hl, -, rfl, h₁, -⟩ := ht
    simp only [height_nil] at h₁ ⊢
    exact ⟨hl, by omega, by omega⟩
  · -- the right subtree loses its smallest node and the top is rebalanced
    obtain ⟨avl, lo, hi⟩ := avl_eraseMin ht.right hm
    have ht' : (node l s mv hh (node rl rs rv rh rr)).Avl := ht
    exact avl_balance_right_shrunk ht' avl (by simpa using lo) (by simpa using hi)

/-- A step of `eraseAt`: the top goes, or the removal happens in one subtree, which is then
rebalanced with the top. -/
theorem eraseAt_node_eq {l r t' : Tree α} {s : Nat} {v : α} {hh : Nat} {p : Path} {x : α}
    {freed : Nat} (h : (node l s v hh r).eraseAt p = some (x, freed, t')) :
    (p = [] ∧ x = v ∧ eraseTop l s r = (freed, t')) ∨
      (∃ q l', p = .left :: q ∧ l.eraseAt q = some (x, freed, l') ∧ t' = balance l' s v r) ∨
      ∃ q r', p = .right :: q ∧ r.eraseAt q = some (x, freed, r') ∧ t' = balance l s v r' := by
  match p with
  | [] =>
    rw [eraseAt] at h
    split at h
    · next freed' t'' ht =>
      simp only [Option.some.injEq, Prod.mk.injEq] at h
      obtain ⟨rfl, rfl, rfl⟩ := h
      exact .inl ⟨rfl, rfl, ht⟩
  | .left :: q =>
    simp only [eraseAt, Option.map_eq_some_iff, Prod.exists, Prod.mk.injEq] at h
    obtain ⟨x', freed', l', hl, rfl, rfl, rfl⟩ := h
    exact .inr (.inl ⟨q, l', rfl, hl, rfl⟩)
  | .right :: q =>
    simp only [eraseAt, Option.map_eq_some_iff, Prod.exists, Prod.mk.injEq] at h
    obtain ⟨x', freed', r', hr, rfl, rfl, rfl⟩ := h
    exact .inr (.inr ⟨q, r', rfl, hr, rfl⟩)

/-- The removed element is the one at the path. -/
theorem nodeAt?_of_eraseAt {t t' : Tree α} {p : Path} {x : α} {freed : Nat}
    (h : t.eraseAt p = some (x, freed, t')) : ∃ n, t.nodeAt? p = some (n, x) := by
  induction t generalizing p t' with
  | nil => simp [eraseAt] at h
  | node l s v hh r ihl ihr =>
    rcases eraseAt_node_eq h with ⟨rfl, rfl, -⟩ | ⟨q, l', rfl, hl, -⟩ | ⟨q, r', rfl, hr, -⟩
    · exact ⟨s, rfl⟩
    · exact ihl hl
    · exact ihr hr

/-- Removal succeeds exactly on a path that reaches a node. -/
theorem isSome_eraseAt (t : Tree α) (p : Path) :
    (t.eraseAt p).isSome = (t.nodeAt? p).isSome := by
  induction t generalizing p with
  | nil => simp [eraseAt]
  | node l s v hh r ihl ihr =>
    match p with
    | [] => simp [eraseAt]
    | .left :: q => simp [eraseAt, ihl]
    | .right :: q => simp [eraseAt, ihr]

/-- Removal at a path that reaches a node succeeds and returns that node's element. -/
theorem eraseAt_of_nodeAt? {t : Tree α} {p : Path} {n : Nat} {v : α}
    (h : t.nodeAt? p = some (n, v)) : ∃ freed t', t.eraseAt p = some (v, freed, t') := by
  have hsome : (t.eraseAt p).isSome := by rw [isSome_eraseAt, h]; rfl
  obtain ⟨⟨v', freed, t'⟩, he⟩ := Option.isSome_iff_exists.1 hsome
  obtain ⟨n', hn'⟩ := nodeAt?_of_eraseAt he
  rw [h] at hn'
  cases hn'
  exact ⟨freed, t', he⟩

/-- Removal takes the removed element out of the in-order list. -/
theorem toList_eraseAt {t t' : Tree α} {p : Path} {x : α} {freed : Nat}
    (h : t.eraseAt p = some (x, freed, t')) :
    ∃ as bs, t.toList = as ++ x :: bs ∧ t'.toList = as ++ bs := by
  induction t generalizing p t' with
  | nil => simp [eraseAt] at h
  | node l s v hh r ihl ihr =>
    rcases eraseAt_node_eq h with ⟨rfl, rfl, ht⟩ | ⟨q, l', rfl, hl, rfl⟩ | ⟨q, r', rfl, hr, rfl⟩
    · exact ⟨l.toList, r.toList, rfl, toList_eraseTop ht⟩
    · obtain ⟨as, bs, hb, ha⟩ := ihl hl
      exact ⟨as, bs ++ v :: r.toList, by simp [hb], by simp [ha]⟩
    · obtain ⟨as, bs, hb, ha⟩ := ihr hr
      exact ⟨l.toList ++ v :: as, bs, by simp [hb], by simp [ha]⟩

/-- Removal takes one node away. -/
theorem size_eraseAt {t t' : Tree α} {p : Path} {x : α} {freed : Nat}
    (h : t.eraseAt p = some (x, freed, t')) : t'.size + 1 = t.size := by
  obtain ⟨as, bs, hb, ha⟩ := toList_eraseAt h
  have hlen := congrArg List.length hb
  have hlen' := congrArg List.length ha
  simp only [length_toList, List.length_append, List.length_cons] at hlen hlen'
  omega

/-- Removal takes the freed slot out of the slot list. -/
theorem slots_eraseAt {t t' : Tree α} {p : Path} {x : α} {freed : Nat}
    (h : t.eraseAt p = some (x, freed, t')) :
    ∃ as bs, t.slots = as ++ freed :: bs ∧ t'.slots = as ++ bs := by
  induction t generalizing p t' with
  | nil => simp [eraseAt] at h
  | node l s v hh r ihl ihr =>
    rcases eraseAt_node_eq h with ⟨rfl, rfl, ht⟩ | ⟨q, l', rfl, hl, rfl⟩ | ⟨q, r', rfl, hr, rfl⟩
    · exact slots_eraseTop ht
    · obtain ⟨as, bs, hb, ha⟩ := ihl hl
      exact ⟨as, bs ++ s :: r.slots, by simp [hb], by simp [ha]⟩
    · obtain ⟨as, bs, hb, ha⟩ := ihr hr
      exact ⟨l.slots ++ s :: as, bs, by simp [hb], by simp [ha]⟩

/-- Removal keeps `Avl` and shrinks the tree by at most one level. -/
theorem avl_eraseAt {t t' : Tree α} {p : Path} {x : α} {freed : Nat} (ht : t.Avl)
    (h : t.eraseAt p = some (x, freed, t')) :
    t'.Avl ∧ t.height ≤ t'.height + 1 ∧ t'.height ≤ t.height := by
  induction t generalizing p t' with
  | nil => simp [eraseAt] at h
  | node l s v hh r ihl ihr =>
    rcases eraseAt_node_eq h with ⟨rfl, rfl, htop⟩ | ⟨q, l', rfl, hl, rfl⟩ | ⟨q, r', rfl, hr, rfl⟩
    · exact avl_eraseTop ht htop
    · obtain ⟨avl, lo, hi⟩ := ihl ht.left hl
      exact avl_balance_left_shrunk ht avl lo hi
    · obtain ⟨avl, lo, hi⟩ := ihr ht.right hr
      exact avl_balance_right_shrunk ht avl lo hi

end Tree

end AvlCollections
