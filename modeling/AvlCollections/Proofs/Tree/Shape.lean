import AvlCollections.Proofs.BTree
import AvlCollections.Proofs.Tree.Insert
import AvlCollections.Proofs.Tree.Erase

/-! # The shape of a tree follows the textbook algorithm

`toBTree` forgets the slots and the cached heights of a tree and keeps its elements and links.
On a tree whose cached heights are right and whose sides differ by at most one, `balance`
makes the rotation that the textbook `rebalance` makes, so insertion and removal build the
tree that the textbook algorithms build. The cached heights matter: `balance` compares them,
`rebalance` computes heights.
-/

namespace AvlCollections

namespace Tree

variable {α : Type}

/-- The elements and links of a tree, without slots and heights. -/
def toBTree : Tree α → BTree α
  | nil => .leaf
  | node l _ v _ r => .node l.toBTree v r.toBTree

@[simp] theorem toBTree_nil : (nil : Tree α).toBTree = .leaf := rfl

@[simp] theorem toBTree_node (l : Tree α) (s : Nat) (v : α) (h : Nat) (r : Tree α) :
    (node l s v h r).toBTree = .node l.toBTree v r.toBTree := rfl

@[simp] theorem toBTree_branch (l : Tree α) (s : Nat) (v : α) (r : Tree α) :
    (branch l s v r).toBTree = .node l.toBTree v r.toBTree := rfl

@[simp] theorem toBTree_rotateLeft (t : Tree α) : t.rotateLeft.toBTree = t.toBTree.rotL := by
  rcases t with _ | ⟨a, s, v, h, _ | ⟨b, rs, rv, rh, c⟩⟩ <;> rfl

@[simp] theorem toBTree_rotateRight (t : Tree α) : t.rotateRight.toBTree = t.toBTree.rotR := by
  rcases t with _ | ⟨_ | ⟨a, ls, lv, lh, b⟩, s, v, h, c⟩ <;> rfl

/-- The cached height of a tree whose cached heights are right is its height. -/
theorem height_toBTree {t : Tree α} (ht : t.Avl) : t.toBTree.height = t.height := by
  induction t with
  | nil => rfl
  | node l s v h r ihl ihr =>
    obtain ⟨hl, hr, rfl, -, -⟩ := ht
    simp [ihl hl, ihr hr]

theorem lean_toBTree {t : Tree α} (ht : t.Avl) :
    t.toBTree.lean = (t.leftHeight : Int) - t.rightHeight := by
  cases t with
  | nil => rfl
  | node l s v h r =>
    simp [BTree.lean, leftHeight, rightHeight, height_toBTree ht.left, height_toBTree ht.right]

/-- With its sides at most two apart, `balance` rotates as `rebalance` does. -/
theorem toBTree_balance {l r : Tree α} (s : Nat) (v : α) (hl : l.Avl) (hr : r.Avl)
    (h₁ : l.height ≤ r.height + 2) (h₂ : r.height ≤ l.height + 2) :
    (balance l s v r).toBTree = BTree.rebalance l.toBTree v r.toBTree := by
  unfold balance BTree.rebalance
  rw [height_toBTree hl, height_toBTree hr, lean_toBTree hl, lean_toBTree hr]
  by_cases heavyLeft : r.height + 1 < l.height
  · -- two taller on the left: a double rotation exactly when the left child leans right
    have two : l.height = r.height + 2 := by omega
    rw [if_pos heavyLeft, if_pos two]
    by_cases leansRight : l.leftHeight < l.rightHeight
    · have double : ¬0 ≤ (l.leftHeight : Int) - l.rightHeight := by omega
      rw [if_pos leansRight, if_neg double]
      simp
    · have single : 0 ≤ (l.leftHeight : Int) - l.rightHeight := by omega
      rw [if_neg leansRight, if_pos single]
      simp
  · have notTwo : l.height ≠ r.height + 2 := by omega
    rw [if_neg heavyLeft, if_neg notTwo]
    by_cases heavyRight : l.height + 1 < r.height
    · have two : r.height = l.height + 2 := by omega
      rw [if_pos heavyRight, if_pos two]
      by_cases leansLeft : r.rightHeight < r.leftHeight
      · have double : ¬(r.leftHeight : Int) - r.rightHeight ≤ 0 := by omega
        rw [if_pos leansLeft, if_neg double]
        simp
      · have single : (r.leftHeight : Int) - r.rightHeight ≤ 0 := by omega
        rw [if_neg leansLeft, if_pos single]
        simp
    · have notTwo' : r.height ≠ l.height + 2 := by omega
      rw [if_neg heavyRight, if_neg notTwo']
      rfl

/-- On the way back up, a node whose two sides are balanced is left alone by `rebalance`. -/
theorem rebalance_toBTree {l r : Tree α} (v : α) (hl : l.Avl) (hr : r.Avl)
    (h₁ : l.height ≤ r.height + 1) (h₂ : r.height ≤ l.height + 1) :
    BTree.rebalance l.toBTree v r.toBTree = .node l.toBTree v r.toBTree :=
  BTree.rebalance_of_balanced v (by rwa [height_toBTree hl, height_toBTree hr])
    (by rwa [height_toBTree hl, height_toBTree hr])

variable {cmp : α → α → Ordering}

/-- Insertion of a new node builds the tree that textbook insertion builds. -/
theorem toBTree_insert {t t' : Tree α} {x : α} {slot : Nat} (ht : t.Avl)
    (ins : t.insert cmp x slot = .added t') : t'.toBTree = t.toBTree.insert cmp x := by
  induction t generalizing t' with
  | nil =>
    simp only [insert, Placement.added.injEq] at ins
    subst ins
    rfl
  | node l s v h r ihl ihr =>
    obtain ⟨hl, hr, -, h₁, h₂⟩ := ht
    rcases insert_eq_added ins with ⟨hlt, l', hl', rfl⟩ | ⟨hgt, r', hr', rfl⟩
    · obtain ⟨hav, lo, hi⟩ := avl_insert hl hl'
      rw [toBTree_balance s v hav hr (by omega) (by omega), ihl hl hl']
      simp only [toBTree_node, BTree.insert, hlt]
    · obtain ⟨hav, lo, hi⟩ := avl_insert hr hr'
      rw [toBTree_balance s v hl hav (by omega) (by omega), ihr hr hr']
      simp only [toBTree_node, BTree.insert, hgt]

/-- When an equivalent element is stored, textbook insertion leaves the tree as it is. -/
theorem insert_toBTree_of_occupied {t : Tree α} {x : α} {slot n : Nat} {p : Path}
    (ht : t.Avl) (ins : t.insert cmp x slot = .occupied n p) :
    t.toBTree.insert cmp x = t.toBTree := by
  induction t generalizing p with
  | nil => simp [insert] at ins
  | node l s v h r ihl ihr =>
    obtain ⟨hl, hr, -, h₁, h₂⟩ := ht
    rcases insert_eq_occupied ins with ⟨hlt, q, hq, -⟩ | ⟨hgt, q, hq, -⟩ | ⟨heq, -, -⟩
    · simp only [toBTree_node, BTree.insert, hlt, ihl hl hq]
      exact rebalance_toBTree v hl hr h₁ h₂
    · simp only [toBTree_node, BTree.insert, hgt, ihr hr hq]
      exact rebalance_toBTree v hl hr h₁ h₂
    · simp only [toBTree_node, BTree.insert, heq]

/-- Taking out the smallest node is the textbook `splitMin`. -/
theorem splitMin_toBTree {l r t' : Tree α} {s : Nat} {v : α} {hh ms : Nat} {mv : α}
    (ht : (node l s v hh r).Avl) (h : eraseMin l s v r = (ms, mv, t')) :
    BTree.splitMin l.toBTree v r.toBTree = (mv, t'.toBTree) := by
  induction l generalizing s v hh r t' with
  | nil =>
    simp only [eraseMin, Prod.mk.injEq] at h
    obtain ⟨-, rfl, rfl⟩ := h
    rfl
  | node ll ls lv lh lr ihl _ =>
    obtain ⟨l', hm, rfl⟩ := eraseMin_node_eq h
    obtain ⟨hl, hr, -, h₁, h₂⟩ := ht
    obtain ⟨hl', lo, hi⟩ := avl_eraseMin hl hm
    simp only [height_node] at h₁ h₂
    simp only [toBTree_node, BTree.splitMin, ihl hl hm]
    rw [toBTree_balance s v hl' hr (by omega) (by omega)]

/-- Removing the top of a node is the textbook `deleteRoot`. -/
theorem toBTree_eraseTop {l r t' : Tree α} {s freed : Nat} (hl : l.Avl) (hr : r.Avl)
    (h₁ : l.height ≤ r.height + 1) (h₂ : r.height ≤ l.height + 1)
    (h : eraseTop l s r = (freed, t')) :
    t'.toBTree = BTree.deleteRoot l.toBTree r.toBTree := by
  cases l with
  | nil =>
    simp only [eraseTop, Prod.mk.injEq] at h
    obtain ⟨-, rfl⟩ := h
    rfl
  | node ll ls lv lh lr =>
    rcases eraseTop_eq h with ⟨hnil, -, -⟩ | ⟨rfl, -, rfl⟩ |
      ⟨rl, rs, rv, rh, rr, mv, r', rfl, hm, rfl⟩
    · cases hnil
    · rfl
    · -- two children: the smallest element of the right subtree moves up
      obtain ⟨hr', lo, hi⟩ := avl_eraseMin hr hm
      simp only [height_node] at h₁ h₂ lo hi
      simp only [toBTree_node, BTree.deleteRoot, splitMin_toBTree hr hm]
      rw [toBTree_balance s mv hl hr' (by simp only [height_node]; omega)
        (by simp only [height_node]; omega)]
      rfl

/-- Removing the node that holds `x` builds the tree that textbook deletion of `x` builds. -/
theorem toBTree_eraseAt [Std.TransCmp cmp] {t t' : Tree α} {p : Path} {x : α} {freed : Nat}
    (ht : t.Avl) (hasc : Ascending cmp t.toList) (h : t.eraseAt p = some (x, freed, t')) :
    t'.toBTree = t.toBTree.delete cmp x := by
  induction t generalizing p t' with
  | nil => simp [eraseAt] at h
  | node l s v hh r ihl ihr =>
    rw [toList_node] at hasc
    obtain ⟨hasl, hasr, below, above⟩ := Ascending.append_cons_iff.1 hasc
    obtain ⟨hl, hr, -, h₁, h₂⟩ := ht
    rcases eraseAt_node_eq h with ⟨rfl, rfl, he⟩ | ⟨q, l', rfl, hq, rfl⟩ | ⟨q, r', rfl, hq, rfl⟩
    · simp only [toBTree_node, BTree.delete, Std.ReflCmp.compare_self]
      exact toBTree_eraseTop hl hr h₁ h₂ he
    · -- the element lies in the left subtree, so the descent goes left
      obtain ⟨n, hn⟩ := nodeAt?_of_eraseAt hq
      have hlt : cmp x v = .lt := below x (mem_toList_of_nodeAt? hn)
      obtain ⟨hl', lo, hi⟩ := avl_eraseAt hl hq
      rw [toBTree_balance s v hl' hr (by omega) (by omega), ihl hl hasl hq]
      simp only [toBTree_node, BTree.delete, hlt]
    · obtain ⟨n, hn⟩ := nodeAt?_of_eraseAt hq
      have hgt : cmp x v = .gt := Std.OrientedCmp.gt_of_lt (above x (mem_toList_of_nodeAt? hn))
      obtain ⟨hr', lo, hi⟩ := avl_eraseAt hr hq
      rw [toBTree_balance s v hl hr' (by omega) (by omega), ihr hr hasr hq]
      simp only [toBTree_node, BTree.delete, hgt]

/-- Textbook deletion of an element with no equivalent leaves the tree as it is. -/
theorem delete_toBTree_of_forall_ne {t : Tree α} {x : α} (ht : t.Avl)
    (hx : ∀ y ∈ t.toList, cmp x y ≠ .eq) : t.toBTree.delete cmp x = t.toBTree := by
  induction t with
  | nil => rfl
  | node l s v hh r ihl ihr =>
    obtain ⟨hl, hr, -, h₁, h₂⟩ := ht
    have hxl : ∀ y ∈ l.toList, cmp x y ≠ .eq := fun y hy => hx y (by simp [hy])
    have hxr : ∀ y ∈ r.toList, cmp x y ≠ .eq := fun y hy => hx y (by simp [hy])
    have hxv : cmp x v ≠ .eq := hx v (by simp)
    simp only [toBTree_node, BTree.delete]
    split
    · rw [ihl hl hxl]
      exact rebalance_toBTree v hl hr h₁ h₂
    · rw [ihr hr hxr]
      exact rebalance_toBTree v hl hr h₁ h₂
    · contradiction

end Tree

end AvlCollections
