import AvlCollections.Proofs.Tree.Nodes

/-! # Heights and the AVL balance

A tree is `Avl` when every cached height is one more than the taller child's (an empty tree
has height 0) and the two children of every node differ in height by at most one.

`balance` restores `Avl` at a node whose two sides are `Avl` and differ in height by at most
two. It returns a tree as tall as the taller side or one level taller; when the sides differ
by at most one it is a plain `branch`, one level taller than the taller side.
-/

namespace AvlCollections

namespace Tree

variable {α : Type}

/-- Cached heights are right, and the two sides of every node differ in height by at most
one. -/
def Avl : Tree α → Prop
  | nil => True
  | node l _ _ h r =>
    l.Avl ∧ r.Avl ∧ h = max l.height r.height + 1 ∧
      l.height ≤ r.height + 1 ∧ r.height ≤ l.height + 1

@[simp] theorem avl_nil : (nil : Tree α).Avl := trivial

@[simp] theorem avl_node {l r : Tree α} {s : Nat} {v : α} {h : Nat} :
    (node l s v h r).Avl ↔ l.Avl ∧ r.Avl ∧ h = max l.height r.height + 1 ∧
      l.height ≤ r.height + 1 ∧ r.height ≤ l.height + 1 := Iff.rfl

theorem Avl.left {l r : Tree α} {s : Nat} {v : α} {h : Nat} (ht : (node l s v h r).Avl) :
    l.Avl := ht.1

theorem Avl.right {l r : Tree α} {s : Nat} {v : α} {h : Nat} (ht : (node l s v h r).Avl) :
    r.Avl := ht.2.1

theorem avl_branch {l r : Tree α} (s : Nat) (v : α) (hl : l.Avl) (hr : r.Avl)
    (h₁ : l.height ≤ r.height + 1) (h₂ : r.height ≤ l.height + 1) : (branch l s v r).Avl :=
  ⟨hl, hr, rfl, h₁, h₂⟩

/-- Editing elements in place keeps `Avl`, which reads only heights. -/
theorem Avl.modifyAt {t : Tree α} (f : α → α) (p : Path) (ht : t.Avl) : (t.modifyAt f p).Avl := by
  induction t generalizing p with
  | nil => trivial
  | node l s v h r ihl ihr =>
    obtain ⟨hl, hr, hh, h₁, h₂⟩ := ht
    match p with
    | [] => exact ⟨hl, hr, hh, h₁, h₂⟩
    | .left :: q => exact ⟨ihl q hl, hr, by simpa using hh, by simpa using h₁, by simpa using h₂⟩
    | .right :: q => exact ⟨hl, ihr q hr, by simpa using hh, by simpa using h₁, by simpa using h₂⟩

theorem balance_eq_branch {l r : Tree α} (s : Nat) (v : α) (h₁ : l.height ≤ r.height + 1)
    (h₂ : r.height ≤ l.height + 1) : balance l s v r = branch l s v r := by
  unfold balance
  rw [if_neg (by omega), if_neg (by omega)]

/-- The right rotation of a node whose left child is a node. -/
theorem rotateRight_branch (a b c : Tree α) (ls : Nat) (lv : α) (lh s : Nat) (v : α) :
    (branch (node a ls lv lh b) s v c).rotateRight = branch a ls lv (branch b s v c) := rfl

/-- The left rotation of a node whose right child is a node. -/
theorem rotateLeft_branch (a b c : Tree α) (s : Nat) (v : α) (rs : Nat) (rv : α) (rh : Nat) :
    (branch a s v (node b rs rv rh c)).rotateLeft = branch (branch a s v b) rs rv c := rfl

/-- The double rotation that lifts the right child of the left child to the top. -/
theorem rotateRight_branch_rotateLeft (a b c d : Tree α) (ls : Nat) (lv : α) (lh lrs : Nat)
    (lrv : α) (lrh s : Nat) (v : α) :
    (branch (node a ls lv lh (node b lrs lrv lrh c)).rotateLeft s v d).rotateRight =
      branch (branch a ls lv b) lrs lrv (branch c s v d) := rfl

/-- The double rotation that lifts the left child of the right child to the top. -/
theorem rotateLeft_branch_rotateRight (a b c d : Tree α) (s : Nat) (v : α) (rls : Nat)
    (rlv : α) (rlh rs : Nat) (rv : α) (rh : Nat) :
    (branch a s v (node (node b rls rlv rlh c) rs rv rh d).rotateRight).rotateLeft =
      branch (branch a s v b) rls rlv (branch c rs rv d) := rfl

/-- A left side two levels taller than the right is lifted by one right rotation, after a
left rotation of the left side when that side leans right. -/
theorem avl_balance_of_left_heavy {l r : Tree α} (s : Nat) (v : α) (hl : l.Avl) (hr : r.Avl)
    (heavy : l.height = r.height + 2) :
    (balance l s v r).Avl ∧ l.height ≤ (balance l s v r).height ∧
      (balance l s v r).height ≤ l.height + 1 := by
  cases l with
  | nil => simp at heavy
  | node ll ls lv lh lr =>
    obtain ⟨hll, hlr, rfl, hb₁, hb₂⟩ := hl
    simp only [height_node] at heavy
    unfold balance
    rw [if_pos (by simp; omega)]
    by_cases lean : ll.height < lr.height
    · -- the left side leans right: its right child is a node, which becomes the top
      cases lr with
      | nil => simp at lean
      | node lrl lrs lrv lrh lrr =>
        obtain ⟨hlrl, hlrr, rfl, hc₁, hc₂⟩ := hlr
        simp only [height_node] at lean hb₁ hb₂ heavy
        simp only [leftHeight, rightHeight, height_node, lean, ↓reduceIte,
          rotateRight_branch_rotateLeft]
        refine ⟨avl_branch _ _ (avl_branch _ _ hll hlrl (by omega) (by omega))
          (avl_branch _ _ hlrr hr (by omega) (by omega)) ?_ ?_, ?_, ?_⟩ <;>
          simp only [height_branch] <;> omega
    · simp only [leftHeight, rightHeight, height_node, lean, ↓reduceIte, rotateRight_branch]
      refine ⟨avl_branch _ _ hll (avl_branch _ _ hlr hr (by omega) (by omega)) ?_ ?_, ?_, ?_⟩ <;>
        simp only [height_branch] <;> omega

/-- The mirror image of `avl_balance_of_left_heavy`. -/
theorem avl_balance_of_right_heavy {l r : Tree α} (s : Nat) (v : α) (hl : l.Avl) (hr : r.Avl)
    (heavy : r.height = l.height + 2) :
    (balance l s v r).Avl ∧ r.height ≤ (balance l s v r).height ∧
      (balance l s v r).height ≤ r.height + 1 := by
  cases r with
  | nil => simp at heavy
  | node rl rs rv rh rr =>
    obtain ⟨hrl, hrr, rfl, hb₁, hb₂⟩ := hr
    simp only [height_node] at heavy
    unfold balance
    rw [if_neg (by simp; omega), if_pos (by simp; omega)]
    by_cases lean : rr.height < rl.height
    · -- the right side leans left: its left child is a node, which becomes the top
      cases rl with
      | nil => simp at lean
      | node rll rls rlv rlh rlr =>
        obtain ⟨hrll, hrlr, rfl, hc₁, hc₂⟩ := hrl
        simp only [height_node] at lean hb₁ hb₂ heavy
        simp only [leftHeight, rightHeight, height_node, lean, ↓reduceIte,
          rotateLeft_branch_rotateRight]
        refine ⟨avl_branch _ _ (avl_branch _ _ hl hrll (by omega) (by omega))
          (avl_branch _ _ hrlr hrr (by omega) (by omega)) ?_ ?_, ?_, ?_⟩ <;>
          simp only [height_branch] <;> omega
    · simp only [leftHeight, rightHeight, height_node, lean, ↓reduceIte, rotateLeft_branch]
      refine ⟨avl_branch _ _ (avl_branch _ _ hl hrl (by omega) (by omega)) hrr ?_ ?_, ?_, ?_⟩ <;>
        simp only [height_branch] <;> omega

/-- `balance` of two `Avl` sides that differ in height by at most two is `Avl`, as tall as the
taller side or one level taller. -/
theorem avl_balance {l r : Tree α} (s : Nat) (v : α) (hl : l.Avl) (hr : r.Avl)
    (h₁ : l.height ≤ r.height + 2) (h₂ : r.height ≤ l.height + 2) :
    (balance l s v r).Avl ∧ max l.height r.height ≤ (balance l s v r).height ∧
      (balance l s v r).height ≤ max l.height r.height + 1 := by
  by_cases hlr : l.height = r.height + 2
  · obtain ⟨avl, lo, hi⟩ := avl_balance_of_left_heavy s v hl hr hlr
    exact ⟨avl, by omega, by omega⟩
  by_cases hrl : r.height = l.height + 2
  · obtain ⟨avl, lo, hi⟩ := avl_balance_of_right_heavy s v hl hr hrl
    exact ⟨avl, by omega, by omega⟩
  rw [balance_eq_branch s v (by omega) (by omega)]
  exact ⟨avl_branch s v hl hr (by omega) (by omega), by simp, by simp⟩

/-- Rebalancing after the left side grew by at most one level: the node grows by at most one
level too. -/
theorem avl_balance_left_grown {l l' r : Tree α} {s : Nat} {v : α} {h : Nat}
    (ht : (node l s v h r).Avl) (hl' : l'.Avl) (lo : l.height ≤ l'.height)
    (hi : l'.height ≤ l.height + 1) :
    (balance l' s v r).Avl ∧ h ≤ (balance l' s v r).height ∧ (balance l' s v r).height ≤ h + 1 := by
  obtain ⟨-, hr, rfl, h₁, h₂⟩ := ht
  obtain ⟨avl, lo', hi'⟩ := avl_balance s v hl' hr (by omega) (by omega)
  refine ⟨avl, ?_, by omega⟩
  by_cases near : l'.height ≤ r.height + 1
  · rw [balance_eq_branch s v near (by omega), height_branch]
    omega
  · omega

/-- The mirror image of `avl_balance_left_grown`. -/
theorem avl_balance_right_grown {l r r' : Tree α} {s : Nat} {v : α} {h : Nat}
    (ht : (node l s v h r).Avl) (hr' : r'.Avl) (lo : r.height ≤ r'.height)
    (hi : r'.height ≤ r.height + 1) :
    (balance l s v r').Avl ∧ h ≤ (balance l s v r').height ∧ (balance l s v r').height ≤ h + 1 := by
  obtain ⟨hl, -, rfl, h₁, h₂⟩ := ht
  obtain ⟨avl, lo', hi'⟩ := avl_balance s v hl hr' (by omega) (by omega)
  refine ⟨avl, ?_, by omega⟩
  by_cases near : r'.height ≤ l.height + 1
  · rw [balance_eq_branch s v (by omega) near, height_branch]
    omega
  · omega

/-- Rebalancing after the left side shrank by at most one level: the node shrinks by at most
one level too. -/
theorem avl_balance_left_shrunk {l l' r : Tree α} {s : Nat} {v : α} {h : Nat}
    (ht : (node l s v h r).Avl) (hl' : l'.Avl) (lo : l.height ≤ l'.height + 1)
    (hi : l'.height ≤ l.height) :
    (balance l' s v r).Avl ∧ h ≤ (balance l' s v r).height + 1 ∧ (balance l' s v r).height ≤ h := by
  obtain ⟨-, hr, rfl, h₁, h₂⟩ := ht
  obtain ⟨avl, lo', hi'⟩ := avl_balance s v hl' hr (by omega) (by omega)
  refine ⟨avl, ?_, ?_⟩
  all_goals
    by_cases near : r.height ≤ l'.height + 1
    · rw [balance_eq_branch s v (by omega) near, height_branch]
      omega
    · omega

/-- The mirror image of `avl_balance_left_shrunk`. -/
theorem avl_balance_right_shrunk {l r r' : Tree α} {s : Nat} {v : α} {h : Nat}
    (ht : (node l s v h r).Avl) (hr' : r'.Avl) (lo : r.height ≤ r'.height + 1)
    (hi : r'.height ≤ r.height) :
    (balance l s v r').Avl ∧ h ≤ (balance l s v r').height + 1 ∧ (balance l s v r').height ≤ h := by
  obtain ⟨hl, -, rfl, h₁, h₂⟩ := ht
  obtain ⟨avl, lo', hi'⟩ := avl_balance s v hl hr' (by omega) (by omega)
  refine ⟨avl, ?_, ?_⟩
  all_goals
    by_cases near : l.height ≤ r'.height + 1
    · rw [balance_eq_branch s v near (by omega), height_branch]
      omega
    · omega

end Tree

end AvlCollections
