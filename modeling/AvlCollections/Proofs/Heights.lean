import AvlCollections.Proofs.Tree.Fibonacci
import AvlCollections.Proofs.Tree.Insert
import AvlCollections.Proofs.Tree.Erase
import AvlCollections.Proofs.Set.Valid
import AvlCollections.Proofs.MultiMap.Valid

/-! # Heights of reachable trees, and what rebalancing sees

Every tree that the set and map operations build is AVL, so its height is logarithmic in its
size (`Tree.fib_height_le_size`); below `2^32` nodes no node is more than 45 levels tall, and
heights fit a byte with room to spare.

An insertion or a removal changes one side of a node by at most one level before `balance`
looks at it. So whenever `balance` runs, both sides are AVL, their balance factor is within
`±2`, and neither is taller than the node was: the height it computes is at most one more
than the node's old height. `BalanceCalls` lists these calls for one node, and at every node
of an AVL tree they meet `Rebalances`.
-/

namespace AvlCollections

namespace Tree

variable {α : Type}

/-- The balance factor of a node with sides `l` and `r`: left height minus right height. -/
def balanceFactor (l r : Tree α) : Int :=
  (l.height : Int) - r.height

/-- What `balance` receives at a node of height `h` after one side changed. -/
structure Rebalances (h : Nat) (l r : Tree α) : Prop where
  left_avl : l.Avl
  right_avl : r.Avl
  factor_le : balanceFactor l r ≤ 2
  neg_two_le_factor : -2 ≤ balanceFactor l r
  sides_le : max l.height r.height ≤ h

/-- The calls of `balance` that insertions and removals make at a node with sides `l` and `r`,
each meeting `P`: after inserting into or removing from a side, and after removing the
smallest node of a side (a step of `eraseMin`, and `eraseTop` on the right side). -/
structure BalanceCalls (P : Tree α → Tree α → Prop) (l r : Tree α) : Prop where
  insert_left : ∀ cmp x slot l', l.insert cmp x slot = .added l' → P l' r
  insert_right : ∀ cmp x slot r', r.insert cmp x slot = .added r' → P l r'
  eraseAt_left : ∀ p x freed l', l.eraseAt p = some (x, freed, l') → P l' r
  eraseAt_right : ∀ p x freed r', r.eraseAt p = some (x, freed, r') → P l r'
  eraseMin_left : ∀ ll ls lv lh lr ms mv l', l = node ll ls lv lh lr →
    eraseMin ll ls lv lr = (ms, mv, l') → P l' r
  eraseMin_right : ∀ rl rs rv rh rr ms mv r', r = node rl rs rv rh rr →
    eraseMin rl rs rv rr = (ms, mv, r') → P l r'

theorem BalanceCalls.mono {P Q : Tree α → Tree α → Prop} {l r : Tree α}
    (hc : BalanceCalls P l r) (hPQ : ∀ l r, P l r → Q l r) : BalanceCalls Q l r where
  insert_left cmp x slot l' ins := hPQ _ _ (hc.insert_left cmp x slot l' ins)
  insert_right cmp x slot r' ins := hPQ _ _ (hc.insert_right cmp x slot r' ins)
  eraseAt_left p x freed l' h := hPQ _ _ (hc.eraseAt_left p x freed l' h)
  eraseAt_right p x freed r' h := hPQ _ _ (hc.eraseAt_right p x freed r' h)
  eraseMin_left ll ls lv lh lr ms mv l' hl hm :=
    hPQ _ _ (hc.eraseMin_left ll ls lv lh lr ms mv l' hl hm)
  eraseMin_right rl rs rv rh rr ms mv r' hr hm :=
    hPQ _ _ (hc.eraseMin_right rl rs rv rh rr ms mv r' hr hm)

/-- `balance` of what it receives is AVL and at most one level taller than the node was. -/
theorem Rebalances.balance {h : Nat} {l r : Tree α} (hr : Rebalances h l r) (s : Nat) (v : α) :
    (balance l s v r).Avl ∧ (balance l s v r).height ≤ h + 1 := by
  have ⟨hl, hr', f₁, f₂, hmax⟩ := hr
  unfold balanceFactor at f₁ f₂
  obtain ⟨avl, -, hi⟩ := avl_balance s v hl hr' (by omega) (by omega)
  exact ⟨avl, by omega⟩

theorem rebalances_left {l l' r : Tree α} {s : Nat} {v : α} {h : Nat}
    (ht : (node l s v h r).Avl) (hl' : l'.Avl) (lo : l.height ≤ l'.height + 1)
    (hi : l'.height ≤ l.height + 1) : Rebalances h l' r := by
  obtain ⟨-, hr, rfl, h₁, h₂⟩ := ht
  exact ⟨hl', hr, by unfold balanceFactor; omega, by unfold balanceFactor; omega, by omega⟩

theorem rebalances_right {l r r' : Tree α} {s : Nat} {v : α} {h : Nat}
    (ht : (node l s v h r).Avl) (hr' : r'.Avl) (lo : r.height ≤ r'.height + 1)
    (hi : r'.height ≤ r.height + 1) : Rebalances h l r' := by
  obtain ⟨hl, -, rfl, h₁, h₂⟩ := ht
  exact ⟨hl, hr', by unfold balanceFactor; omega, by unfold balanceFactor; omega, by omega⟩

theorem Avl.balanceCalls {l r : Tree α} {s : Nat} {v : α} {h : Nat}
    (ht : (node l s v h r).Avl) : BalanceCalls (Rebalances h) l r where
  insert_left _ _ _ _ ins := by
    obtain ⟨avl, lo, hi⟩ := avl_insert ht.left ins
    exact rebalances_left ht avl (by omega) hi
  insert_right _ _ _ _ ins := by
    obtain ⟨avl, lo, hi⟩ := avl_insert ht.right ins
    exact rebalances_right ht avl (by omega) hi
  eraseAt_left _ _ _ _ hl := by
    obtain ⟨avl, lo, hi⟩ := avl_eraseAt ht.left hl
    exact rebalances_left ht avl lo (by omega)
  eraseAt_right _ _ _ _ hr := by
    obtain ⟨avl, lo, hi⟩ := avl_eraseAt ht.right hr
    exact rebalances_right ht avl lo (by omega)
  eraseMin_left _ _ _ _ _ _ _ _ hl hm := by
    subst hl
    obtain ⟨avl, lo, hi⟩ := avl_eraseMin ht.left hm
    exact rebalances_left ht avl (by simpa using lo) (by simp; omega)
  eraseMin_right _ _ _ _ _ _ _ _ hr hm := by
    subst hr
    obtain ⟨avl, lo, hi⟩ := avl_eraseMin ht.right hm
    exact rebalances_right ht avl (by simpa using lo) (by simp; omega)

theorem Avl.subtree {t : Tree α} (ht : t.Avl) (p : Path) : (t.subtree p).Avl := by
  induction t generalizing p with
  | nil => cases p <;> trivial
  | node l s v h r ihl ihr =>
    match p with
    | [] => exact ht
    | .left :: q => exact ihl ht.left q
    | .right :: q => exact ihr ht.right q

theorem height_subtree_le {t : Tree α} (ht : t.Avl) (p : Path) :
    (t.subtree p).height ≤ t.height := by
  induction t generalizing p with
  | nil => cases p <;> simp [subtree]
  | node l s v h r ihl ihr =>
    obtain ⟨hl, hr, rfl, -, -⟩ := ht
    rcases p with _ | ⟨_ | _, q⟩
    · simp
    · have := ihl hl q
      simp only [subtree, height_node]
      omega
    · have := ihr hr q
      simp only [subtree, height_node]
      omega

/-- At every node of an AVL tree, `balance` is given sides within `±2`. -/
theorem Avl.balanceCalls_of_subtree {t l r : Tree α} {p : Path} {s : Nat} {v : α} {h : Nat}
    (ht : t.Avl) (hp : t.subtree p = node l s v h r) : BalanceCalls (Rebalances h) l r := by
  have hsub := ht.subtree p
  rw [hp] at hsub
  exact hsub.balanceCalls

/-- What the AVL balance bounds in a tree: its height against its size, and every rebalancing
that an insertion or a removal makes in it. -/
structure HeightBounds (t : Tree α) : Prop where
  fib_le_size : Nat.fib (t.height + 2) ≤ t.size + 1
  height_le_logb : (t.height : ℝ) ≤ 1.4405 * Real.logb 2 (t.size + 2) - 0.3277
  height_le_45 : t.size < 2 ^ 32 → ∀ p, (t.subtree p).height ≤ 45
  balanceCalls : ∀ p l s v h r, t.subtree p = node l s v h r → BalanceCalls (Rebalances h) l r

theorem Avl.heightBounds {t : Tree α} (ht : t.Avl) : t.HeightBounds where
  fib_le_size := fib_height_le_size ht
  height_le_logb := height_le_logb_of_fib_le (fib_height_le_size ht)
  height_le_45 hs p := (height_subtree_le ht p).trans (height_le_45 ht hs)
  balanceCalls _ _ _ _ _ _ hp := ht.balanceCalls_of_subtree hp

end Tree

/-- Every tree that the set operations or the map operations build from an empty one obeys
the AVL height bounds. -/
theorem reachable_height_bounds {α κ ν : Type} [BEq ν] :
    (∀ (cmp : α → α → Ordering) [Std.TransCmp cmp] (s : AvlSet α),
      AvlSet.Reachable cmp s → s.root.HeightBounds) ∧
    (∀ (keyCmp : κ → κ → Ordering) [Std.TransCmp keyCmp] (m : MultiMap κ ν),
      MultiMap.Reachable keyCmp m → m.root.HeightBounds) := by
  constructor
  · intro cmp _ s hs
    exact hs.valid.avl.heightBounds
  · intro keyCmp _ m hm
    exact hm.valid.avl.heightBounds

theorem ofList_height_bounds :
    AvlSet.Reachable compare (AvlSet.ofList (compare : Int → Int → Ordering) [2, 1, 3] 1) ∧
      (AvlSet.ofList (compare : Int → Int → Ordering) [2, 1, 3] 1).root.HeightBounds :=
  ⟨.ofList _ _ _, (@reachable_height_bounds Int Int Int _).1 compare _ (.ofList _ _ _)⟩

end AvlCollections
