import AvlCollections.Tree.Basic

/-! # Rotations and the AVL rebalancing rule

A node's lean is the height of its left subtree minus that of its right. `balance` rebuilds a
node from its parts and, when the two sides differ by more than one, restores balance with one
single or double rotation: a left-heavy node whose left child leans right first turns that
child left, and then the node turns right; the right-heavy case is symmetric. A child
with no lean gets a single rotation.
-/

namespace AvlCollections

namespace Tree

variable {α : Type}

/-- The height of the left subtree; 0 for the empty tree. -/
def leftHeight : Tree α → Nat
  | nil => 0
  | node l _ _ _ _ => l.height

/-- The height of the right subtree; 0 for the empty tree. -/
def rightHeight : Tree α → Nat
  | nil => 0
  | node _ _ _ _ r => r.height

/-- Lifts the right child into the node's place; the child's inner subtree moves across.
A tree without a right child is returned as it is. -/
def rotateLeft : Tree α → Tree α
  | node a s v _ (node b rs rv _ c) => branch (branch a s v b) rs rv c
  | t => t

/-- Lifts the left child into the node's place; the child's inner subtree moves across.
A tree without a left child is returned as it is. -/
def rotateRight : Tree α → Tree α
  | node (node a ls lv _ b) s v _ c => branch a ls lv (branch b s v c)
  | t => t

/-- Builds the node `l, s, v, r` and restores its balance by at most one single or double
rotation. -/
def balance (l : Tree α) (s : Nat) (v : α) (r : Tree α) : Tree α :=
  if r.height + 1 < l.height then
    if l.leftHeight < l.rightHeight then rotateRight (branch (rotateLeft l) s v r)
    else rotateRight (branch l s v r)
  else if l.height + 1 < r.height then
    if r.rightHeight < r.leftHeight then rotateLeft (branch l s v (rotateRight r))
    else rotateLeft (branch l s v r)
  else branch l s v r

end Tree

end AvlCollections
