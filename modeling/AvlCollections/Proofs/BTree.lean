/-! # The textbook AVL tree

A plain binary tree with an element at each node, whose heights are computed, and the
recursive AVL algorithms on it. Insertion descends by the comparator, leaves the tree as it is
when it meets an equivalent element, and rebalances every node on the way back up. Deletion
descends the same way; at the node to delete, a node with two children takes the smallest
element of its right subtree, which is deleted there, a node with one child gives way to that
child and a leaf goes. Rebalancing acts on a node whose two subtrees differ in height by two:
a single rotation when the taller child leans the same way or not at all, a double rotation
when it leans the other way.
-/

namespace AvlCollections

/-- A binary tree with an element at each node. -/
inductive BTree (α : Type) where
  | leaf
  | node (l : BTree α) (x : α) (r : BTree α)
  deriving Repr, DecidableEq

namespace BTree

variable {α : Type}

def height : BTree α → Nat
  | leaf => 0
  | node l _ r => max l.height r.height + 1

/-- How much taller the left subtree is than the right one. -/
def lean : BTree α → Int
  | leaf => 0
  | node l _ r => (l.height : Int) - r.height

def rotL : BTree α → BTree α
  | node a x (node b y c) => node (node a x b) y c
  | t => t

def rotR : BTree α → BTree α
  | node (node a x b) y c => node a x (node b y c)
  | t => t

/-- The node `l, x, r`, with a single or double rotation when one side is two taller. -/
def rebalance (l : BTree α) (x : α) (r : BTree α) : BTree α :=
  if l.height = r.height + 2 then
    if 0 ≤ l.lean then rotR (node l x r) else rotR (node (rotL l) x r)
  else if r.height = l.height + 2 then
    if r.lean ≤ 0 then rotL (node l x r) else rotL (node l x (rotR r))
  else node l x r

/-- Inserts `x` unless an equivalent element is stored. -/
def insert (cmp : α → α → Ordering) (x : α) : BTree α → BTree α
  | leaf => node leaf x leaf
  | node l v r =>
    match cmp x v with
    | .lt => rebalance (l.insert cmp x) v r
    | .gt => rebalance l v (r.insert cmp x)
    | .eq => node l v r

/-- The smallest element of the node `l, x, r` and the tree without it. -/
def splitMin : BTree α → α → BTree α → α × BTree α
  | leaf, x, r => (x, r)
  | node ll lx lr, x, r =>
    let (m, l') := splitMin ll lx lr
    (m, rebalance l' x r)

/-- The tree left when the top of the node with subtrees `l` and `r` goes. -/
def deleteRoot : BTree α → BTree α → BTree α
  | leaf, r => r
  | l, leaf => l
  | l, node rl rx rr =>
    let (m, r') := splitMin rl rx rr
    rebalance l m r'

/-- Deletes the element equivalent to `x`, if there is one. -/
def delete (cmp : α → α → Ordering) (x : α) : BTree α → BTree α
  | leaf => leaf
  | node l v r =>
    match cmp x v with
    | .lt => rebalance (l.delete cmp x) v r
    | .gt => rebalance l v (r.delete cmp x)
    | .eq => deleteRoot l r

@[simp] theorem height_leaf : (leaf : BTree α).height = 0 := rfl

@[simp] theorem height_node (l : BTree α) (x : α) (r : BTree α) :
    (node l x r).height = max l.height r.height + 1 := rfl

/-- A node whose sides differ by at most one needs no rotation. -/
theorem rebalance_of_balanced {l r : BTree α} (x : α) (hl : l.height ≤ r.height + 1)
    (hr : r.height ≤ l.height + 1) : rebalance l x r = node l x r := by
  rw [rebalance, if_neg (by omega), if_neg (by omega)]

/-- Deletion reads `x` only through its comparisons. -/
theorem delete_congr {cmp : α → α → Ordering} {x y : α} (h : ∀ v, cmp x v = cmp y v)
    (t : BTree α) : t.delete cmp x = t.delete cmp y := by
  induction t with
  | leaf => rfl
  | node l v r ihl ihr => simp only [delete, h v, ihl, ihr]

end BTree

end AvlCollections
