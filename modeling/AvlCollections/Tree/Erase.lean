import AvlCollections.Tree.Balance

/-! # Removal

Removing a node with at most one child puts that child (or nothing) in its place. A node with
two children keeps its slot and takes the element of the smallest node of its right subtree,
whose own node goes instead. Every node on the way back up is rebalanced.
-/

namespace AvlCollections

namespace Tree

variable {α : Type}

/-- Removes the smallest node of the tree `node l s v r` (given by its parts), rebalancing on
the way up; returns that node's slot and element and the remaining tree. -/
def eraseMin : Tree α → Nat → α → Tree α → Nat × α × Tree α
  | nil, s, v, r => (s, v, r)
  | node ll ls lv _ lr, s, v, r =>
    let (ms, mv, l') := eraseMin ll ls lv lr
    (ms, mv, balance l' s v r)

/-- Removes the top node of a tree with subtrees `l` and `r` whose top is in slot `s`;
returns the slot that is freed and the remaining tree. With two children the top keeps slot
`s` and takes the smallest element of `r`, and the slot of that element's node is freed. -/
def eraseTop (l : Tree α) (s : Nat) (r : Tree α) : Nat × Tree α :=
  match l, r with
  | nil, r => (s, r)
  | l, nil => (s, l)
  | l, node rl rs rv _ rr =>
    let (ms, mv, r') := eraseMin rl rs rv rr
    (ms, balance l s mv r')

/-- Removes the node that a path reaches; returns its element, the freed slot and the
rebalanced tree, or `none` when the path leaves the tree. -/
def eraseAt : Tree α → Path → Option (α × Nat × Tree α)
  | nil, _ => none
  | node l s v _ r, [] =>
    let (freed, t) := eraseTop l s r
    some (v, freed, t)
  | node l s v _ r, .left :: p =>
    (l.eraseAt p).map fun (x, freed, l') => (x, freed, balance l' s v r)
  | node l s v _ r, .right :: p =>
    (r.eraseAt p).map fun (x, freed, r') => (x, freed, balance l s v r')

end Tree

end AvlCollections
