import AvlCollections.Tree.Basic

/-! # In-order neighbours

The successor of a node is the smallest node of its right subtree, or else the nearest
ancestor whose left subtree holds the node; the predecessor is symmetric. Both are
computed on paths from the root.
-/

namespace AvlCollections

namespace Path

/-- The path to the nearest ancestor reached by stepping up from its `d` child: steps of the
other kind are climbed first. -/
def climbFrom? (d : Dir) (p : Path) : Option Path :=
  match p.reverse.dropWhile (· ≠ d) with
  | _ :: q => some q.reverse
  | [] => none

end Path

namespace Tree

variable {α : Type}

/-- The path to the smallest node, or `none` for the empty tree. -/
def firstPath? : Tree α → Option Path
  | nil => none
  | t => some t.leftSpine

/-- The path to the largest node, or `none` for the empty tree. -/
def lastPath? : Tree α → Option Path
  | nil => none
  | t => some t.rightSpine

/-- The path to the in-order successor of the node at `p`. -/
def nextPath? (t : Tree α) (p : Path) : Option Path :=
  match t.subtree p with
  | node _ _ _ _ r@(node ..) => some (p ++ .right :: r.leftSpine)
  | _ => p.climbFrom? .left

/-- The path to the in-order predecessor of the node at `p`. -/
def prevPath? (t : Tree α) (p : Path) : Option Path :=
  match t.subtree p with
  | node l@(node ..) _ _ _ _ => some (p ++ .left :: l.rightSpine)
  | _ => p.climbFrom? .right

end Tree

end AvlCollections
