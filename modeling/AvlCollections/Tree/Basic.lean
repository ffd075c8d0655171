/-! # Labelled binary trees

A node carries the number of the slot that stores it, its element and its cached height.
Slot numbers are the identities of nodes: rebalancing moves nodes and never renumbers them,
so a slot names the same element for as long as its node lives.

Nodes are reached from the root by paths of left and right steps. The in-order list of
elements (`toList`) is the meaning of a tree; `slots` lists the slots in the same order.
-/

namespace AvlCollections

/-- A binary tree whose nodes carry a slot number, an element and a cached height. -/
inductive Tree (α : Type) where
  /-- The empty tree. -/
  | nil
  /-- A node with its left subtree, slot, element, cached height and right subtree. -/
  | node (left : Tree α) (slot : Nat) (value : α) (height : Nat) (right : Tree α)
  deriving Repr, DecidableEq, Inhabited

/-- One step from a node down to one of its children. -/
inductive Dir where
  /-- To the left child. -/
  | left
  /-- To the right child. -/
  | right
  deriving Repr, DecidableEq, Inhabited

/-- The steps from the root down to a node, root first. -/
abbrev Path := List Dir

namespace Tree

variable {α : Type}

/-- The cached height; the empty tree has height 0. -/
def height : Tree α → Nat
  | nil => 0
  | node _ _ _ h _ => h

/-- A node whose cached height is one more than that of its taller child. -/
def branch (l : Tree α) (slot : Nat) (v : α) (r : Tree α) : Tree α :=
  node l slot v (max l.height r.height + 1) r

/-- The tree of one node, in slot `slot`. -/
def leaf (slot : Nat) (v : α) : Tree α :=
  node nil slot v 1 nil

/-- Whether the tree has no node. -/
def isEmpty : Tree α → Bool
  | nil => true
  | node .. => false

/-- The number of nodes. -/
def size : Tree α → Nat
  | nil => 0
  | node l _ _ _ r => l.size + 1 + r.size

/-- The elements in order. -/
def toList : Tree α → List α
  | nil => []
  | node l _ v _ r => l.toList ++ v :: r.toList

/-- The slots in order. -/
def slots : Tree α → List Nat
  | nil => []
  | node l s _ _ r => l.slots ++ s :: r.slots

/-- The subtree that a path reaches; `nil` once the path leaves the tree. -/
def subtree : Tree α → Path → Tree α
  | t, [] => t
  | nil, _ :: _ => nil
  | node l _ _ _ _, .left :: p => l.subtree p
  | node _ _ _ _ r, .right :: p => r.subtree p

/-- The slot and element of the node that a path reaches. -/
def nodeAt? (t : Tree α) (p : Path) : Option (Nat × α) :=
  match t.subtree p with
  | nil => none
  | node _ s v _ _ => some (s, v)

/-- The path to the node in slot `s`; the left subtree is searched before the right. -/
def pathTo? (s : Nat) : Tree α → Option Path
  | nil => none
  | node l s' _ _ r =>
    if s' = s then some []
    else
      match pathTo? s l with
      | some p => some (.left :: p)
      | none => (pathTo? s r).map (.right :: ·)

/-- The left steps from the top of a tree down to its smallest node. -/
def leftSpine : Tree α → Path
  | node l@(node ..) _ _ _ _ => .left :: l.leftSpine
  | _ => []

/-- The right steps from the top of a tree down to its largest node. -/
def rightSpine : Tree α → Path
  | node _ _ _ _ r@(node ..) => .right :: r.rightSpine
  | _ => []

/-- Replaces the element of the node that a path reaches; other paths change nothing. -/
def setAt (x : α) : Tree α → Path → Tree α
  | nil, _ => nil
  | node l s _ h r, [] => node l s x h r
  | node l s v h r, .left :: p => node (l.setAt x p) s v h r
  | node l s v h r, .right :: p => node l s v h (r.setAt x p)

/-- Applies `f` to the element of the node that a path reaches. -/
def modifyAt (f : α → α) : Tree α → Path → Tree α
  | nil, _ => nil
  | node l s v h r, [] => node l s (f v) h r
  | node l s v h r, .left :: p => node (l.modifyAt f p) s v h r
  | node l s v h r, .right :: p => node l s v h (r.modifyAt f p)

/-- The shape text: a node is `(element,left,right)` and an empty subtree is written as
nothing, so the empty tree is the empty string. -/
def shape (render : α → String) : Tree α → String
  | nil => ""
  | node l _ v _ r => "(" ++ render v ++ "," ++ l.shape render ++ "," ++ r.shape render ++ ")"

end Tree

end AvlCollections
