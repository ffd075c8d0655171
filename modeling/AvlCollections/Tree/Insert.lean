import AvlCollections.Tree.Balance

/-! # Search and insertion

A search follows a probe that tells, at each node, whether the sought element lies to the
left (`lt`), to the right (`gt`) or here (`eq`). Insertion searches with the order, adds a new
node where the search falls off the tree and rebalances every node on the way back up;
an element that the order finds equivalent to a stored one is not added.
-/

namespace AvlCollections

namespace Tree

variable {α : Type}

/-- The path to the node at which `probe` answers `eq`, descending left on `lt` and right
on `gt`. -/
def find? (probe : α → Ordering) : Tree α → Option Path
  | nil => none
  | node l _ v _ r =>
    match probe v with
    | .lt => (l.find? probe).map (.left :: ·)
    | .gt => (r.find? probe).map (.right :: ·)
    | .eq => some []

/-- What insertion did: the tree with a new node, or the slot and path of the node that
already holds an equivalent element. -/
inductive Placement (α : Type) where
  /-- A new node was added; this is the rebalanced tree. -/
  | added (t : Tree α)
  /-- An equivalent element is stored in slot `slot`, reached by `path`. -/
  | occupied (slot : Nat) (path : Path)
  deriving Repr

/-- Inserts `x` in a tree ordered by `cmp` as a new node in slot `slot`, unless an
equivalent element is stored. -/
def insert (cmp : α → α → Ordering) (x : α) (slot : Nat) : Tree α → Placement α
  | nil => .added (leaf slot x)
  | node l s v _ r =>
    match cmp x v with
    | .lt =>
      match l.insert cmp x slot with
      | .added l' => .added (balance l' s v r)
      | .occupied s' p => .occupied s' (.left :: p)
    | .gt =>
      match r.insert cmp x slot with
      | .added r' => .added (balance l s v r')
      | .occupied s' p => .occupied s' (.right :: p)
    | .eq => .occupied s []

end Tree

end AvlCollections
