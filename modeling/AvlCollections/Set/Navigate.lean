import AvlCollections.Set.Basic

/-! # Moving cursors

A cursor is first checked against the set (its identity, then its version) and then its node
is looked up by slot. Moving forward from the last element reaches the end sentinel, and from
before the beginning reaches the first element; moving on from the end sentinel fails, and
backward moves are symmetric. Moves along a link (to a child or to the parent) report
whether there was a link to follow and stay put when there was none. A failed move changes
nothing.
-/

namespace AvlCollections

/-- A link from a node: down to one of its children, or up to its parent. -/
inductive Link where
  /-- To the child on side `d`. -/
  | child (d : Dir)
  /-- To the parent. -/
  | parent
  deriving Repr, DecidableEq, Inhabited

namespace AvlSet

variable {α : Type}

/-- Checks a cursor against this set: the path to its node, or `none` for a sentinel. -/
def locate (s : AvlSet α) (c : Cursor) : Except Fault (Option Path) := do
  c.stamp.check s.stamp
  match c.position with
  | .node slot =>
    match s.root.pathTo? slot with
    | some p => pure (some p)
    | none => throw .detached
  | _ => pure none

/-- Checks a cursor and requires it to stand on a node: the path to that node. -/
def locateNode (s : AvlSet α) (c : Cursor) : Except Fault Path := do
  match ← s.locate c with
  | some p => pure p
  | none => throw .sentinel

/-- Whether the set accepts the cursor. -/
def accepts (s : AvlSet α) (c : Cursor) : Bool :=
  (s.locate c).isOk

/-- The element under a cursor. -/
def elementAt (s : AvlSet α) (c : Cursor) : Except Fault α := do
  let p ← s.locateNode c
  match s.valueAt? p with
  | some x => pure x
  | none => throw .detached

/-- The position of the node that a path reaches, or `outside` when there is none. -/
def positionAt (s : AvlSet α) (outside : Position) : Option Path → Position
  | some p =>
    match s.root.nodeAt? p with
    | some (slot, _) => .node slot
    | none => outside
  | none => outside

/-- The cursor moved one element forward. -/
def next (s : AvlSet α) (c : Cursor) : Except Fault Cursor := do
  let at? ← s.locate c
  match c.position, at? with
  | .pastEnd, _ => throw .sentinel
  | _, some p => pure { c with position := s.positionAt .pastEnd (s.root.nextPath? p) }
  | _, none => pure { c with position := s.positionAt .pastEnd s.root.firstPath? }

/-- The cursor moved one element backward. -/
def prev (s : AvlSet α) (c : Cursor) : Except Fault Cursor := do
  let at? ← s.locate c
  match c.position, at? with
  | .preBegin, _ => throw .sentinel
  | _, some p => pure { c with position := s.positionAt .preBegin (s.root.prevPath? p) }
  | _, none => pure { c with position := s.positionAt .preBegin s.root.lastPath? }

/-- The path one step along a link from the node at `p`, if the link exists. -/
def linkFrom (s : AvlSet α) (p : Path) : Link → Option Path
  | .child d =>
    match s.root.subtree (p ++ [d]) with
    | .node .. => some (p ++ [d])
    | .nil => none
  | .parent => if p.isEmpty then none else some p.dropLast

/-- The node one step along a link from the cursor's node, if there is one. -/
def link (s : AvlSet α) (c : Cursor) (l : Link) : Except Fault (Option Path) := do
  let p ← s.locateNode c
  pure (s.linkFrom p l)

/-- Whether the cursor is accepted and its node has the link `l`. -/
def hasLink (s : AvlSet α) (c : Cursor) (l : Link) : Bool :=
  match s.link c l with
  | .ok (some _) => true
  | _ => false

/-- Follows the link `l` from the cursor's node; reports whether the cursor moved. -/
def follow (s : AvlSet α) (c : Cursor) (l : Link) : Except Fault (Bool × Cursor) := do
  match ← s.link c l with
  | some p => pure (true, { c with position := s.positionAt c.position (some p) })
  | none => pure (false, c)

/-- Removes the element under a cursor and returns it. -/
def removeAt (s : AvlSet α) (c : Cursor) (fresh : Nat) : Except Error α × AvlSet α :=
  match s.locateNode c with
  | .error f => (.error (.invalidIterator f), s)
  | .ok p =>
    match s.eraseAt p fresh with
    | (some x, s') => (.ok x, s')
    | (none, _) => (.error (.invalidIterator .detached), s)

end AvlSet

end AvlCollections
