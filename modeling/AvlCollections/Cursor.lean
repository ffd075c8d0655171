import AvlCollections.Stamp

/-! # Cursors

A cursor is a position in a collection together with the stamp the collection had when the
cursor was made. A position is a node, named by its slot, or one of the two sentinels: before
the first element and past the last. Two cursors are equal when their positions are, whatever
their stamps.
-/

namespace AvlCollections

/-- Where a cursor stands. -/
inductive Position where
  /-- Before the first element. -/
  | preBegin
  /-- On the node in slot `slot`. -/
  | node (slot : Nat)
  /-- Past the last element. -/
  | pastEnd
  deriving Repr, DecidableEq, Inhabited

namespace Position

/-- Whether the position is one of the two sentinels. -/
def isSentinel : Position → Bool
  | node _ => false
  | _ => true

end Position

/-- A position stamped with the identity and version of the collection that made it. -/
structure Cursor where
  /-- Where the cursor stands. -/
  position : Position
  /-- The collection's stamp when the cursor was made. -/
  stamp : Stamp
  deriving Repr, Inhabited

namespace Cursor

/-- Cursors are equal when they stand at the same position. -/
def sameAs (c d : Cursor) : Bool :=
  c.position == d.position

end Cursor

end AvlCollections
