import AvlCollections.Stamp

/-! # Errors

The failures that set and map operations report, with their messages.
-/

namespace AvlCollections

/-- Why a set or map operation failed. -/
inductive Error where
  /-- A keyed access named a key that is not stored. -/
  | indexOutOfRange
  /-- An element equivalent to a stored one was added to a set that rejects duplicates. -/
  | duplicateKey
  /-- A cursor could not be used. -/
  | invalidIterator (fault : Fault)
  deriving Repr, DecidableEq, Inhabited

namespace Fault

/-- The text that says why a cursor was refused. -/
def message : Fault → String
  | stale => "the tree was structurally modified after the cursor was created"
  | sentinel => "the cursor is positioned on a sentinel"
  | detached => "the cursor does not refer to a node of this tree"

end Fault

namespace Error

/-- The text of an error. -/
def message : Error → String
  | indexOutOfRange => "index out of range: no entry for the requested key"
  | duplicateKey => "duplicate key rejected by the tree's duplicate policy"
  | invalidIterator f => "invalid iterator: " ++ f.message

end Error

end AvlCollections
