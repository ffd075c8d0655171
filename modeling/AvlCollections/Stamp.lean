/-! # Identity and version stamps

A collection carries a stamp, and so does every cursor it hands out. The identity is 0 until
the collection's first structural change (a new node, a removal, a clear), which gives it a
fresh identity; each structural change also counts one more version. A cursor is refused as
detached when it carries an identity other than 0 and other than the collection's, and as
stale when its version differs.
-/

namespace AvlCollections

/-- Why a cursor cannot be used. -/
inductive Fault where
  /-- The collection changed structurally after the cursor was made. -/
  | stale
  /-- The cursor stands on a sentinel, which has no element and cannot be passed. -/
  | sentinel
  /-- The cursor does not refer to a node of this collection. -/
  | detached
  deriving Repr, DecidableEq, Inhabited

/-- A collection's identity and version. -/
structure Stamp where
  /-- The identity; 0 for a collection that never changed structurally. -/
  id : Nat := 0
  /-- The number of structural changes. -/
  version : Nat := 0
  deriving Repr, DecidableEq, Inhabited

namespace Stamp

/-- The stamp after a structural change; `fresh` is the identity taken if there is none. -/
def touch (s : Stamp) (fresh : Nat) : Stamp :=
  { id := if s.id = 0 then fresh else s.id, version := s.version + 1 }

/-- The stamp of a copy: the same version, and the identity `fresh` unless there is none. -/
def copy (s : Stamp) (fresh : Nat) : Stamp :=
  { s with id := if s.id = 0 then 0 else fresh }

/-- Checks a cursor's stamp `c` against a collection's stamp `t`: identity first, then
version. -/
def check (c t : Stamp) : Except Fault Unit :=
  if c.id ≠ 0 ∧ c.id ≠ t.id then .error .detached
  else if c.version ≠ t.version then .error .stale
  else .ok ()

end Stamp

end AvlCollections
