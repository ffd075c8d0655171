import AvlCollections.Tree.Insert
import AvlCollections.Tree.Erase
import AvlCollections.Tree.Walk
import AvlCollections.SlotPool
import AvlCollections.Cursor
import AvlCollections.Error

/-! # Ordered sets

An `AvlSet` keeps pairwise inequivalent elements in an AVL tree ordered by its comparator,
with the slots of its nodes, its stamp and its duplicate policy. Operations that change the
tree's structure (a new node, a removal, a clear) touch the stamp; they take the identity
`fresh` that the set adopts if it has none yet. Replacing a stored element in place is not a
structural change.
-/

namespace AvlCollections

/-- What adding an element equivalent to a stored one does. -/
inductive Policy where
  /-- The addition fails with `Error.duplicateKey`. -/
  | reject
  /-- The stored element is overwritten by the new one. -/
  | replace
  deriving Repr, DecidableEq, Inhabited

/-- A set of elements ordered by `cmp`, stored in an AVL tree of numbered slots. -/
structure AvlSet (α : Type) where
  /-- The order; elements it calls equal are duplicates. -/
  cmp : α → α → Ordering
  /-- The tree of elements. -/
  root : Tree α := .nil
  /-- The slots of the tree's nodes. -/
  pool : SlotPool := {}
  /-- Identity and version. -/
  stamp : Stamp := {}
  /-- What `add` does with a duplicate. -/
  policy : Policy := .reject

/-- The outcome of placing an element in a set. -/
inductive Placed (α : Type) where
  /-- The element went into a new node in slot `slot`; this is the new set. -/
  | added (slot : Nat) (s : AvlSet α)
  /-- An equivalent element is stored in slot `slot`, at `path`. -/
  | found (slot : Nat) (path : Path)

namespace AvlSet

variable {α : Type}

/-- The empty set ordered by `cmp` whose slot storage holds `capacity` nodes. -/
def empty (cmp : α → α → Ordering) (capacity : Nat) : AvlSet α :=
  { cmp, pool := SlotPool.withCapacity capacity }

/-- The number of elements. -/
def len (s : AvlSet α) : Nat :=
  s.root.size

/-- Whether the set has no element. -/
def isEmpty (s : AvlSet α) : Bool :=
  s.root.isEmpty

/-- The height of the tree; 0 when empty. -/
def height (s : AvlSet α) : Nat :=
  s.root.height

/-- The elements in order. -/
def toList (s : AvlSet α) : List α :=
  s.root.toList

/-- How many nodes the slot storage holds before it grows. -/
def capacity (s : AvlSet α) : Nat :=
  s.pool.capacity

/-- The same set with another duplicate policy; cursors stay valid. -/
def withPolicy (s : AvlSet α) (policy : Policy) : AvlSet α :=
  { s with policy }

/-- A cursor at `pos` stamped with this set's stamp. -/
def cursorAt (s : AvlSet α) (pos : Position) : Cursor :=
  { position := pos, stamp := s.stamp }

/-- The cursor on the node that a path reaches, or past the end when there is none. -/
def cursorAtPath (s : AvlSet α) : Option Path → Cursor
  | some p =>
    match s.root.nodeAt? p with
    | some (slot, _) => s.cursorAt (.node slot)
    | none => s.cursorAt .pastEnd
  | none => s.cursorAt .pastEnd

/-- The element of the node that a path reaches. -/
def valueAt? (s : AvlSet α) (p : Path) : Option α :=
  (s.root.nodeAt? p).map (·.2)

/-- Places `x` in a new node, unless an equivalent element is stored. -/
def place (s : AvlSet α) (x : α) (fresh : Nat) : Placed α :=
  match s.root.insert s.cmp x s.pool.next with
  | .added t =>
    .added s.pool.next { s with root := t, pool := s.pool.alloc, stamp := s.stamp.touch fresh }
  | .occupied slot p => .found slot p

/-- Adds `x` and returns a cursor on it. A duplicate is refused under `Policy.reject` and
overwrites the stored element under `Policy.replace`, which is no structural change. -/
def add (s : AvlSet α) (x : α) (fresh : Nat) : Except Error Cursor × AvlSet α :=
  match s.place x fresh with
  | .added slot s' => (.ok (s'.cursorAt (.node slot)), s')
  | .found slot p =>
    match s.policy with
    | .reject => (.error .duplicateKey, s)
    | .replace =>
      let s' := { s with root := s.root.setAt x p }
      (.ok (s'.cursorAt (.node slot)), s')

/-- Adds every element in turn; refused duplicates are dropped. -/
def extend (s : AvlSet α) (xs : List α) (fresh : Nat) : AvlSet α :=
  xs.foldl (fun acc x => (acc.add x fresh).2) s

/-- The set of `xs` under `cmp`, added in turn to an empty set. -/
def ofList (cmp : α → α → Ordering) (xs : List α) (fresh : Nat) : AvlSet α :=
  (empty cmp 0).extend xs fresh

/-- Applies `f` to the element at a path; `f` must keep it in its equivalence class. -/
def modifyAt (s : AvlSet α) (p : Path) (f : α → α) : AvlSet α :=
  { s with root := s.root.modifyAt f p }

/-- Removes the node at a path and returns its element. -/
def eraseAt (s : AvlSet α) (p : Path) (fresh : Nat) : Option α × AvlSet α :=
  match s.root.eraseAt p with
  | some (x, freed, t) =>
    (some x, { s with root := t, pool := s.pool.release freed, stamp := s.stamp.touch fresh })
  | none => (none, s)

/-- The path to the element at which `probe` answers `eq`. -/
def findBy (s : AvlSet α) (probe : α → Ordering) : Option Path :=
  s.root.find? probe

/-- The path to the element equivalent to `x`. -/
def find (s : AvlSet α) (x : α) : Option Path :=
  s.findBy (s.cmp x)

/-- Removes the element at which `probe` answers `eq`, and returns it. -/
def removeBy (s : AvlSet α) (probe : α → Ordering) (fresh : Nat) : Option α × AvlSet α :=
  match s.findBy probe with
  | some p => s.eraseAt p fresh
  | none => (none, s)

/-- Removes the element equivalent to `x`, and returns it. -/
def remove (s : AvlSet α) (x : α) (fresh : Nat) : Option α × AvlSet α :=
  s.removeBy (s.cmp x) fresh

/-- Removes every element; the slot storage is kept. -/
def clear (s : AvlSet α) (fresh : Nat) : AvlSet α :=
  { s with root := .nil, pool := s.pool.reset, stamp := s.stamp.touch fresh }

/-- A copy with the same tree and version and a fresh identity, unless this set has none. -/
def copy (s : AvlSet α) (fresh : Nat) : AvlSet α :=
  { s with pool := s.pool.copy, stamp := s.stamp.copy fresh }

/-- The stored element at which `probe` answers `eq`. -/
def getBy (s : AvlSet α) (probe : α → Ordering) : Option α :=
  (s.findBy probe).bind s.valueAt?

/-- The stored element equivalent to `x`. -/
def get (s : AvlSet α) (x : α) : Option α :=
  (s.find x).bind s.valueAt?

/-- Whether an element equivalent to `x` is stored. -/
def contains (s : AvlSet α) (x : α) : Bool :=
  (s.get x).isSome

/-- The smallest element. -/
def min? (s : AvlSet α) : Option α :=
  s.root.firstPath?.bind s.valueAt?

/-- The largest element. -/
def max? (s : AvlSet α) : Option α :=
  s.root.lastPath?.bind s.valueAt?

/-- A cursor on the element equivalent to `x`. -/
def search (s : AvlSet α) (x : α) : Option Cursor :=
  (s.find x).map fun p => s.cursorAtPath (some p)

/-- A cursor on the smallest element, or past the end of an empty set. -/
def first (s : AvlSet α) : Cursor :=
  s.cursorAtPath s.root.firstPath?

/-- A cursor on the largest element, or before the beginning of an empty set. -/
def last (s : AvlSet α) : Cursor :=
  match s.root.lastPath? with
  | some p => s.cursorAtPath (some p)
  | none => s.cursorAt .preBegin

/-- The cursor past the end. -/
def pastEnd (s : AvlSet α) : Cursor :=
  s.cursorAt .pastEnd

/-- The cursor before the beginning. -/
def preBegin (s : AvlSet α) : Cursor :=
  s.cursorAt .preBegin

/-- A cursor on the root node. -/
def top? (s : AvlSet α) : Option Cursor :=
  match s.root with
  | .node _ slot _ _ _ => some (s.cursorAt (.node slot))
  | .nil => none

end AvlSet

end AvlCollections
