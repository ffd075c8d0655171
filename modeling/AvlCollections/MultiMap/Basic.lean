import AvlCollections.Set.Basic
import AvlCollections.MultiMap.Entry

/-! # Ordered multi-maps

A `MultiMap` is a set of entries ordered by their keys: one entry per class of equivalent
keys, each holding a non-empty list of values. An entry keeps the spelling of the key that
created it. Editing an entry's values changes no structure; only a new entry, a removed entry
or a clear touches the stamp, and those operations take the identity `fresh` that the map
adopts if it has none yet.
-/

namespace AvlCollections

/-- Entries ordered by `keyCmp` on their keys. -/
structure MultiMap (κ ν : Type) where
  /-- The order on keys; keys it calls equal share one entry. -/
  keyCmp : κ → κ → Ordering
  /-- The tree of entries. -/
  root : Tree (Entry κ ν) := .nil
  /-- The slots of the tree's nodes. -/
  pool : SlotPool := {}
  /-- Identity and version. -/
  stamp : Stamp := {}

namespace MultiMap

variable {κ ν : Type}

/-- The empty map ordered by `keyCmp`. -/
def empty (keyCmp : κ → κ → Ordering) : MultiMap κ ν :=
  { keyCmp }

/-- The map's entries as a set ordered by key. -/
def entries (m : MultiMap κ ν) : AvlSet (Entry κ ν) :=
  { cmp := Entry.byKey m.keyCmp, root := m.root, pool := m.pool, stamp := m.stamp }

/-- The map whose entries are those of the set `s`. -/
def withEntries (m : MultiMap κ ν) (s : AvlSet (Entry κ ν)) : MultiMap κ ν :=
  { m with root := s.root, pool := s.pool, stamp := s.stamp }

/-- The number of entries. -/
def len (m : MultiMap κ ν) : Nat :=
  m.root.size

/-- Whether the map has no entry. -/
def isEmpty (m : MultiMap κ ν) : Bool :=
  m.root.isEmpty

/-- The entries in key order. -/
def toList (m : MultiMap κ ν) : List (Entry κ ν) :=
  m.root.toList

/-- The number of values over all entries. -/
def valueCount (m : MultiMap κ ν) : Nat :=
  (m.toList.map fun e => e.values.length).foldr (· + ·) 0

/-- The keys in order. -/
def keys (m : MultiMap κ ν) : List κ :=
  m.toList.map (·.key)

/-- The path to the entry whose key is equivalent to `k`. -/
def locate (m : MultiMap κ ν) (k : κ) : Option Path :=
  m.entries.findBy fun e => m.keyCmp k e.key

/-- The entry whose key is equivalent to `k`. -/
def entry? (m : MultiMap κ ν) (k : κ) : Option (Entry κ ν) :=
  (m.locate k).bind m.entries.valueAt?

/-- The newest value stored under `k`. -/
def get? (m : MultiMap κ ν) (k : κ) : Option ν :=
  (m.entry? k).map (·.value)

/-- The newest value stored under `k`, or `Error.indexOutOfRange`. -/
def lookup (m : MultiMap κ ν) (k : κ) : Except Error ν :=
  match m.get? k with
  | some v => .ok v
  | none => .error .indexOutOfRange

/-- The values stored under `k`, oldest first. -/
def values? (m : MultiMap κ ν) (k : κ) : Option (List ν) :=
  (m.entry? k).map (·.values)

/-- Whether some entry's key is equivalent to `k`. -/
def containsKey (m : MultiMap κ ν) (k : κ) : Bool :=
  (m.locate k).isSome

/-- The entry of the smallest key. -/
def first? (m : MultiMap κ ν) : Option (Entry κ ν) :=
  m.entries.min?

/-- The entry of the largest key. -/
def last? (m : MultiMap κ ν) : Option (Entry κ ν) :=
  m.entries.max?

/-- Adds `e` as a new entry, or edits the entry of an equivalent key with `merge e`.
Returns the edited entry as it was before. -/
def upsert (m : MultiMap κ ν) (e : Entry κ ν) (merge : Entry κ ν → Entry κ ν → Entry κ ν)
    (fresh : Nat) : Option (Entry κ ν) × MultiMap κ ν :=
  match m.entries.place e fresh with
  | .added _ s => (none, m.withEntries s)
  | .found _ p => (m.entries.valueAt? p, m.withEntries (m.entries.modifyAt p (merge e)))

/-- Stores `[v]` under `k`; returns the values that it displaces. -/
def insert (m : MultiMap κ ν) (k : κ) (v : ν) (fresh : Nat) : Option (List ν) × MultiMap κ ν :=
  let (old, m') := m.upsert (Entry.single k v) Entry.takeValues fresh
  (old.map (·.values), m')

/-- Adds `v` after the values stored under `k`. -/
def insertMulti (m : MultiMap κ ν) (k : κ) (v : ν) (fresh : Nat) : MultiMap κ ν :=
  (m.upsert (Entry.single k v) Entry.appendValues fresh).2

/-- Adds `e` as a new entry; fails, changing nothing, when its key is taken. -/
def insertEntry (m : MultiMap κ ν) (e : Entry κ ν) (fresh : Nat) : Option (MultiMap κ ν) :=
  match m.entries.place e fresh with
  | .added _ s => some (m.withEntries s)
  | .found _ _ => none

/-- Applies `f` to the newest value under `k`, first adding the entry `[d]` when there is
none; returns the new value. -/
def alterOrInsert (m : MultiMap κ ν) (k : κ) (d : ν) (f : ν → ν) (fresh : Nat) :
    ν × MultiMap κ ν :=
  let m' :=
    match m.locate k with
    | some _ => m
    | none =>
      match m.entries.place (Entry.single k d) fresh with
      | .added _ s => m.withEntries s
      | .found _ _ => m
  match m'.locate k with
  | some p =>
    let m'' := m'.withEntries (m'.entries.modifyAt p (Entry.modifyValue f))
    match m''.entries.valueAt? p with
    | some e => (e.value, m'')
    | none => (d, m'')
  | none => (d, m')

/-- Sets the newest value of the entry at path `p` to `v`. -/
def setValueAt (m : MultiMap κ ν) (p : Path) (v : ν) : MultiMap κ ν :=
  m.withEntries (m.entries.modifyAt p (Entry.modifyValue fun _ => v))

/-- Sets the newest value under `k` to `v`; `none` when no entry has the key. -/
def setValue? (m : MultiMap κ ν) (k : κ) (v : ν) : Option (MultiMap κ ν) :=
  (m.locate k).map fun p => m.setValueAt p v

/-- Removes the entry of `k` and returns its values. -/
def remove (m : MultiMap κ ν) (k : κ) (fresh : Nat) : Option (List ν) × MultiMap κ ν :=
  match m.locate k with
  | some p =>
    let (e, s) := m.entries.eraseAt p fresh
    (e.map (·.values), m.withEntries s)
  | none => (none, m)

/-- Removes every value equal to `v` from the entry of `k` and returns how many went; an
entry left without values is removed. -/
def removeValue [BEq ν] (m : MultiMap κ ν) (k : κ) (v : ν) (fresh : Nat) : Nat × MultiMap κ ν :=
  match m.locate k with
  | none => (0, m)
  | some p =>
    match m.entries.valueAt? p with
    | none => (0, m)
    | some e =>
      let (kept, dropped) := e.dropValue v
      match Entry.ofValues? e.key kept with
      | some e' => (dropped, m.withEntries (m.entries.modifyAt p fun _ => e'))
      | none => (dropped, m.withEntries (m.entries.eraseAt p fresh).2)

/-- Removes every entry. -/
def clear (m : MultiMap κ ν) (fresh : Nat) : MultiMap κ ν :=
  m.withEntries (m.entries.clear fresh)

/-- A copy with a fresh identity, unless this map has none. -/
def copy (m : MultiMap κ ν) (fresh : Nat) : MultiMap κ ν :=
  m.withEntries (m.entries.copy fresh)

/-- Stores each pair in turn with `insert`. -/
def extend (m : MultiMap κ ν) (pairs : List (κ × ν)) (fresh : Nat) : MultiMap κ ν :=
  pairs.foldl (fun acc (k, v) => (acc.insert k v fresh).2) m

/-- The map of `pairs` under `keyCmp`, stored in turn into an empty map. -/
def ofList (keyCmp : κ → κ → Ordering) (pairs : List (κ × ν)) (fresh : Nat) : MultiMap κ ν :=
  (empty keyCmp).extend pairs fresh

end MultiMap

end AvlCollections
