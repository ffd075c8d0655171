import AvlCollections.Set.Basic

/-! # Double-ended iteration

An iterator over a set takes elements from the front and from the back and counts how many
are left, so the two ends never pass each other: once every element has been taken, both ends
answer `none`.
-/

namespace AvlCollections

/-- An iterator over a tree: the next node at each end and the number of elements left. -/
structure Iter (α : Type) where
  /-- The tree being walked. -/
  tree : Tree α
  /-- The path of the next element from the front. -/
  front : Option Path
  /-- The path of the next element from the back. -/
  back : Option Path
  /-- How many elements are left. -/
  remaining : Nat

namespace AvlSet

variable {α : Type}

/-- An iterator over all elements in order. -/
def iter (s : AvlSet α) : Iter α :=
  { tree := s.root, front := s.root.firstPath?, back := s.root.lastPath?, remaining := s.len }

end AvlSet

namespace Iter

variable {α : Type}

/-- Takes the next element from the front. -/
def next (it : Iter α) : Option α × Iter α :=
  if it.remaining = 0 then (none, it)
  else
    match it.front with
    | none => (none, it)
    | some p =>
      match it.tree.nodeAt? p with
      | some (_, x) =>
        (some x, { it with front := it.tree.nextPath? p, remaining := it.remaining - 1 })
      | none => (none, it)

/-- Takes the next element from the back. -/
def nextBack (it : Iter α) : Option α × Iter α :=
  if it.remaining = 0 then (none, it)
  else
    match it.back with
    | none => (none, it)
    | some p =>
      match it.tree.nodeAt? p with
      | some (_, x) =>
        (some x, { it with back := it.tree.prevPath? p, remaining := it.remaining - 1 })
      | none => (none, it)

/-- The number of elements left. -/
def len (it : Iter α) : Nat :=
  it.remaining

/-- The elements left, taken from the front. -/
def rest (it : Iter α) : List α :=
  go it.remaining it
where
  /-- Takes at most `n` elements from the front. -/
  go : Nat → Iter α → List α
    | 0, _ => []
    | n + 1, it =>
      match it.next with
      | (some x, it') => x :: go n it'
      | (none, _) => []

/-- The elements left, taken from the back. -/
def restBack (it : Iter α) : List α :=
  go it.remaining it
where
  /-- Takes at most `n` elements from the back. -/
  go : Nat → Iter α → List α
    | 0, _ => []
    | n + 1, it =>
      match it.nextBack with
      | (some x, it') => x :: go n it'
      | (none, _) => []

/-- The last element left: the next one from the back. -/
def last (it : Iter α) : Option α :=
  it.nextBack.1

/-- How many elements are taken before the front answers `none`. -/
def count (it : Iter α) : Nat :=
  it.rest.length

end Iter

end AvlCollections
