import AvlCollections.Set.Navigate
import AvlCollections.Proofs.Tree.Nodes

/-! # Locating cursors

A cursor that a set makes carries the set's own stamp, so the set accepts it; when no two
nodes share a slot, the cursor on a node's slot locates that node's path, and reading it gives
the node's element.
-/

namespace AvlCollections

namespace Stamp

@[simp] theorem check_self (s : Stamp) : s.check s = .ok () := by
  simp [check]

end Stamp

namespace AvlSet

variable {α : Type} {s : AvlSet α}

theorem valueAt?_of_nodeAt? {p : Path} {n : Nat} {v : α} (h : s.root.nodeAt? p = some (n, v)) :
    s.valueAt? p = some v := by
  simp [valueAt?, h]

theorem cursorAtPath_of_nodeAt? {p : Path} {n : Nat} {v : α}
    (h : s.root.nodeAt? p = some (n, v)) : s.cursorAtPath (some p) = s.cursorAt (.node n) := by
  simp [cursorAtPath, h]

/-- A set accepts a cursor only after the cursor's stamp passes the check. -/
theorem check_of_locate {c : Cursor} {r : Option Path} (h : s.locate c = .ok r) :
    c.stamp.check s.stamp = .ok () := by
  unfold locate at h
  cases hck : c.stamp.check s.stamp with
  | error f =>
    rw [hck] at h
    cases h
  | ok u => rfl

/-- A cursor located on a path stands on a node whose slot has that path. -/
theorem locate_eq_ok_some {c : Cursor} {p : Path} (h : s.locate c = .ok (some p)) :
    ∃ n, c.position = .node n ∧ s.root.pathTo? n = some p := by
  unfold locate at h
  cases hck : c.stamp.check s.stamp with
  | error f =>
    rw [hck] at h
    cases h
  | ok u =>
    rw [hck] at h
    simp only [bind, Except.bind] at h
    split at h
    · next n hpos =>
      split at h
      · next q hq =>
        cases h
        exact ⟨n, hpos, hq⟩
      · cases h
    · cases h

theorem locate_of_locateNode {c : Cursor} {p : Path} (h : s.locateNode c = .ok p) :
    s.locate c = .ok (some p) := by
  unfold locateNode at h
  cases hl : s.locate c with
  | error f =>
    rw [hl] at h
    cases h
  | ok r =>
    rw [hl] at h
    cases r with
    | none => cases h
    | some q =>
      cases h
      rfl

/-- Once the check passes, a cursor on a node is located by its slot. -/
theorem locate_node_of_check {c : Cursor} {n : Nat} {p : Path}
    (h : c.stamp.check s.stamp = .ok ()) (hpos : c.position = .node n)
    (hp : s.root.pathTo? n = some p) : s.locate c = .ok (some p) := by
  simp only [locate, h, hpos, hp]
  rfl

/-- Once the check passes, a sentinel is located nowhere. -/
theorem locate_sentinel_of_check {c : Cursor} (h : c.stamp.check s.stamp = .ok ())
    (hpos : c.position.isSentinel) : s.locate c = .ok none := by
  unfold locate
  rw [h]
  cases hc : c.position with
  | node n => simp [hc, Position.isSentinel] at hpos
  | preBegin => rfl
  | pastEnd => rfl

/-- Once the check passes, a cursor is located unless it stands on a slot the tree lacks. -/
theorem locate_of_check {c : Cursor} (h : c.stamp.check s.stamp = .ok ())
    (hmem : ∀ n, c.position = .node n → n ∈ s.root.slots) : ∃ r, s.locate c = .ok r := by
  cases hpos : c.position with
  | node n =>
    obtain ⟨p, hp⟩ := Tree.pathTo?_of_mem (hmem n hpos)
    exact ⟨some p, locate_node_of_check h hpos hp⟩
  | preBegin => exact ⟨none, locate_sentinel_of_check h (by rw [hpos]; rfl)⟩
  | pastEnd => exact ⟨none, locate_sentinel_of_check h (by rw [hpos]; rfl)⟩

section Nodup

variable (hnd : s.root.slots.Nodup)
include hnd

/-- A set finds the node of a cursor it made on that node's slot. -/
theorem locate_cursorAt_node {p : Path} {n : Nat} {v : α} (h : s.root.nodeAt? p = some (n, v)) :
    s.locate (s.cursorAt (.node n)) = .ok (some p) := by
  have hp : s.root.pathTo? n = some p := Tree.pathTo?_of_nodeAt? hnd h
  simp only [locate, cursorAt, Stamp.check_self, hp]
  rfl

theorem elementAt_cursorAt_node {p : Path} {n : Nat} {v : α} (h : s.root.nodeAt? p = some (n, v)) :
    s.elementAt (s.cursorAt (.node n)) = .ok v := by
  simp only [elementAt, locateNode, locate_cursorAt_node hnd h]
  simp [bind, Except.bind, pure, Except.pure, valueAt?_of_nodeAt? h]

/-- The cursor on the node at a path reads that node's element. -/
theorem elementAt_cursorAtPath {p : Path} {n : Nat} {v : α} (h : s.root.nodeAt? p = some (n, v)) :
    s.elementAt (s.cursorAtPath (some p)) = .ok v := by
  rw [cursorAtPath_of_nodeAt? h]
  exact elementAt_cursorAt_node hnd h

end Nodup

end AvlSet

end AvlCollections
