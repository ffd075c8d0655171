import AvlCollections.Set.Print
import AvlCollections.Proofs.Safety
import AvlCollections.Proofs.Set.Stepping
import AvlCollections.Proofs.Tree.Links

/-! # The shape text written by a cursor walk

The shape text is written by one cursor that goes down a link and climbs back up, never by a
recursion over the children. It is the text that `Tree.shape` describes as soon as every climb
lands on the node the walk came down from, and that holds in every set whose slots are
distinct: a child's path is its parent's path with one more step, and climbing drops that
step. So no cursor error arises on the way.

The walk writes each node's element before its left subtree and that before its right
subtree, so the elements, read left to right, come in pre-order and not in their sorted order:
`Tree.fill` puts texts into the places of a shape in the order they are read.
-/

namespace AvlCollections

namespace Tree

variable {α : Type}

/-- The elements with each node's element first, then its left subtree's, then its right
subtree's. -/
def preorder : Tree α → List α
  | nil => []
  | node l _ v _ r => v :: (l.preorder ++ r.preorder)

/-- The text of the shape `t` whose element texts are taken from `texts` in the order the text
reads them; the texts left over come back with it. -/
def fill : Tree Unit → List String → String × List String
  | nil, texts => ("", texts)
  | node l _ _ _ r, texts =>
    let (left, rest) := l.fill texts.tail
    let (right, rest) := r.fill rest
    ("(" ++ texts.headD "" ++ "," ++ left ++ "," ++ right ++ ")", rest)

/-- The pre-order holds every element once. -/
theorem preorder_perm_toList (t : Tree α) : t.preorder.Perm t.toList := by
  induction t with
  | nil => exact List.Perm.refl _
  | node l s v h r ihl ihr =>
    calc List.Perm (v :: (l.preorder ++ r.preorder)) (v :: (l.toList ++ r.toList)) :=
          (ihl.append ihr).cons v
      List.Perm _ (l.toList ++ v :: r.toList) := List.perm_middle.symm

theorem fill_links_preorder (render : α → String) (t : Tree α) (rest : List String) :
    t.links.fill (t.preorder.map render ++ rest) = (t.shape render, rest) := by
  induction t generalizing rest with
  | nil => rfl
  | node l s v h r ihl ihr =>
    simp [fill, preorder, shape, List.append_assoc, ihl, ihr]

/-- Read left to right, the element texts of the shape text are the elements in pre-order. -/
theorem shape_eq_fill_preorder (render : α → String) (t : Tree α) :
    t.shape render = (t.links.fill (t.preorder.map render)).1 := by
  rw [← List.append_nil (t.preorder.map render), fill_links_preorder]

theorem nodeAt?_of_subtree {t l r : Tree α} {p : Path} {n h : Nat} {v : α}
    (hsub : t.subtree p = node l n v h r) : t.nodeAt? p = some (n, v) := by
  simp [nodeAt?, hsub]

end Tree

namespace AvlSet

variable {α : Type} {s : AvlSet α} {c : Cursor} {p : Path}

theorem elementAt_of_locate (hl : s.locate c = .ok (some p)) {n : Nat} {v : α}
    (hat : s.root.nodeAt? p = some (n, v)) : s.elementAt c = .ok v := by
  simp only [elementAt, locateNode_of_locate_some hl]
  simp [bind, Except.bind, pure, Except.pure, valueAt?_of_nodeAt? hat]

/-- Going down to a child that is there moves the cursor onto it. -/
theorem follow_child_of_node (hl : s.locate c = .ok (some p)) {d : Dir} {l r : Tree α}
    {n h : Nat} {v : α} (hsub : s.root.subtree (p ++ [d]) = .node l n v h r) :
    s.follow c (.child d) = .ok (true, { c with position := .node n }) := by
  simp [follow, link, locateNode_of_locate_some hl, linkFrom, hsub, positionAt,
    Tree.nodeAt?_of_subtree hsub, bind, Except.bind, pure, Except.pure]

theorem follow_child_of_nil (hl : s.locate c = .ok (some p)) {d : Dir}
    (hsub : s.root.subtree (p ++ [d]) = .nil) : s.follow c (.child d) = .ok (false, c) := by
  simp [follow, link, locateNode_of_locate_some hl, linkFrom, hsub, bind, Except.bind, pure,
    Except.pure]

/-- Climbing from a child moves the cursor onto the node one step up its path. -/
theorem follow_parent_of_append {d : Dir} (hl : s.locate c = .ok (some (p ++ [d]))) {n : Nat}
    {v : α} (hat : s.root.nodeAt? p = some (n, v)) :
    s.follow c .parent = .ok (true, { c with position := .node n }) := by
  simp [follow, link, locateNode_of_locate_some hl, linkFrom, positionAt, hat, bind, Except.bind,
    pure, Except.pure]

theorem visitChild_of_nil (hl : s.locate c = .ok (some p)) {d : Dir}
    (hsub : s.root.subtree (p ++ [d]) = .nil) (write : Cursor → Option (String × Cursor)) :
    s.visitChild write d c = some ("", c) := by
  simp [visitChild, follow_child_of_nil hl hsub, Except.toOption]

/-- A located cursor stands on a node, so the subtree at its path is not empty. -/
theorem subtree_ne_nil_of_locate (hl : s.locate c = .ok (some p)) : s.root.subtree p ≠ .nil := by
  obtain ⟨n, -, hpn⟩ := locate_eq_ok_some hl
  obtain ⟨v, hat⟩ := Tree.nodeAt?_of_pathTo? hpn
  exact Tree.isSome_nodeAt?_iff.1 (by simp [hat])

section Nodup

variable (hnd : s.root.slots.Nodup)
include hnd

theorem locate_of_nodeAt? (hck : c.stamp.check s.stamp = .ok ()) {q : Path} {n : Nat} {v : α}
    (hat : s.root.nodeAt? q = some (n, v)) :
    s.locate { c with position := .node n } = .ok (some q) :=
  locate_node_of_check hck rfl (Tree.pathTo?_of_nodeAt? hnd hat)

/-- Going down to a child and climbing back returns the cursor to the node it left. -/
theorem follow_parent_of_child (hl : s.locate c = .ok (some p)) {d : Dir} {l r : Tree α}
    {n h : Nat} {v : α} (hsub : s.root.subtree (p ++ [d]) = .node l n v h r) :
    s.follow { c with position := .node n } .parent = .ok (true, c) := by
  obtain ⟨m, hc, hpm⟩ := locate_eq_ok_some hl
  obtain ⟨x, hat⟩ := Tree.nodeAt?_of_pathTo? hpm
  have hchild : s.locate { c with position := .node n } = .ok (some (p ++ [d])) :=
    locate_of_nodeAt? hnd (check_of_locate hl) (Tree.nodeAt?_of_subtree hsub)
  -- the climb lands on the slot of the node at `p`, which is the cursor's own
  rw [follow_parent_of_append hchild hat, ← hc]

/-- Visiting a child that is there writes what `write` writes from it, when `write` hands the
cursor back where it found it. -/
theorem visitChild_of_node (hl : s.locate c = .ok (some p)) {d : Dir} {l r : Tree α}
    {n h : Nat} {v : α} (hsub : s.root.subtree (p ++ [d]) = .node l n v h r)
    {write : Cursor → Option (String × Cursor)} {text : String}
    (hw : write { c with position := .node n } = some (text, { c with position := .node n })) :
    s.visitChild write d c = some (text, c) := by
  simp [visitChild, follow_child_of_node hl hsub, hw, follow_parent_of_child hnd hl hsub,
    Except.toOption]

/-- Visiting the child on side `d` writes the shape text of the subtree there, given that
`write` does so from any cursor located on that child. -/
theorem visitChild_shape (render : α → String) (hl : s.locate c = .ok (some p)) {d : Dir}
    {u : Tree α} (hsub : s.root.subtree (p ++ [d]) = u) {write : Cursor → Option (String × Cursor)}
    (hw : ∀ c', s.locate c' = .ok (some (p ++ [d])) → write c' = some (u.shape render, c')) :
    s.visitChild write d c = some (u.shape render, c) := by
  cases u with
  | nil => exact visitChild_of_nil hl hsub write
  | node l n v h r =>
    apply visitChild_of_node hnd hl hsub
    exact hw _ (locate_of_nodeAt? hnd (check_of_locate hl) (Tree.nodeAt?_of_subtree hsub))

/-- One level of the walk: from a cursor on a node whose two subtrees the walk writes with
`depth` levels, the walk with one level more writes the node and hands the cursor back. -/
theorem writeSubtree_node (render : α → String) (hl : s.locate c = .ok (some p)) {l r : Tree α}
    {n h depth : Nat} {v : α} (hsub : s.root.subtree p = .node l n v h r)
    (hleft : ∀ c', s.locate c' = .ok (some (p ++ [.left])) →
      s.writeSubtree render depth c' = some (l.shape render, c'))
    (hright : ∀ c', s.locate c' = .ok (some (p ++ [.right])) →
      s.writeSubtree render depth c' = some (r.shape render, c')) :
    s.writeSubtree render (depth + 1) c = some ((Tree.node l n v h r).shape render, c) := by
  obtain ⟨hsubl, hsubr⟩ := Tree.subtree_children hsub
  have hv : s.elementAt c = .ok v := elementAt_of_locate hl (Tree.nodeAt?_of_subtree hsub)
  simp [writeSubtree, hv, visitChild_shape hnd render hl hsubl hleft,
    visitChild_shape hnd render hl hsubr hright, Tree.shape, Except.toOption]

/-- From a cursor on the node at path `p`, a walk that may go as many levels deep as the
subtree there has nodes writes that subtree's shape text and hands the cursor back. -/
theorem writeSubtree_of_locate (render : α → String) (t : Tree α) :
    ∀ {p : Path} {c : Cursor} {depth : Nat}, s.root.subtree p = t →
      s.locate c = .ok (some p) → t.size ≤ depth →
        s.writeSubtree render depth c = some (t.shape render, c) := by
  induction t with
  | nil =>
    intro p c depth hsub hl _
    exact absurd hsub (subtree_ne_nil_of_locate hl)
  | node l n v h r ihl ihr =>
    intro p c depth hsub hl hsize
    -- this node takes one level of the walk, and each child's subtree fits in the rest
    simp only [Tree.size] at hsize
    obtain ⟨depth, rfl⟩ : ∃ k, depth = k + 1 := ⟨depth - 1, by omega⟩
    obtain ⟨hsubl, hsubr⟩ := Tree.subtree_children hsub
    exact writeSubtree_node hnd render hl hsub (fun _ hc' => ihl hsubl hc' (by omega))
      (fun _ hc' => ihr hsubr hc' (by omega))

/-- The walk from the top node writes the shape text of the whole tree. -/
theorem shapeText_eq (render : α → String) : s.shapeText render = some (s.root.shape render) := by
  unfold shapeText top?
  cases hr : s.root with
  | nil => rfl
  | node l n v h r =>
    have hl : s.locate (s.cursorAt (.node n)) = .ok (some []) :=
      locate_cursorAt_node hnd (v := v) (by simp [hr])
    have hw : s.writeSubtree render s.len (s.cursorAt (.node n)) =
        some ((Tree.node l n v h r).shape render, s.cursorAt (.node n)) :=
      writeSubtree_of_locate hnd render _ (by simp [hr]) hl (by simp [len, hr])
    simp [hw]

/-- At every node with a child on side `d`, going down and climbing back returns the cursor. -/
theorem follow_child_returns (hl : s.locate c = .ok (some p)) {d : Dir}
    (hne : s.root.subtree (p ++ [d]) ≠ .nil) :
    ∃ c', s.follow c (.child d) = .ok (true, c') ∧ s.follow c' .parent = .ok (true, c) := by
  cases hsub : s.root.subtree (p ++ [d]) with
  | nil => exact absurd hsub hne
  | node l n v h r => exact ⟨_, follow_child_of_node hl hsub, follow_parent_of_child hnd hl hsub⟩

end Nodup

/-- What the cursor walk writes for a set: the shape text, with no cursor error on the way;
its element texts, read left to right, in pre-order; each element once; every climb back to
the node the walk came down from; and the same text for a copy. -/
structure PrintsShape (s : AvlSet α) : Prop where
  text : ∀ render, s.shapeText render = some (s.root.shape render)
  preorder : ∀ render, s.root.shape render = (s.root.links.fill (s.root.preorder.map render)).1
  elements : s.root.preorder.Perm s.toList
  returns : ∀ c p d, s.locate c = .ok (some p) → s.root.subtree (p ++ [d]) ≠ .nil →
    ∃ c', s.follow c (.child d) = .ok (true, c') ∧ s.follow c' .parent = .ok (true, c)
  copy : ∀ render fresh, (s.copy fresh).shapeText render = s.shapeText render

theorem Valid.printsShape (hv : s.Valid) : s.PrintsShape where
  text render := shapeText_eq hv.accounts.nodup render
  preorder render := Tree.shape_eq_fill_preorder render s.root
  elements := Tree.preorder_perm_toList s.root
  returns _ _ _ hl hne := follow_child_returns hv.accounts.nodup hl hne
  copy render fresh := by
    rw [shapeText_eq (hv.copy fresh).accounts.nodup, shapeText_eq hv.accounts.nodup]
    rfl

end AvlSet

variable {α κ ν : Type}

/-- In every set and every map that the operations build, the cursor walk writes the shape
text of the tree with no cursor error, elements in pre-order, and the same text for a copy. -/
theorem reachable_prints_shape {cmp : α → α → Ordering} [Std.TransCmp cmp] {s : AvlSet α}
    (hs : AvlSet.Reachable cmp s) {keyCmp : κ → κ → Ordering} [Std.TransCmp keyCmp] [BEq ν]
    {m : MultiMap κ ν} (hm : MultiMap.Reachable keyCmp m) :
    s.PrintsShape ∧ m.entries.PrintsShape :=
  ⟨hs.valid.printsShape, AvlSet.Valid.printsShape hm.valid⟩

theorem ofList_prints_shape :
    AvlSet.Reachable compare (AvlSet.ofList (compare : Int → Int → Ordering) [2, 1, 3] 1) ∧
      MultiMap.Reachable compare ((MapOp.extend [((2 : Int), (20 : Int)), (1, 10)]).run 1
        (MultiMap.empty compare)) ∧
      (AvlSet.ofList (compare : Int → Int → Ordering) [2, 1, 3] 1).PrintsShape ∧
      ((MapOp.extend [((2 : Int), (20 : Int)), (1, 10)]).run 1
        (MultiMap.empty compare)).entries.PrintsShape :=
  ⟨AvlSet.Reachable.ofList _ _ _, .apply 1 _ .empty,
    reachable_prints_shape (AvlSet.Reachable.ofList _ _ _) (.apply 1 _ .empty)⟩

/-- The set built from `2`, `1` and `3` writes `(2,(1,,),(3,,))`: read left to right its
elements are `2, 1, 3`, while in sorted order they are `1, 2, 3`, whose text in the same shape
would be `(1,(2,,),(3,,))`. -/
theorem ofList_shape_reads_preorder :
    (AvlSet.ofList (compare : Int → Int → Ordering) [2, 1, 3] 1).shapeText (fun x => toString x) =
        some "(2,(1,,),(3,,))" ∧
      (AvlSet.ofList (compare : Int → Int → Ordering) [2, 1, 3] 1).toList = [1, 2, 3] ∧
      ((AvlSet.ofList (compare : Int → Int → Ordering) [2, 1, 3] 1).root.links.fill
        ([1, 2, 3].map fun x : Int => toString x)).1 = "(1,(2,,),(3,,))" := by
  decide

end AvlCollections
