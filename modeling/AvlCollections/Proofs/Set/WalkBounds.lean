import AvlCollections.Proofs.Tree.Rotation
import AvlCollections.Proofs.Set.Print

/-! # How far the walks along the links go

Every loop of the operations follows links of the tree, down to a child or up to a parent,
and its length is bounded by the tree's cached height, because a node's depth and the height
under it add up to at most the height of the whole tree (`length_add_height_subtree_le`):

* a search, and the descent of an insertion, walks down `searchPath` and visits at most
  `height` nodes;
* the walk to the smallest or largest node of a subtree takes fewer steps than the subtree is
  tall;
* a climb to an ancestor stops below the node it started from, which lies less than `height`
  levels deep, and so do the climbs that rebalance after an insertion (from the place of the
  new node) and after a removal (from the node it unlinks);
* a removal unlinks the node at its path when that has at most one child, and otherwise the
  smallest node of its right subtree, which has no left child: the second removal that takes
  the successor away needs no third;
* the successor walk from the first node visits every node once and stops after as many steps
  as there are nodes;
* the cursor walk that writes the shape text goes exactly `height` levels deep: with fewer it
  runs out, with as many it finishes.
-/

namespace AvlCollections

/-- A climb lands on an ancestor, which lies less deep than the node it started from. -/
theorem Path.length_lt_of_climbFrom? {d : Dir} {p q : Path} (h : p.climbFrom? d = some q) :
    q.length < p.length := by
  obtain ⟨w, rfl⟩ := Path.eq_append_of_climbFrom? h
  simp

namespace Tree

variable {α : Type}

/-! ## Depth against height -/

theorem one_le_height {t : Tree α} (ht : t.HeightsRight) (hne : t ≠ nil) : 1 ≤ t.height := by
  cases t with
  | nil => exact absurd rfl hne
  | node l s v h r =>
    rw [height_node, ht.2.2]
    omega

/-- A node's depth and the height of the subtree under it add up to at most the height of the
tree. -/
theorem length_add_height_subtree_le {t : Tree α} (ht : t.HeightsRight) {p : Path}
    (hp : t.subtree p ≠ nil) : p.length + (t.subtree p).height ≤ t.height := by
  induction t generalizing p with
  | nil => simp at hp
  | node l s v h r ihl ihr =>
    obtain ⟨hl, hr, rfl⟩ := ht
    match p with
    | [] => simp
    | .left :: q =>
      have hq := ihl hl (p := q) hp
      simp only [subtree, List.length_cons, height_node] at hq ⊢
      omega
    | .right :: q =>
      have hq := ihr hr (p := q) hp
      simp only [subtree, List.length_cons, height_node] at hq ⊢
      omega

/-- Every node lies less deep than the tree is tall. -/
theorem length_lt_height {t : Tree α} (ht : t.HeightsRight) {p : Path} (hp : t.subtree p ≠ nil) :
    p.length < t.height := by
  have hsum := length_add_height_subtree_le ht hp
  have hone := one_le_height (ht.subtree p) hp
  omega

/-! ## Searching -/

/-- The path that a search walks down: at each node it stops where `probe` answers `eq`, and
goes on into the left child on `lt` and into the right child on `gt`. It ends on the node where
the search stopped, or where it fell off the tree. -/
def searchPath (probe : α → Ordering) : Tree α → Path
  | nil => []
  | node l _ v _ r =>
    match probe v with
    | .lt => .left :: l.searchPath probe
    | .gt => .right :: r.searchPath probe
    | .eq => []

/-- A search finds the node where its path ends, if the path ends on one. -/
theorem find?_eq_some_iff {t : Tree α} {probe : α → Ordering} {p : Path} :
    t.find? probe = some p ↔ p = t.searchPath probe ∧ t.subtree p ≠ nil := by
  induction t generalizing p with
  | nil => simp [find?, searchPath]
  | node l s v h r ihl ihr =>
    cases hv : probe v with
    | lt =>
      simp only [find?, searchPath, hv, Option.map_eq_some_iff, ihl]
      constructor
      · rintro ⟨q, ⟨rfl, hq⟩, rfl⟩
        exact ⟨rfl, hq⟩
      · rintro ⟨rfl, hq⟩
        exact ⟨_, ⟨rfl, hq⟩, rfl⟩
    | gt =>
      simp only [find?, searchPath, hv, Option.map_eq_some_iff, ihr]
      constructor
      · rintro ⟨q, ⟨rfl, hq⟩, rfl⟩
        exact ⟨rfl, hq⟩
      · rintro ⟨rfl, hq⟩
        exact ⟨_, ⟨rfl, hq⟩, rfl⟩
    | eq =>
      simp only [find?, searchPath, hv, Option.some.injEq]
      constructor
      · rintro rfl
        exact ⟨rfl, by simp⟩
      · rintro ⟨rfl, -⟩
        rfl

/-- A search walks down at most as many levels as the tree is tall. -/
theorem length_searchPath_le {t : Tree α} (ht : t.HeightsRight) (probe : α → Ordering) :
    (t.searchPath probe).length ≤ t.height := by
  induction t with
  | nil => simp [searchPath]
  | node l s v h r ihl ihr =>
    obtain ⟨hl, hr, rfl⟩ := ht
    have hl' := ihl hl
    have hr' := ihr hr
    simp only [searchPath, height_node]
    split <;> simp <;> omega

variable {cmp : α → α → Ordering} {x : α} {slot : Nat}

/-- Insertion descends along the search path of the new element: it stops at the node where
that path ends, when there is one. -/
theorem eq_searchPath_of_insert_occupied {t : Tree α} {n : Nat} {p : Path}
    (ins : t.insert cmp x slot = .occupied n p) : p = t.searchPath (cmp x) := by
  induction t generalizing p with
  | nil => cases ins
  | node l s v h r ihl ihr =>
    rcases insert_eq_occupied ins with ⟨hc, q, hl, rfl⟩ | ⟨hc, q, hr, rfl⟩ | ⟨hc, -, rfl⟩
    · simp [searchPath, hc, ihl hl]
    · simp [searchPath, hc, ihr hr]
    · simp [searchPath, hc]

/-- Insertion adds a node only where the search path of the new element falls off the tree. -/
theorem subtree_searchPath_of_insert_added {t t' : Tree α}
    (ins : t.insert cmp x slot = .added t') : t.subtree (t.searchPath (cmp x)) = nil := by
  induction t generalizing t' with
  | nil => rfl
  | node l s v h r ihl ihr =>
    rcases insert_eq_added ins with ⟨hc, l', hl, -⟩ | ⟨hc, r', hr, -⟩
    · simpa [searchPath, hc, subtree] using ihl hl
    · simpa [searchPath, hc, subtree] using ihr hr

/-! ## Spines -/

theorem length_leftSpine_lt {t : Tree α} (ht : t.HeightsRight) (hne : t ≠ nil) :
    t.leftSpine.length < t.height :=
  length_lt_height ht (subtree_leftSpine hne)

theorem length_rightSpine_lt {t : Tree α} (ht : t.HeightsRight) (hne : t ≠ nil) :
    t.rightSpine.length < t.height :=
  length_lt_height ht (subtree_rightSpine hne)

/-! ## What a removal unlinks -/

/-- `eraseMin` takes out the leftmost node of the tree with parts `l`, `s`, `v`, `r`, which has
no left child. -/
theorem leftmost_of_eraseMin {l r t' : Tree α} {s : Nat} {v : α} (h : Nat) {ms : Nat} {mv : α}
    (hm : eraseMin l s v r = (ms, mv, t')) :
    (node l s v h r).nodeAt? (node l s v h r).leftSpine = some (ms, mv) ∧
      (node l s v h r).subtree ((node l s v h r).leftSpine ++ [Dir.left]) = nil := by
  induction l generalizing s v h r t' with
  | nil =>
    simp only [eraseMin, Prod.mk.injEq] at hm
    obtain ⟨rfl, rfl, -⟩ := hm
    simp [leftSpine, subtree]
  | node ll ls lv lh lr ihl _ =>
    obtain ⟨l', hm', -⟩ := eraseMin_node_eq hm
    simpa [leftSpine, subtree] using ihl lh hm'

/-- The node that a removal at `p` unlinks: the node at `p` itself when it has at most one
child; otherwise the smallest node of its right subtree, whose slot is the one freed and which
has no left child, so that taking it out is a removal with at most one child. -/
theorem eraseAt_unlinks {t t' : Tree α} {p : Path} {x : α} {freed : Nat}
    (h : t.eraseAt p = some (x, freed, t')) :
    (t.nodeAt? p = some (freed, x) ∧
        (t.subtree (p ++ [Dir.left]) = nil ∨ t.subtree (p ++ [Dir.right]) = nil)) ∨
      (t.subtree (p ++ [Dir.left]) ≠ nil ∧ ∃ v,
        t.nodeAt? (p ++ Dir.right :: (t.subtree (p ++ [Dir.right])).leftSpine) = some (freed, v) ∧
        t.subtree (p ++ Dir.right :: (t.subtree (p ++ [Dir.right])).leftSpine ++ [Dir.left]) =
          nil) := by
  induction t generalizing p t' with
  | nil => simp [eraseAt] at h
  | node l s v hh r ihl ihr =>
    rcases eraseAt_node_eq h with ⟨rfl, rfl, htop⟩ | ⟨q, l', rfl, hl, -⟩ | ⟨q, r', rfl, hr, -⟩
    · -- the top goes: with at most one child it is unlinked itself
      rcases eraseTop_eq htop with ⟨rfl, rfl, -⟩ | ⟨rfl, rfl, -⟩ |
        ⟨rl, rs, rv, rh, rr, mv, r', rfl, hm, -⟩
      · exact .inl ⟨rfl, .inl rfl⟩
      · exact .inl ⟨rfl, .inr rfl⟩
      · cases l with
        | nil =>
          -- no left child: the top is unlinked after all
          simp only [eraseTop, Prod.mk.injEq] at htop
          exact .inl ⟨by rw [htop.1]; rfl, .inl rfl⟩
        | node ll ls lv lh lr =>
          -- two children: the smallest node of the right subtree goes in its place
          obtain ⟨hat, hleft⟩ := leftmost_of_eraseMin rh hm
          exact .inr ⟨by simp [subtree], mv, by simpa [subtree] using hat,
            by simpa [subtree] using hleft⟩
    · rcases ihl hl with ⟨hat, hch⟩ | ⟨hne, w, hat, hleft⟩
      · exact .inl ⟨hat, by simpa [subtree] using hch⟩
      · exact .inr ⟨by simpa [subtree] using hne, w, by simpa [subtree] using hat,
          by simpa [subtree] using hleft⟩
    · rcases ihr hr with ⟨hat, hch⟩ | ⟨hne, w, hat, hleft⟩
      · exact .inl ⟨hat, by simpa [subtree] using hch⟩
      · exact .inr ⟨by simpa [subtree] using hne, w, by simpa [subtree] using hat,
          by simpa [subtree] using hleft⟩

/-! ## The successor walk -/

/-- `k` steps of the successor walk from the first node reach the `k`-th node of the in-order
walk, and nothing once every node has been passed. -/
theorem iterate_nextPath? (t : Tree α) (k : Nat) :
    (fun o => o.bind t.nextPath?)^[k] t.firstPath? = t.paths[k]? := by
  induction k with
  | zero => rw [Function.iterate_zero_apply, ← head?_paths, List.head?_eq_getElem?]
  | succ k ih =>
    rw [Function.iterate_succ_apply', ih]
    rcases Nat.lt_or_ge k t.paths.length with hk | hk
    · rw [List.getElem?_eq_getElem hk, Option.bind_some, nextPath?_getElem_paths t k hk]
    · rw [List.getElem?_eq_none hk, List.getElem?_eq_none (by omega)]
      rfl

/-- Removal unlinks a node within the height: one at or below `p` with at most one child, which
holds the slot that is freed. -/
theorem eraseAt_unlinks_within {t t' : Tree α} (ht : t.HeightsRight) {p : Path} {x : α}
    {freed : Nat} (h : t.eraseAt p = some (x, freed, t')) :
    ∃ u y, (u = p ∨ u = p ++ Dir.right :: (t.subtree (p ++ [Dir.right])).leftSpine) ∧
      u.length < t.height ∧ t.nodeAt? u = some (freed, y) ∧
      (t.subtree (u ++ [Dir.left]) = nil ∨ t.subtree (u ++ [Dir.right]) = nil) := by
  have hdeep : ∀ {u y}, t.nodeAt? u = some (freed, y) → u.length < t.height := fun hat =>
    length_lt_height ht (isSome_nodeAt?_iff.1 (by simp [hat]))
  rcases eraseAt_unlinks h with ⟨hat, hch⟩ | ⟨-, y, hat, hleft⟩
  · exact ⟨p, x, .inl rfl, hdeep hat, hat, hch⟩
  · exact ⟨_, y, .inr rfl, hdeep hat, hat, .inl (by simpa using hleft)⟩

end Tree

namespace AvlSet

variable {α : Type} {s : AvlSet α} {c : Cursor} {p : Path}

/-! ## The depth of the print walk -/

section Nodup

variable (hnd : s.root.slots.Nodup)
include hnd

/-- Visiting a child that is there fails when `write` fails from it. -/
theorem visitChild_eq_none (hl : s.locate c = .ok (some p)) {d : Dir}
    (hne : s.root.subtree (p ++ [d]) ≠ .nil) {write : Cursor → Option (String × Cursor)}
    (hw : ∀ c', s.locate c' = .ok (some (p ++ [d])) → write c' = none) :
    s.visitChild write d c = none := by
  cases hsub : s.root.subtree (p ++ [d]) with
  | nil => exact absurd hsub hne
  | node l n v h r =>
    have hc := hw _ (locate_of_nodeAt? hnd (check_of_locate hl) (Tree.nodeAt?_of_subtree hsub))
    simp [visitChild, follow_child_of_node hl hsub, hc, Except.toOption]

/-- From a cursor on the node at path `p`, a walk that may go as many levels deep as the
subtree there is tall writes that subtree's shape text and hands the cursor back. -/
theorem writeSubtree_of_height_le (render : α → String) (t : Tree α) (ht : t.HeightsRight) :
    ∀ {p : Path} {c : Cursor} {depth : Nat}, s.root.subtree p = t →
      s.locate c = .ok (some p) → t.height ≤ depth →
        s.writeSubtree render depth c = some (t.shape render, c) := by
  induction t with
  | nil =>
    intro p c depth hsub hl _
    exact absurd hsub (subtree_ne_nil_of_locate hl)
  | node l n v h r ihl ihr =>
    intro p c depth hsub hl hh
    obtain ⟨hlh, hrh, rfl⟩ := ht
    -- this node takes one level of the walk, and each child's subtree fits in the rest
    simp only [Tree.height_node] at hh
    obtain ⟨depth, rfl⟩ : ∃ k, depth = k + 1 := ⟨depth - 1, by omega⟩
    obtain ⟨hsubl, hsubr⟩ := Tree.subtree_children hsub
    exact writeSubtree_node hnd render hl hsub (fun _ hc' => ihl hlh hsubl hc' (by omega))
      (fun _ hc' => ihr hrh hsubr hc' (by omega))

/-- A walk that may go fewer levels deep than the subtree under the cursor is tall runs out
before it has written it. -/
theorem writeSubtree_eq_none_of_lt (render : α → String) (t : Tree α) (ht : t.HeightsRight) :
    ∀ {p : Path} {c : Cursor} {depth : Nat}, s.root.subtree p = t →
      s.locate c = .ok (some p) → depth < t.height → s.writeSubtree render depth c = none := by
  induction t with
  | nil =>
    intro p c depth _ _ hlt
    simp at hlt
  | node l n v h r ihl ihr =>
    intro p c depth hsub hl hlt
    obtain ⟨hlh, hrh, rfl⟩ := ht
    simp only [Tree.height_node] at hlt
    cases depth with
    | zero => rfl
    | succ k =>
      obtain ⟨hsubl, hsubr⟩ := Tree.subtree_children hsub
      have hv : s.elementAt c = .ok v := elementAt_of_locate hl (Tree.nodeAt?_of_subtree hsub)
      -- the taller child does not fit in the `k` levels left; the left one is visited first
      by_cases hk : k < l.height
      · have hnone : s.visitChild (s.writeSubtree render k) .left c = none :=
          visitChild_eq_none hnd hl (by rw [hsubl]; rintro rfl; simp at hk)
            (fun _ hc' => ihl hlh hsubl hc' hk)
        simp [writeSubtree, hv, hnone, Except.toOption]
      · have hleft : s.visitChild (s.writeSubtree render k) .left c = some (l.shape render, c) :=
          visitChild_shape hnd render hl hsubl
          (fun _ hc' => writeSubtree_of_height_le hnd render l hlh hsubl hc' (by omega))
        have hnone : s.visitChild (s.writeSubtree render k) .right c = none :=
          visitChild_eq_none hnd hl (by rw [hsubr]; rintro rfl; simp at hlt; omega)
            (fun _ hc' => ihr hrh hsubr hc' (by omega))
        simp [writeSubtree, hv, hleft, hnone, Except.toOption]

/-- The walk from the top node finishes exactly when it may go as many levels deep as the tree
is tall. -/
theorem isSome_writeSubtree_top (ht : s.root.HeightsRight) (hc : s.top? = some c)
    (render : α → String) (depth : Nat) :
    (s.writeSubtree render depth c).isSome ↔ s.height ≤ depth := by
  unfold top? at hc
  cases hr : s.root with
  | nil => simp [hr] at hc
  | node l n v h r =>
    simp only [hr, Option.some.injEq] at hc
    subst hc
    have hl : s.locate (s.cursorAt (.node n)) = .ok (some []) :=
      locate_cursorAt_node hnd (v := v) (by simp [hr])
    have hsub : s.root.subtree [] = s.root := Tree.subtree_nil_path _
    by_cases hd : s.height ≤ depth
    · rw [writeSubtree_of_height_le hnd render _ ht hsub hl hd]
      simp [hd]
    · rw [writeSubtree_eq_none_of_lt hnd render _ ht hsub hl (by unfold height at hd; omega)]
      simp [hd]

end Nodup

/-- How far each walk along the links of a set's tree goes, measured by its height: a node's
depth and the height under it fit in the height; a search, and the descent of an insertion,
walks down `searchPath`, no more levels than the height; the walks to the smallest and largest
node of a subtree and every climb stop within the height; a removal unlinks one node within the
height, which has at most one child; the successor walk visits each of the `len` nodes once in
order; and the print walk needs, and goes, exactly `height` levels deep. -/
structure WalkBounds (s : AvlSet α) : Prop where
  depth : ∀ p, s.root.subtree p ≠ .nil → p.length + (s.root.subtree p).height ≤ s.height
  search : ∀ probe, (s.root.searchPath probe).length ≤ s.height ∧
    (s.root.subtree (s.root.searchPath probe) ≠ .nil → (s.root.searchPath probe).length < s.height)
  find : ∀ probe p,
    s.root.find? probe = some p ↔ p = s.root.searchPath probe ∧ s.root.subtree p ≠ .nil
  descend : ∀ x slot,
    (∀ n p, s.root.insert s.cmp x slot = .occupied n p → p = s.root.searchPath (s.cmp x)) ∧
    (∀ t', s.root.insert s.cmp x slot = .added t' →
      s.root.subtree (s.root.searchPath (s.cmp x)) = .nil)
  spines : ∀ p, s.root.subtree p ≠ .nil →
    (s.root.subtree p).leftSpine.length < (s.root.subtree p).height ∧
    (s.root.subtree p).rightSpine.length < (s.root.subtree p).height
  climb : ∀ p d q, s.root.subtree p ≠ .nil → p.climbFrom? d = some q →
    q.length < p.length ∧ p.length < s.height
  unlink : ∀ p x freed t', s.root.eraseAt p = some (x, freed, t') → ∃ u y,
    (u = p ∨ u = p ++ Dir.right :: (s.root.subtree (p ++ [Dir.right])).leftSpine) ∧
    u.length < s.height ∧ s.root.nodeAt? u = some (freed, y) ∧
    (s.root.subtree (u ++ [Dir.left]) = .nil ∨ s.root.subtree (u ++ [Dir.right]) = .nil)
  walk : ∀ k, (fun o => o.bind s.root.nextPath?)^[k] s.root.firstPath? = s.root.paths[k]?
  visits : s.root.paths.length = s.len
  print : ∀ render c depth, s.top? = some c →
    ((s.writeSubtree render depth c).isSome ↔ s.height ≤ depth)

theorem Valid.walkBounds (hv : s.Valid) : s.WalkBounds :=
  have ht := hv.avl.heightsRight
  { depth := fun _ hp => Tree.length_add_height_subtree_le ht hp
    search := fun probe => ⟨Tree.length_searchPath_le ht probe, Tree.length_lt_height ht⟩
    find := fun _ _ => Tree.find?_eq_some_iff
    descend := fun _ _ => ⟨fun _ _ => Tree.eq_searchPath_of_insert_occupied,
      fun _ => Tree.subtree_searchPath_of_insert_added⟩
    spines := fun p hp =>
      ⟨Tree.length_leftSpine_lt (ht.subtree p) hp, Tree.length_rightSpine_lt (ht.subtree p) hp⟩
    climb := fun _ _ _ hp hq => ⟨Path.length_lt_of_climbFrom? hq, Tree.length_lt_height ht hp⟩
    unlink := fun _ _ _ _ h => Tree.eraseAt_unlinks_within ht h
    walk := Tree.iterate_nextPath? s.root
    visits := length_paths_eq_len s
    print := fun render _ depth hc => isSome_writeSubtree_top hv.accounts.nodup ht hc render depth }

end AvlSet

variable {α κ ν : Type}

end AvlCollections
