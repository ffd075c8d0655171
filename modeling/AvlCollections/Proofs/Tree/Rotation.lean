import AvlCollections.Proofs.Safety

/-! # Rotations in place

A rotation at the node at path `p` lifts one of its children into that node's place. The
lifted node hangs from the same parent on the same side; the old node becomes its child on the
other side and takes over the lifted node's inner subtree. Nothing outside the subtree at `p`
changes, the nodes keep their in-order sequence, and the two nodes that moved get right cached
heights as soon as the three subtrees under them have right ones.

`modifySubtree` changes the subtree at a path in place, the way a rotation in a linked tree
rewires the nodes under a fixed parent: the cached heights of the ancestors stay as they were,
for the climb after the rotation to recompute. The double rotations of `balance` are two such
single rotations in a row: first at the heavy child, then at the node itself.
-/

namespace AvlCollections

namespace Tree

variable {α : Type}

/-! ## Right cached heights -/

/-- Every cached height is one more than the taller child's; the empty tree has height 0. -/
def HeightsRight : Tree α → Prop
  | nil => True
  | node l _ _ h r => l.HeightsRight ∧ r.HeightsRight ∧ h = max l.height r.height + 1

@[simp] theorem heightsRight_nil : (nil : Tree α).HeightsRight := trivial

@[simp] theorem heightsRight_node {l r : Tree α} {s : Nat} {v : α} {h : Nat} :
    (node l s v h r).HeightsRight ↔
      l.HeightsRight ∧ r.HeightsRight ∧ h = max l.height r.height + 1 :=
  Iff.rfl

theorem heightsRight_branch {l r : Tree α} (s : Nat) (v : α) (hl : l.HeightsRight)
    (hr : r.HeightsRight) : (branch l s v r).HeightsRight :=
  ⟨hl, hr, rfl⟩

/-- An AVL tree has right cached heights. -/
theorem Avl.heightsRight {t : Tree α} (ht : t.Avl) : t.HeightsRight := by
  induction t with
  | nil => trivial
  | node l s v h r ihl ihr => exact ⟨ihl ht.left, ihr ht.right, ht.2.2.1⟩

theorem HeightsRight.subtree {t : Tree α} (ht : t.HeightsRight) (p : Path) :
    (t.subtree p).HeightsRight := by
  induction t generalizing p with
  | nil => simp
  | node l s v h r ihl ihr =>
    match p with
    | [] => exact ht
    | .left :: q => exact ihl ht.1 q
    | .right :: q => exact ihr ht.2.1 q

/-! ## Changing a subtree in place -/

/-- Applies `f` to the subtree at a path. The nodes above it keep their slots, elements and
cached heights, and a path that leaves the tree changes nothing. -/
def modifySubtree (f : Tree α → Tree α) : Tree α → Path → Tree α
  | t, [] => f t
  | nil, _ :: _ => nil
  | node l s v h r, .left :: p => node (l.modifySubtree f p) s v h r
  | node l s v h r, .right :: p => node l s v h (r.modifySubtree f p)

@[simp] theorem modifySubtree_nil_path (f : Tree α → Tree α) (t : Tree α) :
    t.modifySubtree f [] = f t := by
  cases t <;> rfl

theorem nodeAt?_append (t : Tree α) (p q : Path) :
    t.nodeAt? (p ++ q) = (t.subtree p).nodeAt? q := by
  simp [nodeAt?, subtree_append]

theorem nodeAt?_eq_subtree (t : Tree α) (p : Path) : t.nodeAt? p = (t.subtree p).nodeAt? [] := by
  simpa using nodeAt?_append t p []

/-- A change that keeps the nodes of every subtree keeps the nodes of the whole tree. -/
theorem nodes_modifySubtree {f : Tree α → Tree α} (hf : ∀ u, (f u).nodes = u.nodes)
    (t : Tree α) (p : Path) : (t.modifySubtree f p).nodes = t.nodes := by
  induction t generalizing p with
  | nil => cases p <;> simp [modifySubtree, hf]
  | node l s v h r ihl ihr =>
    match p with
    | [] => exact hf _
    | .left :: q => simp [modifySubtree, ihl]
    | .right :: q => simp [modifySubtree, ihr]

/-- The subtree at the path is the changed one. -/
theorem subtree_modifySubtree {f : Tree α → Tree α} (hf : f nil = nil) (t : Tree α) (p : Path) :
    (t.modifySubtree f p).subtree p = f (t.subtree p) := by
  induction t generalizing p with
  | nil => cases p <;> simp [modifySubtree, hf]
  | node l s v h r ihl ihr =>
    match p with
    | [] => simp
    | .left :: q => simpa [modifySubtree, subtree] using ihl q
    | .right :: q => simpa [modifySubtree, subtree] using ihr q

/-- Every path that does not run through `p` reaches the same node as before: the ancestors of
the changed subtree and everything beside it stay put. -/
theorem nodeAt?_modifySubtree_of_not_prefix (f : Tree α → Tree α) (t : Tree α) {p q : Path}
    (hpq : ¬ p <+: q) : (t.modifySubtree f p).nodeAt? q = t.nodeAt? q := by
  induction t generalizing p q with
  | nil =>
    match p with
    | [] => exact absurd (List.nil_prefix) hpq
    | _ :: _ => rfl
  | node l s v h r ihl ihr =>
    match p, q with
    | [], _ => exact absurd (List.nil_prefix) hpq
    | _ :: _, [] => cases ‹Dir› <;> rfl
    | .left :: p', .left :: q' =>
      exact ihl (fun h' => hpq (List.prefix_cons_inj _ |>.2 h'))
    | .right :: p', .right :: q' =>
      exact ihr (fun h' => hpq (List.prefix_cons_inj _ |>.2 h'))
    | .left :: p', .right :: q' => rfl
    | .right :: p', .left :: q' => rfl

/-- Every subtree beside the path to `p`, neither above nor below it, stays as it was. -/
theorem subtree_modifySubtree_of_disjoint (f : Tree α → Tree α) (t : Tree α) {p q : Path}
    (hpq : ¬ p <+: q) (hqp : ¬ q <+: p) : (t.modifySubtree f p).subtree q = t.subtree q := by
  induction t generalizing p q with
  | nil =>
    match p with
    | [] => exact absurd (List.nil_prefix) hpq
    | _ :: _ => rfl
  | node l s v h r ihl ihr =>
    match p, q with
    | [], _ => exact absurd (List.nil_prefix) hpq
    | _, [] => exact absurd (List.nil_prefix) hqp
    | .left :: p', .left :: q' =>
      exact ihl (fun h' => hpq (List.prefix_cons_inj _ |>.2 h'))
        (fun h' => hqp (List.prefix_cons_inj _ |>.2 h'))
    | .right :: p', .right :: q' =>
      exact ihr (fun h' => hpq (List.prefix_cons_inj _ |>.2 h'))
        (fun h' => hqp (List.prefix_cons_inj _ |>.2 h'))
    | .left :: p', .right :: q' => rfl
    | .right :: p', .left :: q' => rfl

/-! ## Single rotations -/

theorem rotateLeft_node_node (a b c : Tree α) (s : Nat) (v : α) (h rs : Nat) (rv : α) (rh : Nat) :
    (node a s v h (node b rs rv rh c)).rotateLeft = branch (branch a s v b) rs rv c := rfl

theorem rotateRight_node_node (a b c : Tree α) (ls : Nat) (lv : α) (lh s : Nat) (v : α) (h : Nat) :
    (node (node a ls lv lh b) s v h c).rotateRight = branch a ls lv (branch b s v c) := rfl

/-- What lifting the child on side `d` of the node at path `p` into its place makes of `t`,
the other side being `e`: the nodes keep their order, the lifted node stands at `p` (under the
parent that `p` had, on the same side), the old node is its child on side `e` and has taken
the lifted node's inner subtree on side `d`, the two outer subtrees hang where they hung,
nothing off the subtree at `p` changes, and the two moved nodes have right cached heights when
the three subtrees under them do. -/
structure Lifts (t t' : Tree α) (p : Path) (d e : Dir) : Prop where
  nodes : t'.nodes = t.nodes
  lifted : t'.nodeAt? p = t.nodeAt? (p ++ [d])
  pivot : t'.nodeAt? (p ++ [e]) = t.nodeAt? p
  inner : t'.subtree (p ++ [e, d]) = t.subtree (p ++ [d, e])
  outer : t'.subtree (p ++ [e, e]) = t.subtree (p ++ [e])
  far : t'.subtree (p ++ [d]) = t.subtree (p ++ [d, d])
  outside : ∀ q, ¬ p <+: q → t'.nodeAt? q = t.nodeAt? q
  beside : ∀ q, ¬ p <+: q → ¬ q <+: p → t'.subtree q = t.subtree q
  heights : (t.subtree (p ++ [e])).HeightsRight → (t.subtree (p ++ [d, e])).HeightsRight →
    (t.subtree (p ++ [d, d])).HeightsRight → (t'.subtree p).HeightsRight

namespace Lifts

variable {t t' : Tree α} {p : Path} {d e : Dir}

theorem slots (h : Lifts t t' p d e) : t'.slots = t.slots := by
  rw [slots_eq_map_nodes, h.nodes, slots_eq_map_nodes]

theorem toList (h : Lifts t t' p d e) : t'.toList = t.toList := by
  rw [toList_eq_map_nodes, h.nodes, toList_eq_map_nodes]

/-- When no slot holds two nodes, a slot still leads to the path of its node afterwards: the
links between parents and children agree again. -/
theorem located (h : Lifts t t' p d e) (hnd : t.slots.Nodup) {q : Path} {n : Nat} {v : α}
    (hq : t'.nodeAt? q = some (n, v)) : t'.pathTo? n = some q :=
  pathTo?_of_nodeAt? (h.slots ▸ hnd) hq

end Lifts

/-- A left rotation at a node with a right child lifts that child. -/
theorem lifts_rotateLeft {t : Tree α} {p : Path} (hr : t.subtree (p ++ [Dir.right]) ≠ nil) :
    Lifts t (t.modifySubtree rotateLeft p) p .right .left := by
  obtain ⟨a, s, v, h, b, rs, rv, rh, c, hp⟩ :
      ∃ a s v h b rs rv rh c, t.subtree p = node a s v h (node b rs rv rh c) := by
    rw [subtree_append] at hr
    match hsub : t.subtree p, hr with
    | node a s v h (node b rs rv rh c), _ => exact ⟨a, s, v, h, b, rs, rv, rh, c, rfl⟩
  have hsub : (t.modifySubtree rotateLeft p).subtree p = branch (branch a s v b) rs rv c := by
    rw [subtree_modifySubtree rfl, hp, rotateLeft_node_node]
  refine ⟨nodes_modifySubtree nodes_rotateLeft t p, ?_, ?_, ?_, ?_, ?_,
    fun q hq => nodeAt?_modifySubtree_of_not_prefix _ t hq,
    fun q hpq hqp => subtree_modifySubtree_of_disjoint _ t hpq hqp, ?_⟩
  · rw [nodeAt?_eq_subtree, hsub, nodeAt?_append, hp]; rfl
  · rw [nodeAt?_append, hsub, nodeAt?_eq_subtree t p, hp]; rfl
  · rw [subtree_append, hsub, subtree_append, hp]; rfl
  · rw [subtree_append, hsub, subtree_append, hp]; rfl
  · rw [subtree_append, hsub, subtree_append, hp]; rfl
  · rw [subtree_append, subtree_append, subtree_append, hp, hsub]
    intro ha hb hc
    simp only [subtree, subtree_nil_path] at ha hb hc
    exact heightsRight_branch rs rv (heightsRight_branch s v ha hb) hc

/-- A right rotation at a node with a left child lifts that child. -/
theorem lifts_rotateRight {t : Tree α} {p : Path} (hl : t.subtree (p ++ [Dir.left]) ≠ nil) :
    Lifts t (t.modifySubtree rotateRight p) p .left .right := by
  obtain ⟨a, ls, lv, lh, b, s, v, h, c, hp⟩ :
      ∃ a ls lv lh b s v h c, t.subtree p = node (node a ls lv lh b) s v h c := by
    rw [subtree_append] at hl
    match hsub : t.subtree p, hl with
    | node (node a ls lv lh b) s v h c, _ => exact ⟨a, ls, lv, lh, b, s, v, h, c, rfl⟩
  have hsub : (t.modifySubtree rotateRight p).subtree p = branch a ls lv (branch b s v c) := by
    rw [subtree_modifySubtree rfl, hp, rotateRight_node_node]
  refine ⟨nodes_modifySubtree nodes_rotateRight t p, ?_, ?_, ?_, ?_, ?_,
    fun q hq => nodeAt?_modifySubtree_of_not_prefix _ t hq,
    fun q hpq hqp => subtree_modifySubtree_of_disjoint _ t hpq hqp, ?_⟩
  · rw [nodeAt?_eq_subtree, hsub, nodeAt?_append, hp]; rfl
  · rw [nodeAt?_append, hsub, nodeAt?_eq_subtree t p, hp]; rfl
  · rw [subtree_append, hsub, subtree_append, hp]; rfl
  · rw [subtree_append, hsub, subtree_append, hp]; rfl
  · rw [subtree_append, hsub, subtree_append, hp]; rfl
  · rw [subtree_append, subtree_append, subtree_append, hp, hsub]
    intro hc hb ha
    simp only [subtree, subtree_nil_path] at ha hb hc
    exact heightsRight_branch ls lv ha (heightsRight_branch s v hb hc)

/-! ## Double rotations -/

/-- The two rotations of a double rotation at `p` whose heavy child is on side `d`: the inner
grandchild is first lifted above that child, then above the node. -/
theorem Lifts.double_heights {t t₁ t₂ : Tree α} {p : Path} {d e : Dir} (hde : d ≠ e)
    (h₁ : Lifts t t₁ (p ++ [d]) e d) (h₂ : Lifts t₁ t₂ p d e)
    (ha : (t.subtree (p ++ [d, d])).HeightsRight) (hb : (t.subtree (p ++ [d, e, d])).HeightsRight)
    (hc : (t.subtree (p ++ [d, e, e])).HeightsRight) (hd : (t.subtree (p ++ [e])).HeightsRight) :
    (t₂.subtree p).HeightsRight := by
  -- after the first rotation the lifted grandchild's subtree has right heights, and the
  -- other side of the node was not touched
  have hlifted : (t₁.subtree (p ++ [d])).HeightsRight :=
    h₁.heights (by simpa using ha) (by simpa using hb) (by simpa using hc)
  have hside : t₁.subtree (p ++ [e]) = t.subtree (p ++ [e]) :=
    h₁.beside _ (by simp [hde]) (by simp [hde.symm])
  refine h₂.heights (hside ▸ hd) ?_ ?_
  · have hinner := hlifted.subtree [e]
    rwa [← subtree_append, List.append_assoc] at hinner
  · have houter := hlifted.subtree [d]
    rwa [← subtree_append, List.append_assoc] at houter

/-- In `balance`, a left side two levels too tall that leans right is mended by a left
rotation at the left child and then a right rotation at the node, whatever height the node
had cached. -/
theorem balance_eq_of_left_inner {l r : Tree α} (s : Nat) (v : α) (h : Nat)
    (heavy : r.height + 1 < l.height) (leans : l.leftHeight < l.rightHeight) :
    balance l s v r =
      ((node l s v h r).modifySubtree rotateLeft [Dir.left]).modifySubtree rotateRight [] := by
  unfold balance
  rw [if_pos heavy, if_pos leans]
  cases l with
  | nil => simp [leftHeight, rightHeight] at leans
  | node a ls lv lh lr =>
    cases lr with
    | nil => simp [leftHeight, rightHeight] at leans
    | node b lrs lrv lrh c => rfl

/-- In `balance`, a right side two levels too tall that leans left is mended by a right
rotation at the right child and then a left rotation at the node. -/
theorem balance_eq_of_right_inner {l r : Tree α} (s : Nat) (v : α) (h : Nat)
    (heavy : l.height + 1 < r.height) (leans : r.rightHeight < r.leftHeight) :
    balance l s v r =
      ((node l s v h r).modifySubtree rotateRight [Dir.right]).modifySubtree rotateLeft [] := by
  unfold balance
  rw [if_neg (by omega), if_pos heavy, if_pos leans]
  cases r with
  | nil => simp [leftHeight, rightHeight] at leans
  | node rl rs rv rh c =>
    cases rl with
    | nil => simp [leftHeight, rightHeight] at leans
    | node a rls rlv rlh b => rfl

/-- The two rotations of a double rotation at a node whose left child has a right child: a
left rotation at the left child, then a right rotation at the node. -/
theorem lifts_double_left {t : Tree α} {p : Path} (hg : t.subtree (p ++ [Dir.left, Dir.right]) ≠ nil) :
    Lifts t (t.modifySubtree rotateLeft (p ++ [Dir.left])) (p ++ [Dir.left]) .right .left ∧
      Lifts (t.modifySubtree rotateLeft (p ++ [Dir.left]))
        ((t.modifySubtree rotateLeft (p ++ [Dir.left])).modifySubtree rotateRight p) p .left .right := by
  have h₁ := lifts_rotateLeft (t := t) (p := p ++ [Dir.left]) (by simpa using hg)
  refine ⟨h₁, lifts_rotateRight ?_⟩
  -- the grandchild now stands where the left child stood
  have hnode := h₁.lifted
  rw [List.append_assoc, List.singleton_append] at hnode
  rw [← isSome_nodeAt?_iff, hnode, isSome_nodeAt?_iff]
  exact hg

/-- The two rotations of a double rotation at a node whose right child has a left child: a
right rotation at the right child, then a left rotation at the node. -/
theorem lifts_double_right {t : Tree α} {p : Path} (hg : t.subtree (p ++ [Dir.right, Dir.left]) ≠ nil) :
    Lifts t (t.modifySubtree rotateRight (p ++ [Dir.right])) (p ++ [Dir.right]) .left .right ∧
      Lifts (t.modifySubtree rotateRight (p ++ [Dir.right]))
        ((t.modifySubtree rotateRight (p ++ [Dir.right])).modifySubtree rotateLeft p) p .right .left := by
  have h₁ := lifts_rotateRight (t := t) (p := p ++ [Dir.right]) (by simpa using hg)
  refine ⟨h₁, lifts_rotateLeft ?_⟩
  have hnode := h₁.lifted
  rw [List.append_assoc, List.singleton_append] at hnode
  rw [← isSome_nodeAt?_iff, hnode, isSome_nodeAt?_iff]
  exact hg

end Tree

end AvlCollections
