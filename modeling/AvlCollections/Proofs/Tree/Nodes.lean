import AvlCollections.Tree.Balance

/-! # The nodes of a tree, in order and by path

`nodes` lists the slot and element of every node from left to right; the element list, the
slot list and the size are read off it. Rotations, and so `balance`, keep it: rebalancing
moves nodes without reordering them. A path reaches a node, and when no slot occurs twice,
`pathTo?` finds the path back from the node's slot.
-/

namespace AvlCollections

namespace Tree

variable {α : Type}

/-- The slot and element of every node, in order. -/
def nodes : Tree α → List (Nat × α)
  | nil => []
  | node l s v _ r => l.nodes ++ (s, v) :: r.nodes

@[simp] theorem nodes_nil : (nil : Tree α).nodes = [] := rfl

@[simp] theorem nodes_node (l : Tree α) (s : Nat) (v : α) (h : Nat) (r : Tree α) :
    (node l s v h r).nodes = l.nodes ++ (s, v) :: r.nodes := rfl

@[simp] theorem toList_nil : (nil : Tree α).toList = [] := rfl

@[simp] theorem toList_node (l : Tree α) (s : Nat) (v : α) (h : Nat) (r : Tree α) :
    (node l s v h r).toList = l.toList ++ v :: r.toList := rfl

@[simp] theorem slots_nil : (nil : Tree α).slots = [] := rfl

@[simp] theorem slots_node (l : Tree α) (s : Nat) (v : α) (h : Nat) (r : Tree α) :
    (node l s v h r).slots = l.slots ++ s :: r.slots := rfl

@[simp] theorem height_nil : (nil : Tree α).height = 0 := rfl

@[simp] theorem height_node (l : Tree α) (s : Nat) (v : α) (h : Nat) (r : Tree α) :
    (node l s v h r).height = h := rfl

@[simp] theorem height_branch (l : Tree α) (s : Nat) (v : α) (r : Tree α) :
    (branch l s v r).height = max l.height r.height + 1 := rfl

theorem toList_eq_map_nodes (t : Tree α) : t.toList = t.nodes.map Prod.snd := by
  induction t with
  | nil => rfl
  | node l s v h r ihl ihr => simp [ihl, ihr]

theorem slots_eq_map_nodes (t : Tree α) : t.slots = t.nodes.map Prod.fst := by
  induction t with
  | nil => rfl
  | node l s v h r ihl ihr => simp [ihl, ihr]

theorem size_eq_length_nodes (t : Tree α) : t.size = t.nodes.length := by
  induction t with
  | nil => rfl
  | node l s v h r ihl ihr =>
    simp [size, ihl, ihr]
    omega

theorem length_toList (t : Tree α) : t.toList.length = t.size := by
  simp [toList_eq_map_nodes, size_eq_length_nodes]

theorem length_slots (t : Tree α) : t.slots.length = t.size := by
  simp [slots_eq_map_nodes, size_eq_length_nodes]

/-! ## Rebalancing keeps the order of the nodes -/

@[simp] theorem nodes_branch (l : Tree α) (s : Nat) (v : α) (r : Tree α) :
    (branch l s v r).nodes = l.nodes ++ (s, v) :: r.nodes := rfl

@[simp] theorem nodes_rotateLeft (t : Tree α) : t.rotateLeft.nodes = t.nodes := by
  match t with
  | nil => rfl
  | node _ _ _ _ nil => rfl
  | node a s v _ (node b rs rv _ c) => simp [rotateLeft]

@[simp] theorem nodes_rotateRight (t : Tree α) : t.rotateRight.nodes = t.nodes := by
  match t with
  | nil => rfl
  | node nil _ _ _ _ => rfl
  | node (node a ls lv _ b) s v _ c => simp [rotateRight]

@[simp] theorem nodes_balance (l : Tree α) (s : Nat) (v : α) (r : Tree α) :
    (balance l s v r).nodes = l.nodes ++ (s, v) :: r.nodes := by
  unfold balance
  split
  · split <;> simp
  · split
    · split <;> simp
    · simp

@[simp] theorem toList_balance (l : Tree α) (s : Nat) (v : α) (r : Tree α) :
    (balance l s v r).toList = l.toList ++ v :: r.toList := by
  simp [toList_eq_map_nodes]

@[simp] theorem slots_balance (l : Tree α) (s : Nat) (v : α) (r : Tree α) :
    (balance l s v r).slots = l.slots ++ s :: r.slots := by
  simp [slots_eq_map_nodes]

@[simp] theorem size_balance (l : Tree α) (s : Nat) (v : α) (r : Tree α) :
    (balance l s v r).size = l.size + 1 + r.size := by
  simp [size_eq_length_nodes]
  omega

/-! ## Paths -/

@[simp] theorem subtree_nil_path (t : Tree α) : t.subtree [] = t := by
  cases t <;> rfl

@[simp] theorem nodeAt?_nil (p : Path) : (nil : Tree α).nodeAt? p = none := by
  cases p <;> rfl

@[simp] theorem nodeAt?_node_nil (l : Tree α) (s : Nat) (v : α) (h : Nat) (r : Tree α) :
    (node l s v h r).nodeAt? [] = some (s, v) := rfl

@[simp] theorem nodeAt?_node_left (l : Tree α) (s : Nat) (v : α) (h : Nat) (r : Tree α)
    (p : Path) : (node l s v h r).nodeAt? (.left :: p) = l.nodeAt? p := rfl

@[simp] theorem nodeAt?_node_right (l : Tree α) (s : Nat) (v : α) (h : Nat) (r : Tree α)
    (p : Path) : (node l s v h r).nodeAt? (.right :: p) = r.nodeAt? p := rfl

theorem mem_nodes_of_nodeAt? {t : Tree α} {p : Path} {n : Nat} {v : α}
    (h : t.nodeAt? p = some (n, v)) : (n, v) ∈ t.nodes := by
  induction t generalizing p with
  | nil => simp at h
  | node l s v' hh r ihl ihr =>
    match p, h with
    | [], h =>
      simp only [nodeAt?_node_nil, Option.some.injEq, Prod.mk.injEq] at h
      simp [h.1, h.2]
    | .left :: q, h => simp [ihl h]
    | .right :: q, h => simp [ihr h]

theorem mem_toList_of_nodeAt? {t : Tree α} {p : Path} {n : Nat} {v : α}
    (h : t.nodeAt? p = some (n, v)) : v ∈ t.toList := by
  rw [toList_eq_map_nodes]
  exact List.mem_map.2 ⟨_, mem_nodes_of_nodeAt? h, rfl⟩

theorem mem_slots_of_nodeAt? {t : Tree α} {p : Path} {n : Nat} {v : α}
    (h : t.nodeAt? p = some (n, v)) : n ∈ t.slots := by
  rw [slots_eq_map_nodes]
  exact List.mem_map.2 ⟨_, mem_nodes_of_nodeAt? h, rfl⟩

/-- Every node is reached by some path. -/
theorem exists_nodeAt?_of_mem_nodes {t : Tree α} {n : Nat} {v : α}
    (h : (n, v) ∈ t.nodes) : ∃ p, t.nodeAt? p = some (n, v) := by
  induction t with
  | nil => simp at h
  | node l s v' hh r ihl ihr =>
    simp only [nodes_node, List.mem_append, List.mem_cons, Prod.mk.injEq] at h
    rcases h with hl | ⟨rfl, rfl⟩ | hr
    · obtain ⟨p, hp⟩ := ihl hl
      exact ⟨.left :: p, hp⟩
    · exact ⟨[], rfl⟩
    · obtain ⟨p, hp⟩ := ihr hr
      exact ⟨.right :: p, hp⟩

theorem pathTo?_eq_none_iff {t : Tree α} {n : Nat} : t.pathTo? n = none ↔ n ∉ t.slots := by
  induction t with
  | nil => simp [pathTo?]
  | node l s v h r ihl ihr =>
    rw [pathTo?]
    by_cases hs : s = n
    · simp [hs]
    · have hns : n ≠ s := fun h' => hs h'.symm
      cases hl : l.pathTo? n with
      | some p =>
        have hn : n ∈ l.slots := Classical.byContradiction fun hn => by simp [ihl.2 hn] at hl
        simp [hs, hn]
      | none => simp [hs, hns, ihl.1 hl, ihr]

theorem pathTo?_of_mem {t : Tree α} {n : Nat} (h : n ∈ t.slots) : ∃ p, t.pathTo? n = some p :=
  Option.ne_none_iff_exists'.1 (mt pathTo?_eq_none_iff.1 (not_not_intro h))

/-- The path that `pathTo?` finds leads to a node in that slot. -/
theorem nodeAt?_of_pathTo? {t : Tree α} {n : Nat} {p : Path} (h : t.pathTo? n = some p) :
    ∃ v, t.nodeAt? p = some (n, v) := by
  induction t generalizing p with
  | nil => simp [pathTo?] at h
  | node l s v hh r ihl ihr =>
    rw [pathTo?] at h
    split at h
    · next hs =>
      cases h
      exact ⟨v, by simp [hs]⟩
    · split at h
      · next q hq =>
        cases h
        exact ihl hq
      · obtain ⟨q, hq, rfl⟩ := Option.map_eq_some_iff.1 h
        exact ihr hq

/-- When no slot occurs twice, a node's slot leads back to the path of the node. -/
theorem pathTo?_of_nodeAt? {t : Tree α} {p : Path} {n : Nat} {v : α} (hnd : t.slots.Nodup)
    (h : t.nodeAt? p = some (n, v)) : t.pathTo? n = some p := by
  induction t generalizing p with
  | nil => simp at h
  | node l s v' hh r ihl ihr =>
    simp only [slots_node, List.nodup_append, List.nodup_cons, List.mem_cons] at hnd
    obtain ⟨hl, ⟨hs, hr⟩, hdis⟩ := hnd
    match p, h with
    | [], h =>
      simp only [nodeAt?_node_nil, Option.some.injEq, Prod.mk.injEq] at h
      simp [pathTo?, h.1]
    | .left :: q, h =>
      have hn : n ∈ l.slots := mem_slots_of_nodeAt? h
      have hsn : s ≠ n := fun hsn => hdis n hn s (.inl rfl) hsn.symm
      simp [pathTo?, hsn, ihl hl h]
    | .right :: q, h =>
      have hn : n ∈ r.slots := mem_slots_of_nodeAt? h
      have hsn : s ≠ n := fun hsn => hs (hsn ▸ hn)
      have hln : l.pathTo? n = none :=
        pathTo?_eq_none_iff.2 fun hl' => hdis n hl' n (.inr hn) rfl
      simp [pathTo?, hsn, hln, ihr hr h]

/-! ## Editing an element in place -/

theorem setAt_eq_modifyAt (x : α) (t : Tree α) (p : Path) :
    t.setAt x p = t.modifyAt (fun _ => x) p := by
  induction t generalizing p with
  | nil => rfl
  | node l s v h r ihl ihr =>
    match p with
    | [] => rfl
    | .left :: q => simp [setAt, modifyAt, ihl]
    | .right :: q => simp [setAt, modifyAt, ihr]

@[simp] theorem slots_modifyAt (f : α → α) (t : Tree α) (p : Path) :
    (t.modifyAt f p).slots = t.slots := by
  induction t generalizing p with
  | nil => rfl
  | node l s v h r ihl ihr =>
    match p with
    | [] => rfl
    | .left :: q => simp [modifyAt, ihl]
    | .right :: q => simp [modifyAt, ihr]

@[simp] theorem height_modifyAt (f : α → α) (t : Tree α) (p : Path) :
    (t.modifyAt f p).height = t.height := by
  cases t with
  | nil => rfl
  | node l s v h r =>
    match p with
    | [] => rfl
    | .left :: q => rfl
    | .right :: q => rfl

@[simp] theorem pathTo?_modifyAt (f : α → α) (t : Tree α) (p : Path) (n : Nat) :
    (t.modifyAt f p).pathTo? n = t.pathTo? n := by
  induction t generalizing p with
  | nil => rfl
  | node l s v h r ihl ihr =>
    match p with
    | [] => rfl
    | .left :: q => simp [modifyAt, pathTo?, ihl]
    | .right :: q => simp [modifyAt, pathTo?, ihr]

/-- A path that reaches no node edits nothing. -/
theorem modifyAt_eq_self {f : α → α} {t : Tree α} {p : Path} (h : t.nodeAt? p = none) :
    t.modifyAt f p = t := by
  induction t generalizing p with
  | nil => rfl
  | node l s v hh r ihl ihr =>
    match p, h with
    | .left :: q, h => simp [modifyAt, ihl h]
    | .right :: q, h => simp [modifyAt, ihr h]

/-- The edited node keeps its slot and holds the new element. -/
theorem nodeAt?_modifyAt {f : α → α} {t : Tree α} {p : Path} {n : Nat} {v : α}
    (h : t.nodeAt? p = some (n, v)) : (t.modifyAt f p).nodeAt? p = some (n, f v) := by
  induction t generalizing p with
  | nil => simp at h
  | node l s v' hh r ihl ihr =>
    match p, h with
    | [], h =>
      simp only [nodeAt?_node_nil, Option.some.injEq, Prod.mk.injEq] at h
      obtain ⟨rfl, rfl⟩ := h
      rfl
    | .left :: q, h => exact ihl h
    | .right :: q, h => exact ihr h

/-- Editing the element at a node changes that element of the in-order list and no other. -/
theorem toList_modifyAt {f : α → α} {t : Tree α} {p : Path} {n : Nat} {v : α}
    (h : t.nodeAt? p = some (n, v)) :
    ∃ as bs, t.toList = as ++ v :: bs ∧ (t.modifyAt f p).toList = as ++ f v :: bs := by
  induction t generalizing p with
  | nil => simp at h
  | node l s v' hh r ihl ihr =>
    match p, h with
    | [], h =>
      simp only [nodeAt?_node_nil, Option.some.injEq, Prod.mk.injEq] at h
      obtain ⟨rfl, rfl⟩ := h
      exact ⟨l.toList, r.toList, rfl, rfl⟩
    | .left :: q, h =>
      obtain ⟨as, bs, hb, ha⟩ := ihl h
      exact ⟨as, bs ++ v' :: r.toList, by simp [hb], by simp [modifyAt, ha]⟩
    | .right :: q, h =>
      obtain ⟨as, bs, hb, ha⟩ := ihr h
      exact ⟨l.toList ++ v' :: as, bs, by simp [hb], by simp [modifyAt, ha]⟩

end Tree

end AvlCollections
