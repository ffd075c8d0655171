import AvlCollections.Proofs.Tree.Nodes

/-! # The links of a tree

`links` keeps the nodes of a tree, their slots, cached heights and children, and forgets the
elements. Editing elements in place keeps the links; the slots, the size and the path to each
slot are read off the links alone.
-/

namespace AvlCollections

namespace Tree

variable {α : Type}

/-- The tree with every element forgotten. -/
def links : Tree α → Tree Unit
  | nil => nil
  | node l s _ h r => node l.links s () h r.links

@[simp] theorem links_nil : (nil : Tree α).links = nil := rfl

@[simp] theorem links_node (l : Tree α) (s : Nat) (v : α) (h : Nat) (r : Tree α) :
    (node l s v h r).links = node l.links s () h r.links := rfl

@[simp] theorem size_links (t : Tree α) : t.links.size = t.size := by
  induction t with
  | nil => rfl
  | node l s v h r ihl ihr => simp [size, ihl, ihr]

@[simp] theorem slots_links (t : Tree α) : t.links.slots = t.slots := by
  induction t with
  | nil => rfl
  | node l s v h r ihl ihr => simp [ihl, ihr]

@[simp] theorem pathTo?_links (t : Tree α) (n : Nat) : t.links.pathTo? n = t.pathTo? n := by
  induction t with
  | nil => rfl
  | node l s v h r ihl ihr => simp [pathTo?, ihl, ihr]

/-- Forgetting the elements twice forgets nothing more. -/
@[simp] theorem links_links (t : Tree α) : t.links.links = t.links := by
  induction t with
  | nil => rfl
  | node l s v h r ihl ihr => simp [ihl, ihr]

theorem links_eq_nil_iff {t : Tree α} : t.links = nil ↔ t = nil := by
  cases t <;> simp

@[simp] theorem links_modifyAt (f : α → α) (t : Tree α) (p : Path) :
    (t.modifyAt f p).links = t.links := by
  induction t generalizing p with
  | nil => rfl
  | node l s v h r ihl ihr =>
    match p with
    | [] => rfl
    | .left :: q => simp [modifyAt, ihl]
    | .right :: q => simp [modifyAt, ihr]

@[simp] theorem links_setAt (x : α) (t : Tree α) (p : Path) : (t.setAt x p).links = t.links := by
  rw [setAt_eq_modifyAt, links_modifyAt]

/-- Trees with the same links have the same size. -/
theorem size_eq_of_links_eq {t t' : Tree α} (h : t.links = t'.links) : t.size = t'.size := by
  rw [← size_links t, h, size_links]

/-- Trees with the same links have the same slots. -/
theorem slots_eq_of_links_eq {t t' : Tree α} (h : t.links = t'.links) : t.slots = t'.slots := by
  rw [← slots_links t, h, slots_links]

/-- Trees with the same links give each slot the same path. -/
theorem pathTo?_eq_of_links_eq {t t' : Tree α} (h : t.links = t'.links) (n : Nat) :
    t.pathTo? n = t'.pathTo? n := by
  rw [← pathTo?_links t, h, pathTo?_links]

end Tree

end AvlCollections
