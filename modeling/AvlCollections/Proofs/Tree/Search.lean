import AvlCollections.Tree.Insert
import AvlCollections.Proofs.Tree.Nodes
import AvlCollections.Proofs.Ascending

/-! # Search

`find?` follows a probe down one path and returns the path of a node at which the probe
answers `eq`. When the probe is monotone along the in-order list, it finds such a node whenever
there is one. On a tree whose elements ascend, comparing with the element of a node finds the
path to that node.
-/

namespace AvlCollections

namespace Tree

variable {α : Type}

@[simp] theorem find?_nil (probe : α → Ordering) : (nil : Tree α).find? probe = none := rfl

/-- The path that `find?` returns leads to a node at which the probe answers `eq`. -/
theorem nodeAt?_of_find? {t : Tree α} {probe : α → Ordering} {p : Path}
    (h : t.find? probe = some p) : ∃ n v, t.nodeAt? p = some (n, v) ∧ probe v = .eq := by
  induction t generalizing p with
  | nil => simp at h
  | node l s v hh r ihl ihr =>
    rw [find?] at h
    split at h
    · obtain ⟨q, hq, rfl⟩ := Option.map_eq_some_iff.1 h
      exact ihl hq
    · obtain ⟨q, hq, rfl⟩ := Option.map_eq_some_iff.1 h
      exact ihr hq
    · next hv =>
      cases h
      exact ⟨s, v, rfl, hv⟩

/-- A probe that is monotone along the in-order list finds a node whenever it answers `eq`
somewhere. -/
theorem isSome_find?_iff {t : Tree α} {probe : α → Ordering}
    (hm : MonotoneAlong probe t.toList) :
    (t.find? probe).isSome ↔ ∃ y ∈ t.toList, probe y = .eq := by
  constructor
  · intro h
    obtain ⟨p, hp⟩ := Option.isSome_iff_exists.1 h
    obtain ⟨n, v, hv, e⟩ := nodeAt?_of_find? hp
    exact ⟨v, mem_toList_of_nodeAt? hv, e⟩
  · rintro ⟨y, hy, e⟩
    induction t with
    | nil => simp at hy
    | node l s v hh r ihl ihr =>
      simp only [toList_node] at hm hy
      -- the probe's answer at the top tells which side can hold `y`
      have across := List.pairwise_append.1 hm
      have hml : MonotoneAlong probe l.toList := across.1
      have hmr : MonotoneAlong probe r.toList := (List.pairwise_cons.1 across.2.1).2
      rw [find?]
      split
      · next hv =>
        rcases List.mem_append.1 hy with hy | hy
        · simpa using ihl hml hy
        · rcases List.mem_cons.1 hy with rfl | hy
          · simp [hv] at e
          · simp [(List.pairwise_cons.1 across.2.1).1 y hy |>.1 hv] at e
      · next hv =>
        rcases List.mem_append.1 hy with hy | hy
        · simp [(across.2.2 y hy v List.mem_cons_self).2 hv] at e
        · rcases List.mem_cons.1 hy with rfl | hy
          · simp [hv] at e
          · simpa using ihr hmr hy
      · simp

theorem find?_eq_none_iff {t : Tree α} {probe : α → Ordering}
    (hm : MonotoneAlong probe t.toList) :
    t.find? probe = none ↔ ∀ y ∈ t.toList, probe y ≠ .eq := by
  rw [← Option.not_isSome_iff_eq_none, isSome_find?_iff hm]
  simp

/-- On a tree whose elements ascend, comparing with the element of a node finds the path to
that node. -/
theorem find?_of_nodeAt? {cmp : α → α → Ordering} [Std.TransCmp cmp] {t : Tree α} {p : Path}
    {n : Nat} {v : α} (ht : Ascending cmp t.toList) (h : t.nodeAt? p = some (n, v)) :
    t.find? (cmp v) = some p := by
  induction t generalizing p with
  | nil => simp at h
  | node l s v' hh r ihl ihr =>
    obtain ⟨hasl, hasr, below, above⟩ := Ascending.append_cons_iff.1 ht
    match p, h with
    | [], h =>
      simp only [nodeAt?_node_nil, Option.some.injEq, Prod.mk.injEq] at h
      obtain ⟨rfl, rfl⟩ := h
      simp [find?, Std.ReflCmp.compare_self]
    | .left :: q, h =>
      have hv : cmp v v' = .lt := below v (mem_toList_of_nodeAt? h)
      simp [find?, hv, ihl hasl h]
    | .right :: q, h =>
      have hv : cmp v v' = .gt := Std.OrientedCmp.gt_of_lt (above v (mem_toList_of_nodeAt? h))
      simp [find?, hv, ihr hasr h]

end Tree

end AvlCollections
