import AvlCollections.Proofs.Set.Stepping
import AvlCollections.Proofs.MultiMap.Valid

/-! # In-order neighbours of the live nodes

A live node is named by its slot, and its slot leads to its path. The successor of the node
of the element at index `i` is the node of the element at index `i + 1`, and there is none
exactly when the node holds the largest element; the predecessor is symmetric. So each of the
two steps undoes the other, and the first and last nodes hold the smallest and the largest
elements. This holds in every tree whose slots are distinct and whose elements ascend, so in
every set and map that the operations build.
-/

namespace AvlCollections

variable {α : Type} {cmp : α → α → Ordering}

namespace Ascending

variable [Std.TransCmp cmp] {xs : List α}

/-- In an ascending list, the element at index `i` has nothing above it exactly when it is the
last one. -/
theorem forall_ne_gt_iff (h : Ascending cmp xs) {i : Nat} (hi : i < xs.length) :
    (∀ y ∈ xs, cmp y xs[i] ≠ .gt) ↔ i + 1 = xs.length := by
  constructor
  · intro hmax
    by_contra hne
    -- the next element lies above
    have hnext : i + 1 < xs.length := by omega
    have hlt : cmp xs[i] xs[i + 1] = .lt :=
      List.pairwise_iff_getElem.1 h i (i + 1) hi hnext (by omega)
    exact hmax _ (List.getElem_mem hnext) (Std.OrientedCmp.gt_of_lt hlt)
  · intro hlast y hy
    obtain ⟨j, hj, rfl⟩ := List.getElem_of_mem hy
    rcases Nat.lt_or_ge j i with hji | hji
    · simp [List.pairwise_iff_getElem.1 h j i hj hi hji]
    · have : j = i := by omega
      subst this
      simp [Std.ReflCmp.compare_self]

/-- In an ascending list, the element at index `i` has nothing below it exactly when it is the
first one. -/
theorem forall_ne_lt_iff (h : Ascending cmp xs) {i : Nat} (hi : i < xs.length) :
    (∀ y ∈ xs, cmp y xs[i] ≠ .lt) ↔ i = 0 := by
  constructor
  · intro hmin
    by_contra hne
    have hprev : i - 1 < xs.length := by omega
    have hlt : cmp xs[i - 1] xs[i] = .lt :=
      List.pairwise_iff_getElem.1 h (i - 1) i hprev hi (by omega)
    exact hmin _ (List.getElem_mem hprev) hlt
  · rintro rfl y hy
    obtain ⟨j, hj, rfl⟩ := List.getElem_of_mem hy
    rcases Nat.eq_zero_or_pos j with rfl | hj0
    · simp [Std.ReflCmp.compare_self]
    · simp [Std.OrientedCmp.gt_of_lt (List.pairwise_iff_getElem.1 h 0 j hi hj hj0)]

end Ascending

namespace Tree

/-- The `j`-th path of the walk reaches the `j`-th node, and past the last node there is
neither. -/
theorem bind_nodeAt?_getElem?_paths (t : Tree α) (j : Nat) :
    t.paths[j]?.bind t.nodeAt? = t.nodes[j]? := by
  rcases Nat.lt_or_ge j t.paths.length with hj | hj
  · rw [List.getElem?_eq_getElem hj, Option.bind_some, nodeAt?_getElem_paths t j hj]
  · rw [List.getElem?_eq_none hj, List.getElem?_eq_none (by rwa [← length_paths])]
    rfl

/-- With no slot used twice, the slot of the `i`-th node leads to the `i`-th path. -/
theorem pathTo?_eq_getElem?_paths {t : Tree α} (hnd : t.slots.Nodup) {i n : Nat}
    (h : t.slots[i]? = some n) : t.pathTo? n = t.paths[i]? := by
  rw [getElem?_slots, Option.map_eq_some_iff] at h
  obtain ⟨⟨n', x⟩, hx, rfl⟩ := h
  have hi : i < t.paths.length := by
    rw [length_paths]
    exact (List.getElem?_eq_some_iff.1 hx).1
  have hat := nodeAt?_getElem_paths t i hi
  rw [hx] at hat
  rw [pathTo?_of_nodeAt? hnd hat, List.getElem?_eq_getElem hi]

/-- The slot of the `i`-th node leads to the `i`-th path. -/
theorem eq_getElem_paths {t : Tree α} (hnd : t.slots.Nodup) {i n : Nat} {p : Path}
    (hn : t.slots[i]? = some n) (hp : t.pathTo? n = some p) :
    ∃ hi : i < t.paths.length, p = t.paths[i] := by
  have hpi := pathTo?_eq_getElem?_paths hnd hn
  rw [hp] at hpi
  have hi : i < t.paths.length := (List.getElem?_eq_some_iff.1 hpi.symm).1
  rw [List.getElem?_eq_getElem hi] at hpi
  exact ⟨hi, Option.some.inj hpi⟩

/-- A live node's slot leads to the path of its place in the walk. -/
theorem exists_index_of_pathTo? {t : Tree α} (hnd : t.slots.Nodup) {n : Nat} {p : Path}
    (h : t.pathTo? n = some p) :
    ∃ i, ∃ hi : i < t.paths.length, t.slots[i]? = some n ∧ p = t.paths[i] := by
  have hn : n ∈ t.slots := by
    by_contra hn
    rw [pathTo?_eq_none_iff.2 hn] at h
    cases h
  obtain ⟨i, hi⟩ := List.mem_iff_getElem?.1 hn
  obtain ⟨hlt, rfl⟩ := eq_getElem_paths hnd hi h
  exact ⟨i, hlt, hi, rfl⟩

/-- The element of the `i`-th node is the `i`-th element. -/
theorem getElem_toList_of_nodeAt? {t : Tree α} {i n : Nat} {x : α} (hi : i < t.paths.length)
    (h : t.nodeAt? t.paths[i] = some (n, x)) :
    ∃ hx : i < t.toList.length, t.toList[i] = x := by
  rw [nodeAt?_getElem_paths t i hi] at h
  have hx : i < t.toList.length := by
    rw [toList_eq_map_nodes, List.length_map]
    exact (List.getElem?_eq_some_iff.1 h).1
  refine ⟨hx, Option.some.inj ?_⟩
  rw [← List.getElem?_eq_getElem hx, toList_eq_map_nodes, List.getElem?_map, h]
  rfl

/-- How the live nodes of a tree ordered by `cmp` are linked to their in-order neighbours:
stepping forward from the node in the `i`-th slot of the walk reaches the node after it in
order, or nothing exactly at the largest element; stepping back is symmetric; each step undoes
the other; and the first and last nodes hold the smallest and the largest elements. -/
structure Neighbours (cmp : α → α → Ordering) (t : Tree α) : Prop where
  next : ∀ i n p, t.slots[i]? = some n → t.pathTo? n = some p →
    (t.nextPath? p).bind t.nodeAt? = t.nodes[i + 1]?
  prev : ∀ i n p, t.slots[i]? = some n → t.pathTo? n = some p →
    (t.prevPath? p).bind t.nodeAt? = if i = 0 then none else t.nodes[i - 1]?
  next_eq_none : ∀ n p x, t.pathTo? n = some p → t.nodeAt? p = some (n, x) →
    (t.nextPath? p = none ↔ ∀ y ∈ t.toList, cmp y x ≠ .gt)
  prev_eq_none : ∀ n p x, t.pathTo? n = some p → t.nodeAt? p = some (n, x) →
    (t.prevPath? p = none ↔ ∀ y ∈ t.toList, cmp y x ≠ .lt)
  prev_next : ∀ n p q, t.pathTo? n = some p → t.nextPath? p = some q → t.prevPath? q = some p
  next_prev : ∀ n p q, t.pathTo? n = some p → t.prevPath? p = some q → t.nextPath? q = some p
  first : t.firstPath?.bind t.nodeAt? = t.nodes.head?
  last : t.lastPath?.bind t.nodeAt? = t.nodes.getLast?
  first_least : ∀ p n x, t.firstPath? = some p → t.nodeAt? p = some (n, x) →
    ∀ y ∈ t.toList, cmp y x ≠ .lt
  last_greatest : ∀ p n x, t.lastPath? = some p → t.nodeAt? p = some (n, x) →
    ∀ y ∈ t.toList, cmp y x ≠ .gt

section Neighbours

variable [Std.TransCmp cmp] {t : Tree α} (hnd : t.slots.Nodup)
include hnd

theorem next_bind_nodeAt? {i n : Nat} {p : Path} (hn : t.slots[i]? = some n)
    (hp : t.pathTo? n = some p) : (t.nextPath? p).bind t.nodeAt? = t.nodes[i + 1]? := by
  obtain ⟨hi, rfl⟩ := eq_getElem_paths hnd hn hp
  rw [nextPath?_getElem_paths t i hi, bind_nodeAt?_getElem?_paths]

theorem prev_bind_nodeAt? {i n : Nat} {p : Path} (hn : t.slots[i]? = some n)
    (hp : t.pathTo? n = some p) :
    (t.prevPath? p).bind t.nodeAt? = if i = 0 then none else t.nodes[i - 1]? := by
  obtain ⟨hi, rfl⟩ := eq_getElem_paths hnd hn hp
  rw [prevPath?_getElem_paths t i hi]
  split
  · rfl
  · exact bind_nodeAt?_getElem?_paths t (i - 1)

theorem prevPath?_of_nextPath? {n : Nat} {p q : Path} (hp : t.pathTo? n = some p)
    (hq : t.nextPath? p = some q) : t.prevPath? q = some p := by
  obtain ⟨i, hi, -, rfl⟩ := exists_index_of_pathTo? hnd hp
  rw [nextPath?_getElem_paths t i hi] at hq
  have hi' : i + 1 < t.paths.length := (List.getElem?_eq_some_iff.1 hq).1
  rw [List.getElem?_eq_getElem hi'] at hq
  cases hq
  rw [prevPath?_getElem_paths t (i + 1) hi', if_neg (by omega), Nat.add_sub_cancel,
    List.getElem?_eq_getElem hi]

theorem nextPath?_of_prevPath? {n : Nat} {p q : Path} (hp : t.pathTo? n = some p)
    (hq : t.prevPath? p = some q) : t.nextPath? q = some p := by
  obtain ⟨i, hi, -, rfl⟩ := exists_index_of_pathTo? hnd hp
  rw [prevPath?_getElem_paths t i hi] at hq
  split at hq
  · cases hq
  · next hi0 =>
    have hi' : i - 1 < t.paths.length := by omega
    rw [List.getElem?_eq_getElem hi'] at hq
    cases hq
    rw [nextPath?_getElem_paths t (i - 1) hi', show i - 1 + 1 = i by omega,
      List.getElem?_eq_getElem hi]

variable (hasc : Ascending cmp t.toList)
include hasc

/-- A live node has no successor exactly when it holds the largest element. -/
theorem nextPath?_eq_none_iff {n : Nat} {p : Path} {x : α} (hp : t.pathTo? n = some p)
    (hx : t.nodeAt? p = some (n, x)) : t.nextPath? p = none ↔ ∀ y ∈ t.toList, cmp y x ≠ .gt := by
  obtain ⟨i, hi, -, rfl⟩ := exists_index_of_pathTo? hnd hp
  obtain ⟨hix, rfl⟩ := getElem_toList_of_nodeAt? hi hx
  have hlen : t.toList.length = t.paths.length := by
    rw [length_toList, length_paths, size_eq_length_nodes]
  rw [hasc.forall_ne_gt_iff hix, nextPath?_getElem_paths t i hi, List.getElem?_eq_none_iff]
  omega

/-- A live node has no predecessor exactly when it holds the smallest element. -/
theorem prevPath?_eq_none_iff {n : Nat} {p : Path} {x : α} (hp : t.pathTo? n = some p)
    (hx : t.nodeAt? p = some (n, x)) : t.prevPath? p = none ↔ ∀ y ∈ t.toList, cmp y x ≠ .lt := by
  obtain ⟨i, hi, -, rfl⟩ := exists_index_of_pathTo? hnd hp
  obtain ⟨hix, rfl⟩ := getElem_toList_of_nodeAt? hi hx
  rw [hasc.forall_ne_lt_iff hix, prevPath?_getElem_paths t i hi]
  split
  · simp [*]
  · next hi0 =>
    simp only [hi0, iff_false]
    rw [List.getElem?_eq_getElem (by omega)]
    simp

end Neighbours

/-- The first node is the first of the walk. -/
theorem firstPath?_bind_nodeAt? (t : Tree α) : t.firstPath?.bind t.nodeAt? = t.nodes.head? := by
  rw [← head?_paths, List.head?_eq_getElem?, bind_nodeAt?_getElem?_paths, List.head?_eq_getElem?]

/-- The last node is the last of the walk. -/
theorem lastPath?_bind_nodeAt? (t : Tree α) : t.lastPath?.bind t.nodeAt? = t.nodes.getLast? := by
  rw [← getLast?_paths, List.getLast?_eq_getElem?, bind_nodeAt?_getElem?_paths, length_paths,
    List.getLast?_eq_getElem?]

section Ends

variable [Std.TransCmp cmp] {t : Tree α} (hasc : Ascending cmp t.toList)
include hasc

theorem least_of_firstPath? {p : Path} {n : Nat} {x : α} (hp : t.firstPath? = some p)
    (hx : t.nodeAt? p = some (n, x)) : ∀ y ∈ t.toList, cmp y x ≠ .lt := by
  rw [← head?_paths, List.head?_eq_getElem?, List.getElem?_eq_some_iff] at hp
  obtain ⟨h0, rfl⟩ := hp
  obtain ⟨h0', rfl⟩ := getElem_toList_of_nodeAt? h0 hx
  exact (hasc.forall_ne_lt_iff h0').2 rfl

theorem greatest_of_lastPath? {p : Path} {n : Nat} {x : α} (hp : t.lastPath? = some p)
    (hx : t.nodeAt? p = some (n, x)) : ∀ y ∈ t.toList, cmp y x ≠ .gt := by
  rw [← getLast?_paths, List.getLast?_eq_getElem?, List.getElem?_eq_some_iff] at hp
  obtain ⟨hlast, rfl⟩ := hp
  obtain ⟨hlast', rfl⟩ := getElem_toList_of_nodeAt? hlast hx
  refine (hasc.forall_ne_gt_iff hlast').2 ?_
  rw [length_toList, size_eq_length_nodes, ← length_paths]
  omega

end Ends

/-- A tree whose slots are distinct and whose elements ascend under `cmp` links every live
node to its in-order neighbours. -/
theorem neighbours [Std.TransCmp cmp] {t : Tree α} (hnd : t.slots.Nodup)
    (hasc : Ascending cmp t.toList) : t.Neighbours cmp where
  next _ _ _ hn hp := next_bind_nodeAt? hnd hn hp
  prev _ _ _ hn hp := prev_bind_nodeAt? hnd hn hp
  next_eq_none _ _ _ hp hx := nextPath?_eq_none_iff hnd hasc hp hx
  prev_eq_none _ _ _ hp hx := prevPath?_eq_none_iff hnd hasc hp hx
  prev_next _ _ _ hp hq := prevPath?_of_nextPath? hnd hp hq
  next_prev _ _ _ hp hq := nextPath?_of_prevPath? hnd hp hq
  first := firstPath?_bind_nodeAt? t
  last := lastPath?_bind_nodeAt? t
  first_least _ _ _ hp hx := least_of_firstPath? hasc hp hx
  last_greatest _ _ _ hp hx := greatest_of_lastPath? hasc hp hx

end Tree

/-- In every set and every map that the operations build, each live node's successor is the
node of the next element in order and its predecessor the node of the previous one, with none
exactly at the largest and the smallest element; the two steps undo each other; and the first
and last nodes hold the smallest and the largest elements. -/
theorem reachable_neighbours {α κ ν : Type} [BEq ν] :
    (∀ (cmp : α → α → Ordering) [Std.TransCmp cmp] (s : AvlSet α),
      AvlSet.Reachable cmp s → s.root.Neighbours cmp) ∧
    (∀ (keyCmp : κ → κ → Ordering) [Std.TransCmp keyCmp] (m : MultiMap κ ν),
      MultiMap.Reachable keyCmp m → m.root.Neighbours (Entry.byKey keyCmp)) := by
  constructor
  · intro cmp _ s hs
    have hv := hs.valid
    exact Tree.neighbours hv.accounts.nodup (hs.cmp_eq ▸ hv.ascending)
  · intro keyCmp _ m hm
    have hv : m.entries.Valid := hm.valid
    have hasc : Ascending (Entry.byKey m.keyCmp) m.root.toList := hv.ascending
    exact Tree.neighbours hv.accounts.nodup (hm.keyCmp_eq ▸ hasc)

theorem ofList_neighbours :
    AvlSet.Reachable compare (AvlSet.ofList (compare : Int → Int → Ordering) [2, 1, 3] 1) ∧
      (AvlSet.ofList (compare : Int → Int → Ordering) [2, 1, 3] 1).root.Neighbours compare :=
  ⟨.ofList _ _ _, (@reachable_neighbours Int Int Int _).1 compare _ (.ofList _ _ _)⟩

end AvlCollections
