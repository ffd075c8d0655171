import AvlCollections.Set.Basic
import AvlCollections.Proofs.Tree.Insert
import AvlCollections.Proofs.Tree.Erase
import AvlCollections.Proofs.Tree.Search
import AvlCollections.Proofs.SlotPool

/-! # The representation invariant of sets

A set is `Valid` when its tree is `Avl`, its elements ascend under its comparator, and its
pool accounts for exactly the slots of the tree's nodes.

`Reachable cmp` collects the sets that the tree-level operations build from an empty set
ordered by `cmp`: placing a new element, removing the node at a path, clearing, copying,
editing an element in place within its equivalence class, and changing the duplicate
policy. Every reachable set is valid, and the public operations (`add` under either policy,
`remove`, `removeBy`, `extend`, `ofList`) keep a set reachable.
-/

namespace AvlCollections

namespace AvlSet

variable {α : Type}

/-! ## What the operations do to the parts of a set -/

/-- Placing an element that has no equivalent adds a node in the pool's next slot and
touches the stamp. -/
theorem place_eq_added {s s' : AvlSet α} {x : α} {fresh slot : Nat}
    (h : s.place x fresh = .added slot s') :
    ∃ t, s.root.insert s.cmp x s.pool.next = .added t ∧ slot = s.pool.next ∧
      s' = { s with root := t, pool := s.pool.alloc, stamp := s.stamp.touch fresh } := by
  unfold place at h
  split at h
  · next t ht =>
    cases h
    exact ⟨t, ht, rfl, rfl⟩
  · cases h

theorem place_eq_found {s : AvlSet α} {x : α} {fresh slot : Nat} {p : Path}
    (h : s.place x fresh = .found slot p) :
    s.root.insert s.cmp x s.pool.next = .occupied slot p := by
  unfold place at h
  split at h
  · cases h
  · next slot' p' ht =>
    cases h
    exact ht

theorem eraseAt_of_some {s : AvlSet α} {p : Path} {fresh : Nat} {x : α} {freed : Nat}
    {t : Tree α} (h : s.root.eraseAt p = some (x, freed, t)) :
    s.eraseAt p fresh =
      (some x, { s with root := t, pool := s.pool.release freed, stamp := s.stamp.touch fresh }) := by
  simp [eraseAt, h]

theorem eraseAt_of_none {s : AvlSet α} {p : Path} {fresh : Nat} (h : s.root.eraseAt p = none) :
    s.eraseAt p fresh = (none, s) := by
  simp [eraseAt, h]

@[simp] theorem cmp_eraseAt (s : AvlSet α) (p : Path) (fresh : Nat) :
    (s.eraseAt p fresh).2.cmp = s.cmp := by
  cases h : s.root.eraseAt p with
  | none => simp [eraseAt_of_none h]
  | some r =>
    obtain ⟨x, freed, t⟩ := r
    simp [eraseAt_of_some h]

/-! ## The invariant -/

/-- The tree is `Avl`, its elements ascend under the set's comparator, and the pool accounts
for the slots of its nodes. -/
structure Valid (s : AvlSet α) : Prop where
  avl : s.root.Avl
  ascending : Ascending s.cmp s.root.toList
  accounts : s.pool.Accounts s.root.slots

theorem Valid.empty (cmp : α → α → Ordering) (capacity : Nat) : (empty cmp capacity).Valid :=
  ⟨Tree.avl_nil, Ascending.nil, SlotPool.accounts_withCapacity capacity⟩

theorem Valid.place {s s' : AvlSet α} [Std.TransCmp s.cmp] {x : α} {fresh slot : Nat}
    (hv : s.Valid) (h : s.place x fresh = .added slot s') : s'.Valid := by
  obtain ⟨t, ins, -, rfl⟩ := place_eq_added h
  obtain ⟨xs, ys, hn, hn', below, above⟩ := Tree.nodes_insert hv.ascending ins
  refine ⟨(Tree.avl_insert hv.avl ins).1, ?_, hv.accounts.alloc ?_⟩
  · -- the new element goes between the smaller and the larger ones
    have hasc := hv.ascending
    rw [Tree.toList_eq_map_nodes, hn, List.map_append] at hasc
    rw [Tree.toList_eq_map_nodes, hn', List.map_append, List.map_cons]
    refine hasc.insert (fun a ha => ?_) (fun b hb => ?_)
    · obtain ⟨e, he, rfl⟩ := List.mem_map.1 ha
      exact below e he
    · obtain ⟨e, he, rfl⟩ := List.mem_map.1 hb
      exact above e he
  · simp only [Tree.slots_eq_map_nodes, hn, hn', List.map_append, List.map_cons]
    exact List.perm_middle

theorem Valid.eraseAt {s : AvlSet α} (hv : s.Valid) (p : Path) (fresh : Nat) :
    (s.eraseAt p fresh).2.Valid := by
  cases h : s.root.eraseAt p with
  | none => rwa [eraseAt_of_none h]
  | some r =>
    obtain ⟨x, freed, t⟩ := r
    rw [eraseAt_of_some h]
    obtain ⟨as, bs, hb, ha⟩ := Tree.toList_eraseAt h
    obtain ⟨as', bs', hb', ha'⟩ := Tree.slots_eraseAt h
    refine ⟨(Tree.avl_eraseAt hv.avl h).1, ?_, ?_⟩
    · -- what is left is a sublist of an ascending list
      have hasc := hv.ascending
      rw [hb] at hasc
      show Ascending s.cmp t.toList
      rw [ha]
      exact hasc.sublist (List.Sublist.append_left (List.sublist_cons_self x bs) as)
    · have hacc := hv.accounts
      rw [hb'] at hacc
      show (s.pool.release freed).Accounts t.slots
      rw [ha']
      exact hacc.release

theorem Valid.removeBy {s : AvlSet α} (hv : s.Valid) (probe : α → Ordering) (fresh : Nat) :
    (s.removeBy probe fresh).2.Valid := by
  unfold AvlSet.removeBy
  split
  · exact hv.eraseAt _ fresh
  · exact hv

theorem Valid.clear {s : AvlSet α} (fresh : Nat) : (s.clear fresh).Valid :=
  ⟨Tree.avl_nil, Ascending.nil, SlotPool.accounts_reset s.pool⟩

theorem Valid.copy {s : AvlSet α} (hv : s.Valid) (fresh : Nat) : (s.copy fresh).Valid :=
  ⟨hv.avl, hv.ascending, hv.accounts.copy⟩

theorem Valid.withPolicy {s : AvlSet α} (hv : s.Valid) (policy : Policy) :
    (s.withPolicy policy).Valid :=
  ⟨hv.avl, hv.ascending, hv.accounts⟩

/-- Editing an element in place keeps the set valid when the new element is equivalent to the
old one. -/
theorem Valid.modifyAt {s : AvlSet α} [Std.TransCmp s.cmp] (hv : s.Valid) (p : Path)
    (f : α → α) (hf : ∀ n v, s.root.nodeAt? p = some (n, v) → s.cmp (f v) v = .eq) :
    (s.modifyAt p f).Valid := by
  refine ⟨hv.avl.modifyAt f p, ?_, by simpa [AvlSet.modifyAt] using hv.accounts⟩
  show Ascending s.cmp (s.root.modifyAt f p).toList
  cases hp : s.root.nodeAt? p with
  | none => rw [Tree.modifyAt_eq_self hp]; exact hv.ascending
  | some nv =>
    obtain ⟨n, v⟩ := nv
    obtain ⟨as, bs, hb, ha⟩ := Tree.toList_modifyAt (f := f) hp
    have hasc := hv.ascending
    rw [hb] at hasc
    rw [ha]
    exact hasc.replace (hf n v hp)

/-! ## Reachable sets -/

/-- The sets that the tree-level operations build from an empty set ordered by `cmp`: new
nodes for elements with no equivalent, removals at a path, clears, copies, edits in place
within an element's equivalence class, and changes of policy. -/
inductive Reachable (cmp : α → α → Ordering) : AvlSet α → Prop where
  | empty (capacity : Nat) : Reachable cmp (empty cmp capacity)
  | place {s s' : AvlSet α} {x : α} {fresh slot : Nat} :
      Reachable cmp s → s.place x fresh = .added slot s' → Reachable cmp s'
  | eraseAt {s : AvlSet α} (p : Path) (fresh : Nat) :
      Reachable cmp s → Reachable cmp (s.eraseAt p fresh).2
  | clear {s : AvlSet α} (fresh : Nat) : Reachable cmp s → Reachable cmp (s.clear fresh)
  | copy {s : AvlSet α} (fresh : Nat) : Reachable cmp s → Reachable cmp (s.copy fresh)
  | modifyAt {s : AvlSet α} (p : Path) (f : α → α) :
      Reachable cmp s → (∀ n v, s.root.nodeAt? p = some (n, v) → cmp (f v) v = .eq) →
        Reachable cmp (s.modifyAt p f)
  | withPolicy {s : AvlSet α} (policy : Policy) :
      Reachable cmp s → Reachable cmp (s.withPolicy policy)

variable {cmp : α → α → Ordering}

/-- No operation changes the comparator. -/
theorem Reachable.cmp_eq {s : AvlSet α} (h : Reachable cmp s) : s.cmp = cmp := by
  induction h with
  | empty => rfl
  | place _ hp ih =>
    obtain ⟨t, -, -, rfl⟩ := place_eq_added hp
    exact ih
  | eraseAt p fresh _ ih => rwa [cmp_eraseAt]
  | clear _ _ ih | copy _ _ ih | modifyAt _ _ _ _ ih | withPolicy _ _ ih => exact ih

theorem Reachable.valid [Std.TransCmp cmp] {s : AvlSet α} (h : Reachable cmp s) : s.Valid := by
  induction h with
  | empty capacity => exact Valid.empty cmp capacity
  | @place s s' x fresh slot hs hp ih =>
    have : Std.TransCmp s.cmp := by rw [hs.cmp_eq]; infer_instance
    exact ih.place hp
  | eraseAt p fresh _ ih => exact ih.eraseAt p fresh
  | clear fresh _ _ => exact Valid.clear fresh
  | copy fresh _ ih => exact ih.copy fresh
  | @modifyAt s p f hs hf ih =>
    have : Std.TransCmp s.cmp := by rw [hs.cmp_eq]; infer_instance
    exact ih.modifyAt p f (by rw [hs.cmp_eq]; exact hf)
  | withPolicy policy _ ih => exact ih.withPolicy policy

/-! ## The public operations keep a set reachable -/

theorem Reachable.add {s : AvlSet α} (h : Reachable cmp s) (x : α) (fresh : Nat) :
    Reachable cmp (s.add x fresh).2 := by
  unfold AvlSet.add
  split
  · next slot s' hp => exact h.place hp
  · next slot p hp =>
    split
    · exact h
    · -- a replaced element is equivalent to the one it replaces
      obtain ⟨v, hv, e⟩ := Tree.nodeAt?_of_insert_occupied (place_eq_found hp)
      have hs := h.modifyAt p (fun _ => x) fun n v' hv' => by
        rw [hv] at hv'
        cases hv'
        rwa [← h.cmp_eq]
      simpa [AvlSet.modifyAt, Tree.setAt_eq_modifyAt] using hs

theorem Reachable.removeBy {s : AvlSet α} (h : Reachable cmp s) (probe : α → Ordering)
    (fresh : Nat) : Reachable cmp (s.removeBy probe fresh).2 := by
  unfold AvlSet.removeBy
  split
  · exact h.eraseAt _ fresh
  · exact h

theorem Reachable.remove {s : AvlSet α} (h : Reachable cmp s) (x : α) (fresh : Nat) :
    Reachable cmp (s.remove x fresh).2 :=
  h.removeBy _ fresh

theorem Reachable.extend {s : AvlSet α} (h : Reachable cmp s) (xs : List α) (fresh : Nat) :
    Reachable cmp (s.extend xs fresh) := by
  induction xs generalizing s with
  | nil => exact h
  | cons x xs ih => exact ih (h.add x fresh)

theorem Reachable.ofList (cmp : α → α → Ordering) (xs : List α) (fresh : Nat) :
    Reachable cmp (AvlSet.ofList cmp xs fresh) :=
  (Reachable.empty 0).extend xs fresh

/-! ## The invariant of reachable sets -/

/-- The representation invariant of a set ordered by `cmp`. -/
structure Invariant (cmp : α → α → Ordering) (s : AvlSet α) : Prop where
  /-- No slot holds two nodes. -/
  nodup : s.root.slots.Nodup
  /-- The slots of the nodes reached from the root are the pool's live slots. -/
  live : ∀ n, n ∈ s.root.slots ↔ n < s.pool.count ∧ n ∉ s.pool.free
  /-- There are `len` of them. -/
  len_eq : s.len = s.pool.live
  /-- A node's slot locates the node, so the parent of the node at `p ++ [d]` is at `p`. -/
  located : ∀ p n v, s.root.nodeAt? p = some (n, v) → s.root.pathTo? n = some p
  /-- Cached heights are right and every node is balanced. -/
  avl : s.root.Avl
  /-- The elements ascend under `cmp`. -/
  ascending : Ascending cmp s.toList

theorem Valid.invariant {s : AvlSet α} (hv : s.Valid) : s.Invariant s.cmp where
  nodup := hv.accounts.nodup
  live _ := hv.accounts.mem_iff
  len_eq := by rw [hv.accounts.live_eq, Tree.length_slots]; rfl
  located _ _ _ hp := Tree.pathTo?_of_nodeAt? hv.accounts.nodup hp
  avl := hv.avl
  ascending := hv.ascending

end AvlSet

end AvlCollections
