import AvlCollections.Proofs.Set.Stepping
import AvlCollections.MultiMap.Basic

/-! # Operations that fail or miss change nothing

An addition refused as a duplicate, a removal of an element that is not there, a removal at a
cursor that the set refuses, and the edits and removals of a map under a missing key all hand
back the collection they were given, whole: its tree with every slot, link and element, its
pool and its stamp. A set refuses a cursor when the cursor's stamp fails the check, or when it
passes but the cursor stands on a sentinel or on a slot without a node.

A removal at a cursor that the set accepts on a node takes out exactly the element at the
cursor's position, and the other elements stay in order. When that node has two children it
stays in the tree with the element of its in-order successor, and the successor's node goes;
the element returned is still the one the cursor was on, since removal reads it before the
successor's element moves up.
-/

namespace AvlCollections

namespace Tree

variable {α : Type}

/-- Removing the node at the `i`-th path of the walk removes the element at index `i`. -/
theorem toList_eraseAt_getElem_paths {t t' : Tree α} {i : Nat} (hi : i < t.paths.length)
    {x : α} {freed : Nat} (h : t.eraseAt t.paths[i] = some (x, freed, t')) :
    t'.toList = t.toList.eraseIdx i := by
  induction t generalizing i t' with
  | nil => simp at hi
  | node l s v hh r ihl ihr =>
    have hl : l.paths.length = l.toList.length := by
      rw [length_paths, toList_eq_map_nodes, List.length_map]
    simp only [paths_node] at h hi
    rw [toList_node]
    rcases Nat.lt_or_ge i l.paths.length with hi' | hi'
    · -- in the left subtree
      rw [List.getElem_append_left (by simpa using hi'), List.getElem_map] at h
      rcases eraseAt_node_eq h with ⟨hp, -⟩ | ⟨q, l', hq, hl', rfl⟩ | ⟨q, r', hq, -⟩
      · cases hp
      · cases hq
        rw [toList_balance, ihl hi' hl', List.eraseIdx_append_of_lt_length (by omega)]
      · cases hq
    · rw [List.getElem_append_right (by simpa using hi')] at h
      simp only [List.length_map] at h
      rcases Nat.eq_or_lt_of_le hi' with heq | hlt
      · -- the top
        subst heq
        simp only [Nat.sub_self, List.getElem_cons_zero] at h
        rcases eraseAt_node_eq h with ⟨-, -, htop⟩ | ⟨q, l', hq, -⟩ | ⟨q, r', hq, -⟩
        · rw [toList_eraseTop htop, List.eraseIdx_append_of_length_le (by omega), hl,
            Nat.sub_self, List.eraseIdx_cons_zero]
        · cases hq
        · cases hq
      · -- in the right subtree
        obtain ⟨j, rfl⟩ : ∃ j, i = l.paths.length + 1 + j := ⟨i - l.paths.length - 1, by omega⟩
        have hj : j < r.paths.length := by simp at hi; omega
        simp only [show l.paths.length + 1 + j - l.paths.length = j + 1 by omega,
          List.getElem_cons_succ, List.getElem_map] at h
        rcases eraseAt_node_eq h with ⟨hp, -⟩ | ⟨q, l', hq, -⟩ | ⟨q, r', hq, hr', rfl⟩
        · cases hp
        · cases hq
        · cases hq
          rw [toList_balance, ihr hj hr', List.eraseIdx_append_of_length_le (by omega), hl,
            show l.toList.length + 1 + j - l.toList.length = j + 1 by omega,
            List.eraseIdx_cons_succ]

end Tree

namespace AvlSet

variable {α : Type} {s : AvlSet α}

/-- A removal by a probe that answers `eq` at no element finds nothing and changes nothing. -/
theorem removeBy_of_forall_ne {probe : α → Ordering} (h : ∀ y ∈ s.toList, probe y ≠ .eq)
    (fresh : Nat) : s.removeBy probe fresh = (none, s) := by
  cases hf : s.findBy probe with
  | none => simp [removeBy, hf]
  | some p =>
    obtain ⟨n, v, hv, e⟩ := Tree.nodeAt?_of_find? hf
    exact absurd e (h v (Tree.mem_toList_of_nodeAt? hv))

theorem remove_of_forall_ne {x : α} (h : ∀ y ∈ s.toList, s.cmp x y ≠ .eq) (fresh : Nat) :
    s.remove x fresh = (none, s) :=
  removeBy_of_forall_ne h fresh

/-- A removal at a cursor that the set refuses changes nothing and reports the refusal. -/
theorem removeAt_of_locateNode_error {c : Cursor} {f : Fault} (h : s.locateNode c = .error f)
    (fresh : Nat) : s.removeAt c fresh = (.error (.invalidIterator f), s) := by
  simp [removeAt, h]

/-- Why a set refuses a cursor where a node is needed: the cursor's stamp fails the check with
`f`, or it passes and the cursor stands on a sentinel, or on a slot that holds no node. -/
theorem locateNode_eq_error_iff {c : Cursor} {f : Fault} :
    s.locateNode c = .error f ↔ c.stamp.check s.stamp = .error f ∨
      (c.stamp.check s.stamp = .ok () ∧ c.position.isSentinel ∧ f = .sentinel) ∨
      (c.stamp.check s.stamp = .ok () ∧ (∃ n, c.position = .node n ∧ n ∉ s.root.slots) ∧
        f = .detached) := by
  cases hck : c.stamp.check s.stamp with
  | error g =>
    have hl : s.locate c = .error g := by simp only [locate, hck]; rfl
    simp only [locateNode, hl]
    constructor
    · intro h
      cases h
      exact .inl rfl
    · rintro (h | ⟨h, -⟩ | ⟨h, -⟩) <;> cases h
      rfl
  | ok u =>
    cases hc : c.position with
    | node n =>
      by_cases hn : n ∈ s.root.slots
      · -- a node of the tree is found
        obtain ⟨p, hp⟩ := Tree.pathTo?_of_mem hn
        rw [locateNode_of_locate_some (locate_node_of_check hck hc hp)]
        simp [hn, Position.isSentinel]
      · have hl : s.locate c = .error .detached := by
          simp only [locate, hck, hc, Tree.pathTo?_eq_none_iff.2 hn]
          rfl
        simp only [locateNode, hl]
        constructor
        · intro h
          cases h
          exact .inr (.inr ⟨by simp, ⟨n, rfl, hn⟩, rfl⟩)
        · rintro (h | ⟨-, h, -⟩ | ⟨-, -, rfl⟩)
          · cases h
          · simp [Position.isSentinel] at h
          · rfl
    | preBegin =>
      rw [locateNode_of_locate_none (locate_sentinel_of_check hck (by rw [hc]; rfl))]
      simp [Position.isSentinel, eq_comm]
    | pastEnd =>
      rw [locateNode_of_locate_none (locate_sentinel_of_check hck (by rw [hc]; rfl))]
      simp [Position.isSentinel, eq_comm]

/-- A removal at the position of the element at index `i` returns that element and takes it
out of the list of elements. -/
theorem removeAt_walkPos (hnd : s.root.slots.Nodup) {c : Cursor} {i : Nat}
    (hck : c.stamp.check s.stamp = .ok ()) (hpos : c.position = s.walkPos (i + 1))
    (hi : i < s.len) (fresh : Nat) :
    ∃ x, s.toList[i]? = some x ∧ (s.removeAt c fresh).1 = .ok x ∧
      (s.removeAt c fresh).2.toList = s.toList.eraseIdx i := by
  obtain ⟨hp, hl⟩ := locate_walkPos_succ hnd hck hi hpos
  have hn : i < s.root.nodes.length := by rwa [← Tree.length_paths]
  have hat := Tree.nodeAt?_getElem_paths s.root i hp
  rw [List.getElem?_eq_getElem hn] at hat
  obtain ⟨freed, t, he⟩ := Tree.eraseAt_of_nodeAt? hat
  refine ⟨s.root.nodes[i].2, ?_, ?_, ?_⟩
  · simp [toList, Tree.toList_eq_map_nodes, List.getElem?_map, List.getElem?_eq_getElem hn]
  · simp [removeAt, locateNode_of_locate_some hl, eraseAt_of_some he]
  · simp only [removeAt, locateNode_of_locate_some hl, eraseAt_of_some he]
    exact Tree.toList_eraseAt_getElem_paths hp he

end AvlSet

namespace MultiMap

variable {κ ν : Type} {m : MultiMap κ ν} {k : κ}

/-- A key that no entry's key is equivalent to is located nowhere. -/
theorem locate_of_forall_ne (h : ∀ e ∈ m.toList, m.keyCmp k e.key ≠ .eq) : m.locate k = none := by
  cases hf : m.locate k with
  | none => rfl
  | some p =>
    obtain ⟨n, e, he, eq⟩ := Tree.nodeAt?_of_find? hf
    exact absurd eq (h e (Tree.mem_toList_of_nodeAt? he))

section Missing

variable (h : ∀ e ∈ m.toList, m.keyCmp k e.key ≠ .eq)
include h

theorem lookup_of_forall_ne : m.lookup k = .error .indexOutOfRange := by
  simp [lookup, get?, entry?, locate_of_forall_ne h]

theorem setValue?_of_forall_ne (v : ν) : m.setValue? k v = none := by
  simp [setValue?, locate_of_forall_ne h]

theorem remove_of_forall_ne (fresh : Nat) : m.remove k fresh = (none, m) := by
  simp [remove, locate_of_forall_ne h]

theorem removeValue_of_forall_ne [BEq ν] (v : ν) (fresh : Nat) :
    m.removeValue k v fresh = (0, m) := by
  simp [removeValue, locate_of_forall_ne h]

end Missing

end MultiMap

/-! ## Failures in sets and maps -/

variable {α κ ν : Type}

/-- What a set does when an operation fails or misses: a duplicate refused, an absent
element, a refused cursor leave it whole; and what a removal at an accepted cursor on a node
takes out. -/
structure AvlSet.Refusals (s : AvlSet α) : Prop where
  add_duplicate : ∀ x y fresh, y ∈ s.toList → s.cmp x y = .eq → s.policy = .reject →
    s.add x fresh = (.error .duplicateKey, s)
  remove_absent : ∀ x fresh, (∀ y ∈ s.toList, s.cmp x y ≠ .eq) → s.remove x fresh = (none, s)
  removeBy_absent : ∀ probe fresh, (∀ y ∈ s.toList, probe y ≠ .eq) →
    s.removeBy probe fresh = (none, s)
  removeAt_refused : ∀ c f fresh, s.locateNode c = .error f →
    s.removeAt c fresh = (.error (.invalidIterator f), s)
  refused_iff : ∀ c f, s.locateNode c = .error f ↔ c.stamp.check s.stamp = .error f ∨
    (c.stamp.check s.stamp = .ok () ∧ c.position.isSentinel ∧ f = .sentinel) ∨
    (c.stamp.check s.stamp = .ok () ∧ (∃ n, c.position = .node n ∧ n ∉ s.root.slots) ∧
      f = .detached)
  removeAt_node : ∀ c i fresh, s.accepts c → c.position = s.walkPos (i + 1) → i < s.len →
    ∃ x, s.toList[i]? = some x ∧ (s.removeAt c fresh).1 = .ok x ∧
      (s.removeAt c fresh).2.toList = s.toList.eraseIdx i

/-- What a map does under a key that no entry has: the key is located nowhere, so reading or
setting its value fails, and removing it, or a value under it, changes nothing. -/
structure MultiMap.Misses [BEq ν] (m : MultiMap κ ν) : Prop where
  locate : ∀ k, (∀ e ∈ m.toList, m.keyCmp k e.key ≠ .eq) → m.locate k = none
  lookup : ∀ k, (∀ e ∈ m.toList, m.keyCmp k e.key ≠ .eq) → m.lookup k = .error .indexOutOfRange
  setValue : ∀ k v, (∀ e ∈ m.toList, m.keyCmp k e.key ≠ .eq) → m.setValue? k v = none
  remove : ∀ k fresh, (∀ e ∈ m.toList, m.keyCmp k e.key ≠ .eq) → m.remove k fresh = (none, m)
  removeValue : ∀ k v fresh, (∀ e ∈ m.toList, m.keyCmp k e.key ≠ .eq) →
    m.removeValue k v fresh = (0, m)

theorem AvlSet.Valid.refusals {s : AvlSet α} [Std.TransCmp s.cmp] (hv : s.Valid) :
    s.Refusals where
  add_duplicate _ _ fresh hy e hr := AvlSet.add_of_equiv_reject hv hy e hr fresh
  remove_absent _ fresh h := AvlSet.remove_of_forall_ne h fresh
  removeBy_absent _ fresh h := AvlSet.removeBy_of_forall_ne h fresh
  removeAt_refused _ _ fresh h := AvlSet.removeAt_of_locateNode_error h fresh
  refused_iff _ _ := AvlSet.locateNode_eq_error_iff
  removeAt_node _ _ fresh h hpos hi :=
    AvlSet.removeAt_walkPos hv.accounts.nodup (AvlSet.check_of_accepts h) hpos hi fresh

theorem MultiMap.misses [BEq ν] (m : MultiMap κ ν) : m.Misses where
  locate _ h := MultiMap.locate_of_forall_ne h
  lookup _ h := MultiMap.lookup_of_forall_ne h
  setValue _ v h := MultiMap.setValue?_of_forall_ne h v
  remove _ fresh h := MultiMap.remove_of_forall_ne h fresh
  removeValue _ v fresh h := MultiMap.removeValue_of_forall_ne h v fresh

/-- In every set built by the operations and every map, an operation that fails or misses
hands back the collection whole, and a removal at an accepted cursor on a node returns the
element at the cursor's position and leaves the others in order. -/
theorem failed_operations_change_nothing {cmp : α → α → Ordering} [Std.TransCmp cmp] [BEq ν]
    {s : AvlSet α} (hs : AvlSet.Reachable cmp s) (m : MultiMap κ ν) : s.Refusals ∧ m.Misses := by
  have : Std.TransCmp s.cmp := by rw [hs.cmp_eq]; infer_instance
  exact ⟨hs.valid.refusals, m.misses⟩

theorem ofList_failed_operations_change_nothing :
    AvlSet.Reachable compare (AvlSet.ofList (compare : Int → Int → Ordering) [2, 1, 3] 1) ∧
      (AvlSet.ofList (compare : Int → Int → Ordering) [2, 1, 3] 1).Refusals ∧
      (MultiMap.ofList (compare : Int → Int → Ordering) [(1, (5 : Int))] 1).Misses :=
  ⟨AvlSet.Reachable.ofList _ _ _, failed_operations_change_nothing (AvlSet.Reachable.ofList _ _ _)
    (MultiMap.ofList (compare : Int → Int → Ordering) [(1, (5 : Int))] 1)⟩

end AvlCollections
