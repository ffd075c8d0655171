import AvlCollections.Proofs.Set.SortedList
import AvlCollections.Proofs.Set.Stamps

/-! # Stepping cursors through a set

A set of `n` elements has `n + 2` cursor positions, numbered by `walkPos`: 0 before the first
element, `i + 1` on the node of the element at index `i`, and `n + 1` past the last. Every
cursor that the set accepts stands at one of them. A step forward goes from position `k ≤ n` to
`k + 1` and fails past the end; a step back goes from `k + 1` to `k` and fails before the
beginning; so each step undoes the other, and `n + 1 - k` steps forward from position `k` pass
the elements from index `k` on, in order, and stop past the end.

The neighbours are found through the links of the tree (`nextPath?`, `prevPath?`: down to the
smallest or largest node of a subtree, or up to the nearest ancestor reached from the other
side), and they agree with the in-order walk in every tree, whatever its shape.

A move that fails returns its fault and no cursor, so the cursor the caller holds keeps its
position.
-/

namespace AvlCollections

namespace Tree

variable {α : Type}

/-- Every node is reached by one of the paths of the in-order walk. -/
theorem mem_paths_of_nodeAt? {t : Tree α} {p : Path} {x : Nat × α} (h : t.nodeAt? p = some x) :
    p ∈ t.paths := by
  induction t generalizing p with
  | nil => simp at h
  | node l s v hh r ihl ihr =>
    match p, h with
    | [], _ => simp
    | .left :: q, h => simp [ihl h]
    | .right :: q, h => simp [ihr h]

theorem getElem?_slots (t : Tree α) (i : Nat) : t.slots[i]? = t.nodes[i]?.map Prod.fst := by
  rw [slots_eq_map_nodes, List.getElem?_map]

end Tree

namespace AvlSet

variable {α : Type} {s : AvlSet α}

/-! ## Positions -/

/-- The cursor position numbered `k` in the in-order walk of the set: before the first element
for 0, on the node of the element at index `k - 1` for `1 ≤ k ≤ n`, past the last element
from `n + 1` on. -/
def walkPos (s : AvlSet α) : Nat → Position
  | 0 => .preBegin
  | k + 1 => (s.root.slots[k]?).elim .pastEnd .node

@[simp] theorem walkPos_zero (s : AvlSet α) : s.walkPos 0 = .preBegin := rfl

theorem length_slots_root (s : AvlSet α) : s.root.slots.length = s.len :=
  Tree.length_slots s.root

theorem walkPos_succ_of_lt {k : Nat} (hk : k < s.len) :
    s.walkPos (k + 1) = .node (s.root.slots.get ⟨k, by rw [length_slots_root]; exact hk⟩) := by
  simp [walkPos, List.getElem?_eq_getElem (by rw [length_slots_root]; exact hk : k < _)]

theorem walkPos_succ_of_le {k : Nat} (hk : s.len ≤ k) : s.walkPos (k + 1) = .pastEnd := by
  simp [walkPos, List.getElem?_eq_none (by rw [length_slots_root]; exact hk : _ ≤ k)]

/-- Moving to the `i`-th path of the walk lands on the node in the `i`-th slot, or at
`outside` when there are at most `i` nodes. -/
theorem positionAt_getElem?_paths (s : AvlSet α) (outside : Position) (i : Nat) :
    s.positionAt outside s.root.paths[i]? = (s.root.slots[i]?).elim outside .node := by
  rw [Tree.getElem?_slots]
  rcases Nat.lt_or_ge i s.root.paths.length with hi | hi
  · have hn : i < s.root.nodes.length := by rwa [← Tree.length_paths]
    rw [List.getElem?_eq_getElem hi, positionAt, Tree.nodeAt?_getElem_paths _ i hi,
      List.getElem?_eq_getElem hn]
    rfl
  · rw [List.getElem?_eq_none hi, List.getElem?_eq_none (by rwa [← Tree.length_paths])]
    rfl

theorem positionAt_getElem?_paths_of_lt (outside : Position) {i : Nat} (hi : i < s.len) :
    s.positionAt outside s.root.paths[i]? = s.walkPos (i + 1) := by
  rw [positionAt_getElem?_paths, walkPos_succ_of_lt hi,
    List.getElem?_eq_getElem (by rw [length_slots_root]; exact hi)]
  rfl

theorem cursorAtPath_eq (s : AvlSet α) (p? : Option Path) :
    s.cursorAtPath p? = s.cursorAt (s.positionAt .pastEnd p?) := by
  cases p? with
  | none => rfl
  | some p =>
    cases h : s.root.nodeAt? p with
    | none => simp [cursorAtPath, positionAt, h]
    | some x => simp [cursorAtPath, positionAt, h]

/-! ## What a move does once the cursor is located -/

theorem locateNode_of_locate_some {c : Cursor} {p : Path} (h : s.locate c = .ok (some p)) :
    s.locateNode c = .ok p := by
  simp only [locateNode, h]
  rfl

theorem locateNode_of_locate_none {c : Cursor} (h : s.locate c = .ok none) :
    s.locateNode c = .error .sentinel := by
  simp only [locateNode, h]
  rfl

theorem next_of_locate_error {c : Cursor} {f : Fault} (h : s.locate c = .error f) :
    s.next c = .error f := by
  simp only [next, h]
  rfl

theorem prev_of_locate_error {c : Cursor} {f : Fault} (h : s.locate c = .error f) :
    s.prev c = .error f := by
  simp only [prev, h]
  rfl

theorem next_of_locate_some {c : Cursor} {p : Path} (h : s.locate c = .ok (some p)) :
    s.next c = .ok { c with position := s.positionAt .pastEnd (s.root.nextPath? p) } := by
  obtain ⟨n, hpos, -⟩ := locate_eq_ok_some h
  simp only [next, h, hpos]
  rfl

theorem prev_of_locate_some {c : Cursor} {p : Path} (h : s.locate c = .ok (some p)) :
    s.prev c = .ok { c with position := s.positionAt .preBegin (s.root.prevPath? p) } := by
  obtain ⟨n, hpos, -⟩ := locate_eq_ok_some h
  simp only [prev, h, hpos]
  rfl

/-- Past the end, a step forward fails at the sentinel. -/
theorem next_pastEnd {c : Cursor} {r : Option Path} (h : s.locate c = .ok r)
    (hpos : c.position = .pastEnd) : s.next c = .error .sentinel := by
  simp only [next, h, hpos]
  rfl

/-- Before the beginning, a step back fails at the sentinel. -/
theorem prev_preBegin {c : Cursor} {r : Option Path} (h : s.locate c = .ok r)
    (hpos : c.position = .preBegin) : s.prev c = .error .sentinel := by
  simp only [prev, h, hpos]
  rfl

theorem next_preBegin {c : Cursor} (h : s.locate c = .ok none) (hpos : c.position = .preBegin) :
    s.next c = .ok { c with position := s.positionAt .pastEnd s.root.firstPath? } := by
  simp only [next, h, hpos]
  rfl

theorem prev_pastEnd {c : Cursor} (h : s.locate c = .ok none) (hpos : c.position = .pastEnd) :
    s.prev c = .ok { c with position := s.positionAt .preBegin s.root.lastPath? } := by
  simp only [prev, h, hpos]
  rfl

/-! ## Accepted cursors -/

theorem exists_locate_of_accepts {c : Cursor} (h : s.accepts c) : ∃ r, s.locate c = .ok r := by
  unfold accepts at h
  cases hl : s.locate c with
  | error f => rw [hl] at h; cases h
  | ok r => exact ⟨r, rfl⟩

theorem check_of_accepts {c : Cursor} (h : s.accepts c) : c.stamp.check s.stamp = .ok () := by
  obtain ⟨r, hr⟩ := exists_locate_of_accepts h
  exact check_of_locate hr

theorem accepts_of_locate {c : Cursor} {r : Option Path} (h : s.locate c = .ok r) :
    s.accepts c := by
  simp [accepts, h, Except.isOk, Except.toBool]

/-- A set accepts the cursors it hands out. -/
theorem accepts_of_issues {c : Cursor} (h : s.Issues c) : s.accepts c := by
  obtain ⟨r, hr⟩ := locate_of_check (by rw [h.1]; exact Stamp.check_self _) h.2
  exact accepts_of_locate hr

/-- A cursor on a node is accepted only with the path of its slot. -/
theorem locate_node_eq {c : Cursor} {n : Nat} {r : Option Path} (hc : c.position = .node n)
    (h : s.locate c = .ok r) : ∃ p, r = some p ∧ s.root.pathTo? n = some p := by
  have hck := check_of_locate h
  cases hp : s.root.pathTo? n with
  | none =>
    simp only [locate, hck, hc, hp] at h
    cases h
  | some p =>
    simp only [locate, hck, hc, hp] at h
    cases h
    exact ⟨p, rfl, rfl⟩

/-- Every cursor the set accepts stands at one of the numbered positions. -/
theorem exists_walkPos_of_accepts {c : Cursor} (h : s.accepts c) :
    ∃ k ≤ s.len + 1, c.position = s.walkPos k := by
  cases hc : c.position with
  | preBegin => exact ⟨0, Nat.zero_le _, rfl⟩
  | pastEnd => exact ⟨s.len + 1, le_rfl, (walkPos_succ_of_le le_rfl).symm⟩
  | node n =>
    -- the slot of an accepted cursor is a slot of the tree, the `i`-th for some `i`
    obtain ⟨r, hr⟩ := exists_locate_of_accepts h
    obtain ⟨p, -, hp⟩ := locate_node_eq hc hr
    obtain ⟨v, hv⟩ := Tree.nodeAt?_of_pathTo? hp
    have hmem : n ∈ s.root.slots := Tree.mem_slots_of_nodeAt? hv
    obtain ⟨i, hi, rfl⟩ := List.getElem_of_mem hmem
    have hi' : i < s.len := by rwa [length_slots_root] at hi
    exact ⟨i + 1, by omega, (walkPos_succ_of_lt hi').symm⟩

theorem locate_sentinel_eq {c : Cursor} {r : Option Path} (hc : c.position.isSentinel)
    (h : s.locate c = .ok r) : r = none := by
  rw [locate_sentinel_of_check (check_of_locate h) hc] at h
  cases h
  rfl

/-- A step forward fails only with the set's refusal of the cursor, or at the sentinel past
the end. -/
theorem next_eq_error {c : Cursor} {f : Fault} (h : s.next c = .error f) :
    s.locate c = .error f ∨ (s.accepts c ∧ c.position = .pastEnd ∧ f = .sentinel) := by
  cases hl : s.locate c with
  | error g =>
    rw [next_of_locate_error hl] at h
    cases h
    exact .inl rfl
  | ok r =>
    refine .inr ⟨accepts_of_locate hl, ?_⟩
    cases hc : c.position with
    | pastEnd =>
      rw [next_pastEnd hl hc] at h
      cases h
      exact ⟨rfl, rfl⟩
    | preBegin =>
      rw [locate_sentinel_eq (by rw [hc]; rfl) hl] at hl
      rw [next_preBegin hl hc] at h
      cases h
    | node n =>
      obtain ⟨p, rfl, -⟩ := locate_node_eq hc hl
      rw [next_of_locate_some hl] at h
      cases h

/-- A step back fails only with the set's refusal of the cursor, or at the sentinel before
the beginning. -/
theorem prev_eq_error {c : Cursor} {f : Fault} (h : s.prev c = .error f) :
    s.locate c = .error f ∨ (s.accepts c ∧ c.position = .preBegin ∧ f = .sentinel) := by
  cases hl : s.locate c with
  | error g =>
    rw [prev_of_locate_error hl] at h
    cases h
    exact .inl rfl
  | ok r =>
    refine .inr ⟨accepts_of_locate hl, ?_⟩
    cases hc : c.position with
    | preBegin =>
      rw [prev_preBegin hl hc] at h
      cases h
      exact ⟨rfl, rfl⟩
    | pastEnd =>
      rw [locate_sentinel_eq (by rw [hc]; rfl) hl] at hl
      rw [prev_pastEnd hl hc] at h
      cases h
    | node n =>
      obtain ⟨p, rfl, -⟩ := locate_node_eq hc hl
      rw [prev_of_locate_some hl] at h
      cases h

/-! ## Where the set hands out cursors -/

theorem first_position (s : AvlSet α) : s.first.position = s.walkPos 1 := by
  rw [first, cursorAtPath_eq, ← Tree.head?_paths, List.head?_eq_getElem?,
    positionAt_getElem?_paths]
  rfl

theorem last_position (s : AvlSet α) : s.last.position = s.walkPos s.len := by
  have hl : s.root.lastPath? = s.root.paths[s.len - 1]? := by
    rw [← Tree.getLast?_paths, List.getLast?_eq_getElem?, length_paths_root, ← len_eq_length]
  unfold last
  rw [hl]
  rcases Nat.eq_zero_or_pos s.len with h0 | hpos
  · -- an empty set: before the beginning
    rw [List.getElem?_eq_none (by rw [length_paths_root, ← len_eq_length]; omega), h0]
    rfl
  · obtain ⟨m, hm⟩ : ∃ m, s.len = m + 1 := ⟨s.len - 1, by omega⟩
    have hp : m < s.root.paths.length := by rw [length_paths_root, ← len_eq_length]; omega
    rw [hm, Nat.add_sub_cancel, List.getElem?_eq_getElem hp]
    simp only [cursorAtPath_eq, cursorAt]
    rw [← List.getElem?_eq_getElem hp, positionAt_getElem?_paths_of_lt _ (by omega)]

/-- A search lands on the position of the element it finds. -/
theorem search_position {x : α} {c : Cursor} (h : s.search x = some c) :
    ∃ i, c.position = s.walkPos (i + 1) ∧ s.get x = s.toList[i]? ∧ (s.get x).isSome := by
  unfold search at h
  obtain ⟨p, hf, rfl⟩ := Option.map_eq_some_iff.1 h
  obtain ⟨n, v, hv, -⟩ := Tree.nodeAt?_of_find? hf
  obtain ⟨i, hi, rfl⟩ := List.getElem_of_mem (Tree.mem_paths_of_nodeAt? hv)
  have hi' : i < s.len := by rwa [length_paths_root, ← len_eq_length] at hi
  have hget : s.get x = s.toList[i]? := by
    rw [get, find, ← valueAt?_getElem?_paths, List.getElem?_eq_getElem hi]
    exact congrArg (·.bind s.valueAt?) hf
  refine ⟨i, ?_, hget, ?_⟩
  · simp only [cursorAtPath_eq, cursorAt]
    rw [← List.getElem?_eq_getElem hi, positionAt_getElem?_paths_of_lt _ hi']
  · rw [hget, List.getElem?_eq_getElem (by rwa [← len_eq_length])]
    rfl

section Nodup

variable (hnd : s.root.slots.Nodup)
include hnd

/-- A cursor at the position of the element at index `i` is located at the `i`-th path. -/
theorem locate_walkPos_succ {c : Cursor} {i : Nat} (hck : c.stamp.check s.stamp = .ok ())
    (hi : i < s.len) (hpos : c.position = s.walkPos (i + 1)) :
    ∃ hp : i < s.root.paths.length, s.locate c = .ok (some s.root.paths[i]) := by
  have hp : i < s.root.paths.length := by rwa [length_paths_root, ← len_eq_length]
  have hn : i < s.root.nodes.length := by rwa [← Tree.length_paths]
  have hat := Tree.nodeAt?_getElem_paths s.root i hp
  rw [List.getElem?_eq_getElem hn] at hat
  refine ⟨hp, locate_node_of_check hck ?_ (Tree.pathTo?_of_nodeAt? hnd hat)⟩
  rw [hpos, walkPos_succ_of_lt hi]
  simp [Tree.slots_eq_map_nodes]

/-- Positions with different numbers are different. -/
theorem walkPos_injective {j k : Nat} (hj : j ≤ s.len + 1) (hk : k ≤ s.len + 1)
    (h : s.walkPos j = s.walkPos k) : j = k := by
  cases j with
  | zero => cases k with
    | zero => rfl
    | succ k => rcases Nat.lt_or_ge k s.len with hk' | hk' <;>
        simp [walkPos_succ_of_lt, walkPos_succ_of_le, *] at h
  | succ j => cases k with
    | zero => rcases Nat.lt_or_ge j s.len with hj' | hj' <;>
        simp [walkPos_succ_of_lt, walkPos_succ_of_le, *] at h
    | succ k =>
      rcases Nat.lt_or_ge j s.len with hj' | hj' <;> rcases Nat.lt_or_ge k s.len with hk' | hk'
      · rw [walkPos_succ_of_lt hj', walkPos_succ_of_lt hk', Position.node.injEq,
          List.get_eq_getElem, List.get_eq_getElem, hnd.getElem_inj_iff] at h
        rw [show j = k from h]
      · simp [walkPos_succ_of_lt hj', walkPos_succ_of_le hk'] at h
      · simp [walkPos_succ_of_le hj', walkPos_succ_of_lt hk'] at h
      · omega

/-- The cursor at the position of the element at index `i` reads that element. -/
theorem elementAt_walkPos_of_lt {c : Cursor} {i : Nat} (hck : c.stamp.check s.stamp = .ok ())
    (hpos : c.position = s.walkPos (i + 1)) (hi : i < s.len) :
    s.elementAt c = .ok (s.toList.get ⟨i, by rwa [← len_eq_length]⟩) := by
  obtain ⟨hp, hl⟩ := locate_walkPos_succ hnd hck hi hpos
  have hx : i < s.toList.length := by rwa [← len_eq_length]
  have hv := valueAt?_getElem?_paths s i
  rw [List.getElem?_eq_getElem hp, Option.bind_some, List.getElem?_eq_getElem hx] at hv
  simp only [elementAt, locateNode_of_locate_some hl, bind, Except.bind, hv]
  rfl

/-- The cursor at position `i + 1` reads the element at index `i`; past the end there is
none. -/
theorem elementAt_walkPos {c : Cursor} {i : Nat} (hck : c.stamp.check s.stamp = .ok ())
    (hpos : c.position = s.walkPos (i + 1)) : (s.elementAt c).toOption = s.toList[i]? := by
  rcases Nat.lt_or_ge i s.len with hi | hi
  · rw [elementAt_walkPos_of_lt hnd hck hpos hi, List.getElem?_eq_getElem]
    rfl
  · -- past the end the cursor is on a sentinel
    rw [walkPos_succ_of_le hi] at hpos
    have hl := locate_sentinel_of_check hck (by rw [hpos]; rfl)
    rw [List.getElem?_eq_none (by rwa [← len_eq_length])]
    simp only [elementAt, locateNode_of_locate_none hl]
    rfl

/-- A step forward from position `k ≤ n` reaches position `k + 1`. -/
theorem next_walkPos {c : Cursor} {k : Nat} (hck : c.stamp.check s.stamp = .ok ())
    (hpos : c.position = s.walkPos k) (hk : k ≤ s.len) :
    s.next c = .ok { c with position := s.walkPos (k + 1) } := by
  cases k with
  | zero =>
    -- from before the beginning to the first element
    have hl := locate_sentinel_of_check hck (by rw [hpos]; rfl)
    rw [next_preBegin hl hpos, ← Tree.head?_paths, List.head?_eq_getElem?,
      positionAt_getElem?_paths]
    rfl
  | succ i =>
    obtain ⟨hp, hl⟩ := locate_walkPos_succ hnd hck (by omega) hpos
    rw [next_of_locate_some hl, Tree.nextPath?_getElem_paths _ i hp, positionAt_getElem?_paths]
    rfl

/-- A step back from position `k + 1 ≤ n + 1` reaches position `k`. -/
theorem prev_walkPos {c : Cursor} {k : Nat} (hck : c.stamp.check s.stamp = .ok ())
    (hpos : c.position = s.walkPos (k + 1)) (hk : k ≤ s.len) :
    s.prev c = .ok { c with position := s.walkPos k } := by
  rcases Nat.lt_or_ge k s.len with hlt | hge
  · -- on the node of the element at index `k`
    obtain ⟨hp, hl⟩ := locate_walkPos_succ hnd hck hlt hpos
    rw [prev_of_locate_some hl, Tree.prevPath?_getElem_paths _ k hp]
    cases k with
    | zero => rfl
    | succ j =>
      rw [if_neg (Nat.succ_ne_zero j), Nat.add_sub_cancel,
        positionAt_getElem?_paths_of_lt _ (by omega)]
  · -- past the end: to the last element, or before the beginning of an empty set
    have hk' : k = s.len := by omega
    have hend : c.position = .pastEnd := by rw [hpos, walkPos_succ_of_le hge]
    have hl := locate_sentinel_of_check hck (by rw [hend]; rfl)
    rw [prev_pastEnd hl hend, ← Tree.getLast?_paths, List.getLast?_eq_getElem?,
      length_paths_root, ← len_eq_length, hk']
    cases hn : s.len with
    | zero => simp [walkPos, positionAt, length_paths_root, ← len_eq_length, hn]
    | succ m => rw [Nat.add_sub_cancel, positionAt_getElem?_paths_of_lt _ (by omega)]

/-- After a step forward, a step back returns to where the cursor was. -/
theorem prev_of_next {c c' : Cursor} (h : s.accepts c) (hn : s.next c = .ok c') :
    s.prev c' = .ok c := by
  obtain ⟨k, hk, hpos⟩ := exists_walkPos_of_accepts h
  have hck := check_of_accepts h
  rcases Nat.lt_or_ge k (s.len + 1) with hlt | hge
  · rw [next_walkPos hnd hck hpos (by omega)] at hn
    cases hn
    rw [prev_walkPos hnd (c := { c with position := s.walkPos (k + 1) }) (k := k) hck rfl
      (by omega), ← hpos]
  · -- past the end there is no step forward
    obtain ⟨r, hr⟩ := exists_locate_of_accepts h
    have hend : c.position = .pastEnd := by
      rw [hpos, show k = s.len + 1 by omega, walkPos_succ_of_le le_rfl]
    rw [next_pastEnd hr hend] at hn
    cases hn

/-- After a step back, a step forward returns to where the cursor was. -/
theorem next_of_prev {c c' : Cursor} (h : s.accepts c) (hp : s.prev c = .ok c') :
    s.next c' = .ok c := by
  obtain ⟨k, hk, hpos⟩ := exists_walkPos_of_accepts h
  have hck := check_of_accepts h
  cases k with
  | zero =>
    -- before the beginning there is no step back
    obtain ⟨r, hr⟩ := exists_locate_of_accepts h
    rw [prev_preBegin hr hpos] at hp
    cases hp
  | succ k =>
    rw [prev_walkPos hnd hck hpos (by omega)] at hp
    cases hp
    rw [next_walkPos hnd (c := { c with position := s.walkPos k }) (k := k) hck rfl (by omega),
      ← hpos]

/-- `m` steps forward from position `k` reach position `k + m`, as long as that is at most
`n + 1`. -/
theorem iterate_next {c : Cursor} {k : Nat} (hck : c.stamp.check s.stamp = .ok ())
    (hpos : c.position = s.walkPos k) :
    ∀ m, k + m ≤ s.len + 1 →
      (· >>= s.next)^[m] (.ok c) = .ok { c with position := s.walkPos (k + m) }
  | 0, _ => by rw [Function.iterate_zero_apply, Nat.add_zero, ← hpos]
  | m + 1, hm => by
    rw [Function.iterate_succ_apply', iterate_next hck hpos m (by omega)]
    exact next_walkPos hnd (c := { c with position := s.walkPos (k + m) }) (k := k + m) hck rfl
      (by omega)

/-- Steps forward from position `k` pass the elements from index `k` on, in order, reach the
end after `n + 1 - k` steps and fail on the next. -/
theorem walk_from {c : Cursor} {k : Nat} (hck : c.stamp.check s.stamp = .ok ())
    (hpos : c.position = s.walkPos k) (hk : k ≤ s.len + 1) :
    (List.range (s.len - k)).map (fun m => (· >>= s.next)^[m + 1] (.ok c) >>= s.elementAt) =
      (s.toList.drop k).map .ok ∧
    (· >>= s.next)^[s.len + 1 - k] (.ok c) = .ok { c with position := .pastEnd } ∧
    (· >>= s.next)^[s.len + 2 - k] (.ok c) = .error .sentinel := by
  have hend : (· >>= s.next)^[s.len + 1 - k] (.ok c) = .ok { c with position := .pastEnd } := by
    rw [iterate_next hnd hck hpos _ (by omega), show k + (s.len + 1 - k) = s.len + 1 by omega,
      walkPos_succ_of_le le_rfl]
  refine ⟨?_, hend, ?_⟩
  · apply List.ext_getElem (by simp [len_eq_length])
    intro m hm _
    simp only [List.length_map, List.length_range] at hm
    rw [List.getElem_map, List.getElem_range, List.getElem_map, List.getElem_drop,
      iterate_next hnd hck hpos _ (by omega)]
    exact elementAt_walkPos_of_lt hnd (c := { c with position := s.walkPos (k + (m + 1)) })
      (i := k + m) hck rfl (by omega)
  · -- one step more fails at the sentinel, past the end
    rw [show s.len + 2 - k = (s.len + 1 - k) + 1 by omega, Function.iterate_succ_apply', hend]
    exact next_pastEnd (locate_sentinel_of_check (c := { c with position := .pastEnd }) hck rfl) rfl

end Nodup

/-! ## Cursors of a reachable set -/

/-- How cursors step through a set of `n` elements whose positions are numbered by `walkPos`,
from 0 before the first element to `n + 1` past the last. -/
structure Stepping (s : AvlSet α) : Prop where
  numbered : ∀ c, s.accepts c → ∃ k ≤ s.len + 1, c.position = s.walkPos k
  distinct : ∀ j k, j ≤ s.len + 1 → k ≤ s.len + 1 → s.walkPos j = s.walkPos k → j = k
  element : ∀ c i, s.accepts c → c.position = s.walkPos (i + 1) →
    (s.elementAt c).toOption = s.toList[i]?
  next : ∀ c k, s.accepts c → c.position = s.walkPos k → k ≤ s.len →
    s.next c = .ok { c with position := s.walkPos (k + 1) }
  next_end : ∀ c, s.accepts c → c.position = .pastEnd → s.next c = .error .sentinel
  prev : ∀ c k, s.accepts c → c.position = s.walkPos (k + 1) → k ≤ s.len →
    s.prev c = .ok { c with position := s.walkPos k }
  prev_begin : ∀ c, s.accepts c → c.position = .preBegin → s.prev c = .error .sentinel
  /-- A move fails only with the set's refusal of the cursor or at the sentinel it cannot
  pass, and returns no cursor. -/
  next_fails : ∀ c f, s.next c = .error f →
    s.locate c = .error f ∨ (s.accepts c ∧ c.position = .pastEnd ∧ f = .sentinel)
  prev_fails : ∀ c f, s.prev c = .error f →
    s.locate c = .error f ∨ (s.accepts c ∧ c.position = .preBegin ∧ f = .sentinel)
  ends : s.first.position = s.walkPos 1 ∧ s.last.position = s.walkPos s.len ∧
    s.pastEnd.position = s.walkPos (s.len + 1) ∧ s.preBegin.position = s.walkPos 0 ∧
    s.accepts s.first ∧ s.accepts s.last ∧ s.accepts s.pastEnd ∧ s.accepts s.preBegin
  search : ∀ x c, s.search x = some c → s.accepts c ∧
    ∃ i, c.position = s.walkPos (i + 1) ∧ s.get x = s.toList[i]? ∧ (s.get x).isSome
  prev_next : ∀ c c', s.accepts c → s.next c = .ok c' → s.prev c' = .ok c
  next_prev : ∀ c c', s.accepts c → s.prev c = .ok c' → s.next c' = .ok c
  walk : ∀ c k, s.accepts c → c.position = s.walkPos k → k ≤ s.len + 1 →
    (List.range (s.len - k)).map (fun m => (· >>= s.next)^[m + 1] (.ok c) >>= s.elementAt) =
      (s.toList.drop k).map .ok ∧
    (· >>= s.next)^[s.len + 1 - k] (.ok c) = .ok { c with position := .pastEnd } ∧
    (· >>= s.next)^[s.len + 2 - k] (.ok c) = .error .sentinel

theorem Valid.stepping (hv : s.Valid) : s.Stepping :=
  have hnd := hv.accounts.nodup
  { numbered := fun _ h => exists_walkPos_of_accepts h
    distinct := fun _ _ hj hk h => walkPos_injective hnd hj hk h
    element := fun _ _ h hpos => elementAt_walkPos hnd (check_of_accepts h) hpos
    next := fun _ _ h hpos hk => next_walkPos hnd (check_of_accepts h) hpos hk
    next_end := fun _ h hpos => by
      obtain ⟨r, hr⟩ := exists_locate_of_accepts h
      exact next_pastEnd hr hpos
    prev := fun _ _ h hpos hk => prev_walkPos hnd (check_of_accepts h) hpos hk
    prev_begin := fun _ h hpos => by
      obtain ⟨r, hr⟩ := exists_locate_of_accepts h
      exact prev_preBegin hr hpos
    next_fails := fun _ _ h => next_eq_error h
    prev_fails := fun _ _ h => prev_eq_error h
    ends := ⟨first_position s, last_position s, (walkPos_succ_of_le le_rfl).symm, rfl,
      accepts_of_issues (issues_first s), accepts_of_issues (issues_last s),
      accepts_of_issues (issues_pastEnd s), accepts_of_issues (issues_preBegin s)⟩
    search := fun _ _ h => ⟨accepts_of_issues (issues_search h), search_position h⟩
    prev_next := fun _ _ h hn => prev_of_next hnd h hn
    next_prev := fun _ _ h hp => next_of_prev hnd h hp
    walk := fun _ _ h hpos hk => walk_from hnd (check_of_accepts h) hpos hk }

variable {cmp : α → α → Ordering}

/-- In every set built by the operations, a cursor the set accepts stands at a numbered
position: a step forward moves it from position `k ≤ n` to `k + 1` and fails past the end, a
step back moves it from `k + 1` to `k` and fails before the beginning, each step undoes the
other, and repeated steps forward pass the elements in ascending order and stop past the end.
A failed move returns only its fault. The ends and a search hand out cursors at the positions
of the first, last and found elements. -/
theorem reachable_stepping [Std.TransCmp cmp] (h : Reachable cmp s) : s.Stepping :=
  h.valid.stepping

theorem ofList_stepping :
    Reachable compare (ofList (compare : Int → Int → Ordering) [2, 1, 3] 1) ∧
      (ofList (compare : Int → Int → Ordering) [2, 1, 3] 1).Stepping :=
  ⟨Reachable.ofList _ _ _, reachable_stepping (Reachable.ofList _ _ _)⟩

end AvlSet

end AvlCollections
