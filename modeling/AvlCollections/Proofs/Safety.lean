import AvlCollections.Proofs.Heights
import AvlCollections.Proofs.Tree.Walk
import AvlCollections.Proofs.Tree.Search
import AvlCollections.Proofs.MultiMap.SortedPairs

/-! # Consistency checks that cannot fail

The operations look nodes up by slot and by path and assume what the invariant promises: a
node's slot is in use, a search or a step to a neighbour ends on a node, a rotation finds the
child it lifts, the successor that a removal with two children takes is another node, and an
entry holds a value. Each of these holds in every set and map that the operations build.

Nodes are reached by paths from the root here, so there are no parent links to keep right:
a neighbour's path is computed from the node's own path, and climbing up lands on a prefix
of it.
-/

namespace AvlCollections

namespace Path

/-- An ancestor reached by climbing is a prefix of the path, followed by a step `d`. -/
theorem eq_append_of_climbFrom? {d : Dir} {p q : Path} (h : p.climbFrom? d = some q) :
    ∃ w, p = q ++ d :: w := by
  induction p generalizing q with
  | nil => simp [climbFrom?] at h
  | cons e p ih =>
    rw [climbFrom?_cons] at h
    split at h
    · next w hw =>
      cases h
      obtain ⟨w', rfl⟩ := ih hw
      exact ⟨w', rfl⟩
    · split_ifs at h with hed
      cases h
      exact ⟨p, by simp [hed]⟩

end Path

namespace Tree

variable {α : Type}

@[simp] theorem nil_subtree (p : Path) : (nil : Tree α).subtree p = nil := by
  cases p <;> rfl

theorem subtree_append (t : Tree α) (p q : Path) :
    t.subtree (p ++ q) = (t.subtree p).subtree q := by
  induction p generalizing t with
  | nil => simp
  | cons d p ih =>
    cases t with
    | nil => simp
    | node l s v h r => cases d <;> simp [subtree, ih]

theorem isSome_nodeAt?_iff {t : Tree α} {p : Path} : (t.nodeAt? p).isSome ↔ t.subtree p ≠ nil := by
  unfold nodeAt?
  split <;> simp_all

theorem subtree_ne_nil_of_append {t : Tree α} {p q : Path} (h : t.subtree (p ++ q) ≠ nil) :
    t.subtree p ≠ nil := by
  intro hp
  rw [subtree_append, hp, nil_subtree] at h
  exact h rfl

/-- The children of the node at `p` are the subtrees one step below it. -/
theorem subtree_children {t l r : Tree α} {p : Path} {s : Nat} {v : α} {h : Nat}
    (hp : t.subtree p = node l s v h r) :
    t.subtree (p ++ [Dir.left]) = l ∧ t.subtree (p ++ [Dir.right]) = r := by
  simp [subtree_append, hp, subtree]

theorem subtree_leftSpine {t : Tree α} (ht : t ≠ nil) : t.subtree t.leftSpine ≠ nil := by
  induction t with
  | nil => exact absurd rfl ht
  | node l s v h r ihl _ =>
    cases l with
    | nil => simp [leftSpine]
    | node ll ls lv lh lr => simpa [leftSpine, subtree] using ihl (by simp)

theorem subtree_rightSpine {t : Tree α} (ht : t ≠ nil) : t.subtree t.rightSpine ≠ nil := by
  induction t with
  | nil => exact absurd rfl ht
  | node l s v h r _ ihr =>
    cases r with
    | nil => simp [rightSpine]
    | node rl rs rv rh rr => simpa [rightSpine, subtree] using ihr (by simp)

/-- Every path that a search or a step of navigation returns reaches a node. -/
structure NavigationLands (t : Tree α) : Prop where
  find : ∀ probe p, t.find? probe = some p → (t.nodeAt? p).isSome
  first : ∀ p, t.firstPath? = some p → (t.nodeAt? p).isSome
  last : ∀ p, t.lastPath? = some p → (t.nodeAt? p).isSome
  next : ∀ p q, (t.nodeAt? p).isSome → t.nextPath? p = some q → (t.nodeAt? q).isSome
  prev : ∀ p q, (t.nodeAt? p).isSome → t.prevPath? p = some q → (t.nodeAt? q).isSome

theorem nextPath?_lands {t : Tree α} {p q : Path} (hp : t.subtree p ≠ nil)
    (h : t.nextPath? p = some q) : t.subtree q ≠ nil := by
  unfold nextPath? at h
  split at h
  · next l s v hh r hsub =>
    -- the smallest node of the right subtree
    cases h
    rw [subtree_append, hsub]
    exact subtree_leftSpine (by simp)
  · -- an ancestor: its path is a prefix of `p`
    obtain ⟨w, rfl⟩ := Path.eq_append_of_climbFrom? h
    exact subtree_ne_nil_of_append hp

theorem prevPath?_lands {t : Tree α} {p q : Path} (hp : t.subtree p ≠ nil)
    (h : t.prevPath? p = some q) : t.subtree q ≠ nil := by
  unfold prevPath? at h
  split at h
  · next l hh s v r hsub =>
    cases h
    rw [subtree_append, hsub]
    exact subtree_rightSpine (by simp)
  · obtain ⟨w, rfl⟩ := Path.eq_append_of_climbFrom? h
    exact subtree_ne_nil_of_append hp

theorem navigationLands (t : Tree α) : t.NavigationLands where
  find _ _ h := by
    obtain ⟨n, v, hp, -⟩ := nodeAt?_of_find? h
    simp [hp]
  first p h := by
    cases t with
    | nil => simp [firstPath?] at h
    | node l s v hh r =>
      cases h
      exact isSome_nodeAt?_iff.2 (subtree_leftSpine (by simp))
  last p h := by
    cases t with
    | nil => simp [lastPath?] at h
    | node l s v hh r =>
      cases h
      exact isSome_nodeAt?_iff.2 (subtree_rightSpine (by simp))
  next _ _ hp h := isSome_nodeAt?_iff.2 (nextPath?_lands (isSome_nodeAt?_iff.1 hp) h)
  prev _ _ hp h := isSome_nodeAt?_iff.2 (prevPath?_lands (isSome_nodeAt?_iff.1 hp) h)

/-- What the rotations of `balance l s v r` need: a side taller by more than one is taller by
exactly two, it is a node, and the inner grandchild that a double rotation lifts is a node. -/
def RotationsFit (l r : Tree α) : Prop :=
  (r.height + 1 < l.height → balanceFactor l r = 2 ∧
    ∃ a ls lv lh b, l = node a ls lv lh b ∧ (a.height < b.height → b ≠ nil)) ∧
  (l.height + 1 < r.height → balanceFactor l r = -2 ∧
    ∃ a rs rv rh b, r = node a rs rv rh b ∧ (b.height < a.height → a ≠ nil))

theorem Rebalances.rotationsFit {h : Nat} {l r : Tree α} (hr : Rebalances h l r) :
    RotationsFit l r := by
  have f₁ := hr.factor_le
  have f₂ := hr.neg_two_le_factor
  unfold balanceFactor at f₁ f₂
  constructor
  · intro heavy
    refine ⟨by unfold balanceFactor; omega, ?_⟩
    cases l with
    | nil => simp at heavy
    | node a ls lv lh b =>
      refine ⟨a, ls, lv, lh, b, rfl, fun inner hb => ?_⟩
      subst hb
      simp at inner
  · intro heavy
    refine ⟨by unfold balanceFactor; omega, ?_⟩
    cases r with
    | nil => simp at heavy
    | node a rs rv rh b =>
      refine ⟨a, rs, rv, rh, b, rfl, fun inner ha => ?_⟩
      subst ha
      simp at inner

theorem slots_subtree_sublist (t : Tree α) (p : Path) : (t.subtree p).slots.Sublist t.slots := by
  induction t generalizing p with
  | nil => simp
  | node l s v h r ihl ihr =>
    match p with
    | [] => exact List.Sublist.refl _
    | .left :: q => exact (ihl q).trans (List.sublist_append_left _ _)
    | .right :: q =>
      exact (ihr q).trans ((List.sublist_cons_self s r.slots).trans (List.sublist_append_right _ _))

/-- Removing a node with a right subtree frees the slot of its successor, which is not the
node's own slot when no slot is used twice. -/
theorem fst_eraseMin_ne {l rl rr : Tree α} {s rs rh h : Nat} {v rv : α}
    (hnd : (node l s v h (node rl rs rv rh rr)).slots.Nodup) : (eraseMin rl rs rv rr).1 ≠ s := by
  rcases hr : eraseMin rl rs rv rr with ⟨ms, mv, t'⟩
  have hmem : ms ∈ (node rl rs rv rh rr).slots := by
    rw [slots_eq_map_nodes, nodes_node, ← nodes_eraseMin hr]
    simp
  have hout : s ∉ (node rl rs rv rh rr).slots :=
    (List.nodup_cons.1 (List.nodup_append.1 hnd).2.1).1
  rintro rfl
  exact hout hmem

end Tree

namespace AvlSet

variable {α : Type}

/-- The facts that keep a set's internal lookups from failing: every node's slot is in use,
navigation ends on nodes, rotations find their children at every rebalancing that an
insertion or removal makes, and a removal with two children takes another node's element. -/
structure PanicFree (s : AvlSet α) : Prop where
  live : ∀ p n v, s.root.nodeAt? p = some (n, v) → n < s.pool.count ∧ n ∉ s.pool.free
  lands : s.root.NavigationLands
  rotations : ∀ p l sl v h r, s.root.subtree p = .node l sl v h r →
    Tree.BalanceCalls Tree.RotationsFit l r
  successor_ne : ∀ p l sl v h rl rs rv rh rr,
    s.root.subtree p = .node l sl v h (.node rl rs rv rh rr) → (Tree.eraseMin rl rs rv rr).1 ≠ sl

theorem Valid.panicFree {s : AvlSet α} (hv : s.Valid) : s.PanicFree where
  live p n v hp := hv.accounts.mem_iff.1 (Tree.mem_slots_of_nodeAt? hp)
  lands := Tree.navigationLands s.root
  rotations _ _ _ _ _ _ hp :=
    (hv.avl.balanceCalls_of_subtree hp).mono fun _ _ hr => hr.rotationsFit
  successor_ne p _ _ _ _ _ _ _ _ _ hp := by
    have hnd := (Tree.slots_subtree_sublist s.root p).nodup hv.accounts.nodup
    rw [hp] at hnd
    exact Tree.fst_eraseMin_ne hnd

end AvlSet

namespace MultiMap

variable {κ ν : Type}

/-- A map's lookups cannot fail either: its set of entries is `PanicFree`, every entry has a
newest value, `alterOrInsert` under a missing key places a new node and finds it again, and
`lookup` fails only on a missing key. -/
structure PanicFree (m : MultiMap κ ν) : Prop where
  entries : m.entries.PanicFree
  value : ∀ e ∈ m.toList, e.values.getLast? = some e.value
  insert_default : ∀ k d fresh, m.locate k = none → ∃ slot s p,
    m.entries.place (Entry.single k d) fresh = .added slot s ∧
      (m.withEntries s).locate k = some p ∧ (s.root.nodeAt? p).isSome
  lookup_error : ∀ k e, m.lookup k = .error e →
    e = .indexOutOfRange ∧ ∀ e' ∈ m.toList, m.keyCmp k e'.key ≠ .eq

theorem lookup_eq_error {m : MultiMap κ ν} [Std.TransCmp m.keyCmp] (hv : m.Valid) {k : κ}
    {e : Error} (h : m.lookup k = .error e) :
    e = .indexOutOfRange ∧ ∀ e' ∈ m.toList, m.keyCmp k e'.key ≠ .eq := by
  cases hloc : m.locate k with
  | none =>
    refine ⟨?_, (locate_spec hv k).2.1 hloc⟩
    simp [lookup, get?, entry?, hloc] at h
    exact h.symm
  | some p =>
    -- a stored key reads its value, so the lookup succeeds
    obtain ⟨n, y, hy, -⟩ := (locate_spec hv k).1 p hloc
    have hy' : m.entries.root.nodeAt? p = some (n, y) := hy
    simp [lookup, get?, entry?, hloc, AvlSet.valueAt?_of_nodeAt? hy'] at h

theorem Valid.panicFree {m : MultiMap κ ν} [Std.TransCmp m.keyCmp] (hv : m.Valid) :
    m.PanicFree where
  entries := AvlSet.Valid.panicFree hv
  value e _ := Entry.value_eq_getLast? e
  insert_default k d fresh hloc := by
    obtain ⟨slot, s, p, n, hp, hloc', hy⟩ := place_single_of_locate_none hv d hloc fresh
    exact ⟨slot, s, p, hp, hloc', by simp [hy]⟩
  lookup_error _ _ h := lookup_eq_error hv h

end MultiMap

end AvlCollections
