import AvlCollections.Proofs.Tree.Shape
import AvlCollections.Proofs.Set.SortedList

/-! # The shape of a set follows the textbook algorithm

Placing an element is textbook insertion and removing a node is textbook deletion of its
element, so every run of additions and removals under `Policy.reject` builds exactly the tree
that the textbook algorithms build from the same start. Under `Policy.replace` an addition of
a duplicate edits an element in place, which is no insertion.
-/

namespace AvlCollections

variable {α : Type}

/-- An addition or a removal of an element. -/
inductive Edit (α : Type) where
  /-- Adds an element. -/
  | add (x : α)
  /-- Removes the element equivalent to this one. -/
  | remove (x : α)

namespace Edit

/-- Performs an edit on a set. -/
def apply (fresh : Nat) (s : AvlSet α) : Edit α → AvlSet α
  | add x => (s.add x fresh).2
  | remove x => (s.remove x fresh).2

/-- Performs an edit with the textbook algorithms. -/
def applyBTree (cmp : α → α → Ordering) (t : BTree α) : Edit α → BTree α
  | add x => t.insert cmp x
  | remove x => t.delete cmp x

end Edit

namespace AvlSet

variable {s : AvlSet α}

theorem remove_snd_cmp_policy (s : AvlSet α) (x : α) (fresh : Nat) :
    (s.remove x fresh).2.cmp = s.cmp ∧ (s.remove x fresh).2.policy = s.policy := by
  unfold remove removeBy
  split
  · next p _ =>
    cases he : s.root.eraseAt p with
    | none =>
      rw [eraseAt_of_none he]
      exact ⟨rfl, rfl⟩
    | some r =>
      obtain ⟨y, freed, t⟩ := r
      rw [eraseAt_of_some he]
      exact ⟨rfl, rfl⟩
  · exact ⟨rfl, rfl⟩

/-- Placing an element is textbook insertion: the new tree where a node is added, and no
change where an equivalent element is stored. -/
theorem insert_toBTree_place (hv : s.Valid) (x : α) (fresh : Nat) :
    s.root.toBTree.insert s.cmp x =
      match s.place x fresh with
      | .added _ s' => s'.root.toBTree
      | .found _ _ => s.root.toBTree := by
  unfold place
  cases hi : s.root.insert s.cmp x s.pool.next with
  | added t => exact (Tree.toBTree_insert hv.avl hi).symm
  | occupied n p => exact Tree.insert_toBTree_of_occupied hv.avl hi

/-- Under `Policy.reject` an addition is textbook insertion. -/
theorem add_toBTree_of_reject (hv : s.Valid) (hr : s.policy = .reject) (x : α) (fresh : Nat) :
    (s.add x fresh).2.root.toBTree = s.root.toBTree.insert s.cmp x := by
  rw [insert_toBTree_place hv x fresh]
  unfold add
  cases s.place x fresh with
  | added slot s' => rfl
  | found slot p => simp [hr]

section Valid

variable [Std.TransCmp s.cmp] (hv : s.Valid)
include hv

/-- Removing the node at a path is textbook deletion of its element. -/
theorem eraseAt_toBTree {p : Path} {fresh : Nat} {x : α} (h : (s.eraseAt p fresh).1 = some x) :
    (s.eraseAt p fresh).2.root.toBTree = s.root.toBTree.delete s.cmp x := by
  cases he : s.root.eraseAt p with
  | none =>
    rw [eraseAt_of_none he] at h
    cases h
  | some r =>
    obtain ⟨y, freed, t⟩ := r
    rw [eraseAt_of_some he] at h ⊢
    cases h
    exact Tree.toBTree_eraseAt hv.avl hv.ascending he

/-- Removing by value is textbook deletion, also when nothing equivalent is stored. -/
theorem remove_toBTree (x : α) (fresh : Nat) :
    (s.remove x fresh).2.root.toBTree = s.root.toBTree.delete s.cmp x := by
  unfold remove removeBy
  cases hf : s.findBy (s.cmp x) with
  | none =>
    have hx := (Tree.find?_eq_none_iff (hv.ascending.monotoneAlong x)).1 hf
    exact (Tree.delete_toBTree_of_forall_ne hv.avl hx).symm
  | some p =>
    obtain ⟨n, y, hy, e⟩ := Tree.nodeAt?_of_find? hf
    obtain ⟨freed, t, he⟩ := Tree.eraseAt_of_nodeAt? hy
    show (s.eraseAt p fresh).2.root.toBTree = _
    rw [eraseAt_of_some he]
    rw [Tree.toBTree_eraseAt hv.avl hv.ascending he]
    -- the stored element compares with everything as `x` does
    exact BTree.delete_congr (fun w => (Std.TransCmp.congr_left e).symm) _

end Valid

/-- Under `Policy.reject`, a run of additions and removals builds the tree that the textbook
algorithms build. -/
theorem toBTree_foldl_apply {s : AvlSet α} [Std.TransCmp s.cmp] (hv : s.Valid)
    (hr : s.policy = .reject) (es : List (Edit α)) (fresh : Nat) :
    (es.foldl (Edit.apply fresh) s).root.toBTree =
      es.foldl (Edit.applyBTree s.cmp) s.root.toBTree := by
  induction es generalizing s with
  | nil => rfl
  | cons e es ih =>
    cases e with
    | add x =>
      obtain ⟨hc, hp⟩ := add_snd_cmp_policy s x fresh
      have : Std.TransCmp (s.add x fresh).2.cmp := by rw [hc]; infer_instance
      have rest := ih (hv.add x fresh) (hp.trans hr)
      rw [hc] at rest
      show (es.foldl (Edit.apply fresh) (s.add x fresh).2).root.toBTree =
        es.foldl (Edit.applyBTree s.cmp) (s.root.toBTree.insert s.cmp x)
      rw [rest, add_toBTree_of_reject hv hr]
    | remove x =>
      obtain ⟨hc, hp⟩ := remove_snd_cmp_policy s x fresh
      have : Std.TransCmp (s.remove x fresh).2.cmp := by rw [hc]; infer_instance
      have hv' : (s.remove x fresh).2.Valid := hv.removeBy (s.cmp x) fresh
      have rest := ih hv' (hp.trans hr)
      rw [hc] at rest
      show (es.foldl (Edit.apply fresh) (s.remove x fresh).2).root.toBTree =
        es.foldl (Edit.applyBTree s.cmp) (s.root.toBTree.delete s.cmp x)
      rw [rest, remove_toBTree hv]

/-- The tree of a set ordered by `cmp` changes as the textbook AVL algorithms change it. -/
structure FollowsTextbook (cmp : α → α → Ordering) (s : AvlSet α) : Prop where
  place : ∀ x fresh, s.root.toBTree.insert cmp x =
    match s.place x fresh with
    | .added _ s' => s'.root.toBTree
    | .found _ _ => s.root.toBTree
  eraseAt : ∀ p fresh x, (s.eraseAt p fresh).1 = some x →
    (s.eraseAt p fresh).2.root.toBTree = s.root.toBTree.delete cmp x
  remove : ∀ x fresh, (s.remove x fresh).2.root.toBTree = s.root.toBTree.delete cmp x
  run : s.policy = .reject → ∀ (es : List (Edit α)) fresh,
    (es.foldl (Edit.apply fresh) s).root.toBTree = es.foldl (Edit.applyBTree cmp) s.root.toBTree

theorem Valid.followsTextbook [Std.TransCmp s.cmp] (hv : s.Valid) : s.FollowsTextbook s.cmp where
  place := insert_toBTree_place hv
  eraseAt _ _ _ h := eraseAt_toBTree hv h
  remove := remove_toBTree hv
  run hr := toBTree_foldl_apply hv hr

variable {cmp : α → α → Ordering}

end AvlSet

end AvlCollections
