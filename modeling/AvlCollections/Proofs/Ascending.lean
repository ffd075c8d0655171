import Mathlib.Data.List.Sort

/-! # Ascending lists

A list is ascending under a comparator when each element is below every later one, so no two
of its elements are equivalent. With a comparator that is a total preorder (`Std.TransCmp`),
an element can be put between the smaller and the larger ones, or swapped for an equivalent
element, and the list stays ascending.
-/

namespace AvlCollections

variable {α : Type} {cmp : α → α → Ordering}

/-- Each element is below every later one. -/
def Ascending (cmp : α → α → Ordering) (xs : List α) : Prop :=
  xs.Pairwise fun a b => cmp a b = .lt

namespace Ascending

theorem nil : Ascending cmp ([] : List α) := List.Pairwise.nil

theorem sublist {xs ys : List α} (h : Ascending cmp ys) (hs : xs.Sublist ys) :
    Ascending cmp xs :=
  List.Pairwise.sublist hs h

theorem left {xs ys : List α} (h : Ascending cmp (xs ++ ys)) : Ascending cmp xs :=
  h.sublist (List.sublist_append_left xs ys)

theorem right {xs ys : List α} (h : Ascending cmp (xs ++ ys)) : Ascending cmp ys :=
  h.sublist (List.sublist_append_right xs ys)

theorem lt_of_mem_left {xs ys : List α} {x a : α} (h : Ascending cmp (xs ++ x :: ys))
    (ha : a ∈ xs) : cmp a x = .lt :=
  (List.pairwise_append.1 h).2.2 a ha x List.mem_cons_self

theorem lt_of_mem_right {xs ys : List α} {x b : α} (h : Ascending cmp (xs ++ x :: ys))
    (hb : b ∈ ys) : cmp x b = .lt :=
  List.rel_of_pairwise_cons h.right hb

variable [Std.TransCmp cmp]

/-- An ascending list with a middle element: the two sides are ascending and lie below and
above it. -/
theorem append_cons_iff {xs ys : List α} {x : α} :
    Ascending cmp (xs ++ x :: ys) ↔ Ascending cmp xs ∧ Ascending cmp ys ∧
      (∀ a ∈ xs, cmp a x = .lt) ∧ (∀ b ∈ ys, cmp x b = .lt) := by
  constructor
  · intro h
    exact ⟨h.left, h.right.sublist (List.sublist_cons_self x ys),
      fun a ha => h.lt_of_mem_left ha, fun b hb => h.lt_of_mem_right hb⟩
  · rintro ⟨hxs, hys, below, above⟩
    refine List.pairwise_append.2 ⟨hxs, List.pairwise_cons.2 ⟨above, hys⟩, ?_⟩
    intro a ha b hb
    rcases List.mem_cons.1 hb with rfl | hb
    · exact below a ha
    · exact Std.TransCmp.lt_trans (below a ha) (above b hb)

/-- An element below the right part and above the left part can go between them. -/
theorem insert {xs ys : List α} {x : α} (h : Ascending cmp (xs ++ ys))
    (below : ∀ a ∈ xs, cmp a x = .lt) (above : ∀ b ∈ ys, cmp x b = .lt) :
    Ascending cmp (xs ++ x :: ys) :=
  append_cons_iff.2 ⟨h.left, h.right, below, above⟩

/-- An element can be swapped for an equivalent one. -/
theorem replace {xs ys : List α} {x y : α} (h : Ascending cmp (xs ++ x :: ys))
    (e : cmp y x = .eq) : Ascending cmp (xs ++ y :: ys) := by
  obtain ⟨hxs, hys, below, above⟩ := append_cons_iff.1 h
  refine append_cons_iff.2 ⟨hxs, hys, fun a ha => ?_, fun b hb => ?_⟩
  · rw [Std.TransCmp.congr_right e]
    exact below a ha
  · rw [Std.TransCmp.congr_left e]
    exact above b hb

/-- An element equivalent to one of an ascending list is equivalent to no other. -/
theorem not_equiv_of_equiv {xs ys : List α} {x y z : α} (h : Ascending cmp (xs ++ y :: ys))
    (e : cmp x y = .eq) (hz : z ∈ xs ++ ys) : cmp x z ≠ .eq := by
  obtain ⟨-, -, below, above⟩ := append_cons_iff.1 h
  intro hxz
  rw [Std.TransCmp.congr_left e] at hxz
  rcases List.mem_append.1 hz with hz | hz
  · simp [Std.OrientedCmp.gt_of_lt (below z hz)] at hxz
  · simp [above z hz] at hxz

/-- The element equivalent to `x` is the first one `x` finds. -/
theorem find?_equiv {xs ys : List α} {x y : α} (h : Ascending cmp (xs ++ y :: ys))
    (e : cmp x y = .eq) : (xs ++ y :: ys).find? (cmp x · == .eq) = some y := by
  have hxs : ∀ a ∈ xs, ¬(cmp x a == .eq) = true := by
    intro a ha
    simpa using h.not_equiv_of_equiv e (List.mem_append_left ys ha)
  rw [List.find?_append, List.find?_eq_none.2 hxs]
  simp [e]

theorem eraseP_equiv {xs ys : List α} {x y : α} (h : Ascending cmp (xs ++ y :: ys))
    (e : cmp x y = .eq) : (xs ++ y :: ys).eraseP (cmp x · == .eq) = xs ++ ys := by
  have hxs : ∀ a ∈ xs, ¬(cmp x a == .eq) = true := by
    intro a ha
    simpa using h.not_equiv_of_equiv e (List.mem_append_left ys ha)
  rw [List.eraseP_append_right _ hxs]
  simp [e]

/-- Swapping the element equivalent to `x` for `x` touches no other element. -/
theorem map_replace {xs ys : List α} {x y : α} (h : Ascending cmp (xs ++ y :: ys))
    (e : cmp x y = .eq) :
    (xs ++ y :: ys).map (fun z => if cmp x z = .eq then x else z) = xs ++ x :: ys := by
  have keep : ∀ zs : List α, (∀ z ∈ zs, cmp x z ≠ .eq) →
      zs.map (fun z => if cmp x z = .eq then x else z) = zs := by
    intro zs hzs
    rw [List.map_congr_left fun z hz => if_neg (hzs z hz), List.map_id']
  rw [List.map_append, List.map_cons, if_pos e,
    keep xs fun z hz => h.not_equiv_of_equiv e (List.mem_append_left ys hz),
    keep ys fun z hz => h.not_equiv_of_equiv e (List.mem_append_right xs hz)]

end Ascending

/-- An element with no equivalent goes, in the ordered insertion of the list library, between
the elements below it and those above it. -/
theorem orderedInsert_eq [Std.OrientedCmp cmp] {xs ys : List α} {x : α}
    (below : ∀ a ∈ xs, cmp a x = .lt) (above : ∀ b ∈ ys, cmp x b = .lt) :
    (xs ++ ys).orderedInsert (fun a b => cmp a b ≠ .gt) x = xs ++ x :: ys := by
  induction xs with
  | nil =>
    cases ys with
    | nil => rfl
    | cons b ys => simp [above b List.mem_cons_self]
  | cons a xs ih =>
    have hxa : cmp x a = .gt := Std.OrientedCmp.gt_of_lt (below a List.mem_cons_self)
    simp only [List.cons_append, List.orderedInsert, hxa, ne_eq, not_true_eq_false, ↓reduceIte]
    rw [ih fun a' ha' => below a' (List.mem_cons_of_mem a ha')]

/-- Along the list a probe answers `gt`, then `eq`, then `lt`: it is monotone along the order
of the list. -/
def MonotoneAlong (probe : α → Ordering) (xs : List α) : Prop :=
  xs.Pairwise fun a b => (probe a = .lt → probe b = .lt) ∧ (probe b = .gt → probe a = .gt)

theorem MonotoneAlong.sublist {probe : α → Ordering} {xs ys : List α}
    (h : MonotoneAlong probe ys) (hs : xs.Sublist ys) : MonotoneAlong probe xs :=
  List.Pairwise.sublist hs h

/-- Comparing with a fixed element is monotone along an ascending list. -/
theorem Ascending.monotoneAlong [Std.TransCmp cmp] {xs : List α} (h : Ascending cmp xs) (x : α) :
    MonotoneAlong (cmp x) xs :=
  h.imp fun hab =>
    ⟨fun hxa => Std.TransCmp.lt_trans hxa hab,
      fun hxb => Std.OrientedCmp.gt_of_lt
        (Std.TransCmp.lt_trans hab (Std.OrientedCmp.lt_of_gt hxb))⟩

end AvlCollections
