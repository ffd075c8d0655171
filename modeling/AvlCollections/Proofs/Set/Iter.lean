import AvlCollections.Set.Iter
import AvlCollections.Proofs.Tree.Walk

/-! # Iterating a set

An iterator whose front stands at the `i`-th node of the in-order walk takes the `i`-th
element and moves to the `(i + 1)`-th node, so taking elements from the front of a fresh
iterator lists the set in order. This holds of every tree: the walk needs neither the order of
the elements nor the balance.

Taking from both ends, an iterator stays in a `Window`: the elements before index `i` have
been taken from the front, those from index `j` on from the back, and the count of elements
left is `j - i`. The front takes the element at index `i`, the back the one at index `j - 1`,
and once the count is 0 both ends answer `none`, so the two walks never cross, whatever the
order of the calls.
-/

namespace AvlCollections

namespace Iter

variable {α : Type}

/-- One step from the front at the `i`-th node, with elements left, takes the `i`-th
element. -/
theorem next_of_front {t : Tree α} {i : Nat} (it : Iter α) (htree : it.tree = t)
    (hfront : it.front = t.paths[i]?) (hi : i < t.paths.length) (hn : it.remaining ≠ 0) :
    it.next =
      (t.toList[i]?, { it with front := t.paths[i + 1]?, remaining := it.remaining - 1 }) := by
  have hlen : i < t.nodes.length := by rwa [← Tree.length_paths]
  rw [next, if_neg hn, hfront, List.getElem?_eq_getElem hi]
  simp only [htree, Tree.nodeAt?_getElem_paths t i hi, List.getElem?_eq_getElem hlen,
    Tree.nextPath?_getElem_paths t i hi, Tree.toList_eq_map_nodes, List.getElem?_map,
    Option.map_some]

/-- Taking `n` elements from the front at the `i`-th node gives the `n` elements of the
in-order list from the `i`-th on. -/
theorem rest_go_eq {t : Tree α} (n i : Nat) (it : Iter α) (htree : it.tree = t)
    (hfront : it.front = t.paths[i]?) (hn : it.remaining = n) (hi : i + n ≤ t.size) :
    rest.go n it = (t.toList.drop i).take n := by
  induction n generalizing i it with
  | zero => simp [rest.go]
  | succ n ih =>
    have hlen : i < t.paths.length := by
      rw [Tree.length_paths, ← Tree.size_eq_length_nodes]
      omega
    have hlen' : i < t.toList.length := by
      rw [Tree.length_toList]
      omega
    rw [rest.go, next_of_front it htree hfront hlen (by omega)]
    -- the rest of the walk starts one node further on
    have hrest := ih (i + 1) { it with front := t.paths[i + 1]?, remaining := it.remaining - 1 }
      htree rfl (by simp only; omega) (by omega)
    rw [List.getElem?_eq_getElem hlen']
    simp only at hrest ⊢
    rw [hrest, List.drop_eq_getElem_cons hlen', List.take_succ_cons]

/-- One step from the back at the `j`-th node, with elements left, takes the `j`-th
element. -/
theorem nextBack_of_back {t : Tree α} {j : Nat} (it : Iter α) (htree : it.tree = t)
    (hback : it.back = t.paths[j]?) (hj : j < t.paths.length) (hn : it.remaining ≠ 0) :
    it.nextBack =
      (t.toList[j]?, { it with back := if j = 0 then none else t.paths[j - 1]?
                               remaining := it.remaining - 1 }) := by
  have hlen : j < t.nodes.length := by rwa [← Tree.length_paths]
  rw [nextBack, if_neg hn, hback, List.getElem?_eq_getElem hj]
  simp only [htree, Tree.nodeAt?_getElem_paths t j hj, List.getElem?_eq_getElem hlen,
    Tree.prevPath?_getElem_paths t j hj, Tree.toList_eq_map_nodes, List.getElem?_map,
    Option.map_some]

theorem next_of_remaining_zero (it : Iter α) (h : it.remaining = 0) : it.next = (none, it) := by
  simp [next, h]

theorem nextBack_of_remaining_zero (it : Iter α) (h : it.remaining = 0) :
    it.nextBack = (none, it) := by
  simp [nextBack, h]

/-! ## Taking from both ends -/

/-- An iterator over `t` that has taken from the front the elements before index `i` and from
the back those from index `j` on: its front is at the `i`-th node, its back at the node before
the `j`-th, and the `j - i` elements in between are left. -/
structure Window (t : Tree α) (i j : Nat) (it : Iter α) : Prop where
  tree : it.tree = t
  front : it.front = t.paths[i]?
  back : it.back = if j = 0 then none else t.paths[j - 1]?
  remaining : it.remaining + i = j
  le_size : j ≤ t.size

namespace Window

variable {t : Tree α} {i j : Nat} {it : Iter α}

theorem lt_length_paths (hw : Window t i j it) {k : Nat} (hk : k < j) : k < t.paths.length := by
  have := hw.le_size
  rw [Tree.length_paths, ← Tree.size_eq_length_nodes]
  omega

/-- With elements left, `next` takes the one at index `i`. -/
theorem next (hw : Window t i j it) (h : i < j) :
    it.next.1 = t.toList[i]? ∧ Window t (i + 1) j it.next.2 := by
  have hr := hw.remaining
  rw [next_of_front it hw.tree hw.front (hw.lt_length_paths h) (by omega)]
  exact ⟨rfl, hw.tree, rfl, hw.back, by simp only; omega, hw.le_size⟩

/-- With elements left, `nextBack` takes the one at index `j - 1`. -/
theorem nextBack (hw : Window t i j it) (h : i < j) :
    it.nextBack.1 = t.toList[j - 1]? ∧ Window t i (j - 1) it.nextBack.2 := by
  have hr := hw.remaining
  have hback : it.back = t.paths[j - 1]? := by rw [hw.back, if_neg (by omega)]
  rw [nextBack_of_back it hw.tree hback (hw.lt_length_paths (by omega)) (by omega)]
  exact ⟨rfl, hw.tree, hw.front, rfl, by simp only; omega, by have := hw.le_size; omega⟩

/-- The elements left, from the front, are those from index `i` to `j - 1`. -/
theorem rest (hw : Window t i j it) : it.rest = (t.toList.take j).drop i := by
  have hr := hw.remaining
  rw [Iter.rest, rest_go_eq it.remaining i it hw.tree hw.front rfl
    (by have := hw.le_size; omega), List.drop_take, show j - i = it.remaining by omega]

/-- The elements left, from the back, are those from index `j - 1` down to `i`. -/
theorem restBack_go (n : Nat) (hw : Window t i j it) (hn : it.remaining = n) :
    restBack.go n it = ((t.toList.take j).drop i).reverse := by
  induction n generalizing j it with
  | zero =>
    have : j = i := by have := hw.remaining; omega
    subst this
    simp [restBack.go]
  | succ n ih =>
    have hr := hw.remaining
    obtain ⟨hx, hw'⟩ := hw.nextBack (by omega)
    have hj : j - 1 < t.toList.length := by
      rw [Tree.length_toList]
      have := hw.le_size
      omega
    rw [List.getElem?_eq_getElem hj] at hx
    rcases hnb : it.nextBack with ⟨x?, it'⟩
    rw [hnb] at hx hw'
    cases hx
    rw [restBack.go, hnb]
    simp only
    rw [ih hw' (by have := hw'.remaining; omega)]
    -- the element at index `j - 1` closes the window on the right
    have htake : t.toList.take j = t.toList.take (j - 1) ++ [t.toList[j - 1]] := by
      rw [← List.take_succ_eq_append_getElem hj, show j - 1 + 1 = j by omega]
    rw [htake, List.drop_append_of_le_length (by simp; omega), List.reverse_append]
    rfl

theorem restBack (hw : Window t i j it) :
    it.restBack = ((t.toList.take j).drop i).reverse :=
  hw.restBack_go it.remaining rfl

theorem len (hw : Window t i j it) : it.len = j - i := by
  have := hw.remaining
  simp only [Iter.len]
  omega

theorem count (hw : Window t i j it) : it.count = j - i := by
  rw [Iter.count, hw.rest, List.length_drop, List.length_take, Tree.length_toList,
    Nat.min_eq_left hw.le_size]

/-- The last element left is the one at index `j - 1`, or none once the window is empty. -/
theorem last (hw : Window t i j it) : it.last = it.rest.getLast? := by
  rw [hw.rest]
  rcases Nat.lt_or_ge i j with h | h
  · have hj : j - 1 < t.toList.length := by
      rw [Tree.length_toList]
      have := hw.le_size
      omega
    rw [Iter.last, (hw.nextBack h).1, List.getLast?_eq_getElem?, List.getElem?_drop,
      List.getElem?_take_of_lt (by simp [List.length_take]; omega)]
    congr 1
    simp [List.length_take, Tree.length_toList, hw.le_size]
    omega
  · have hr := hw.remaining
    rw [Iter.last, nextBack_of_remaining_zero it (by omega), List.drop_eq_nil_of_le (by simp; omega)]
    rfl

end Window

/-! ## Sequences of calls -/

/-- One call on an iterator: `next` for the front (`true`), `nextBack` for the back. -/
def call (it : Iter α) (front : Bool) : Option α × Iter α :=
  if front then it.next else it.nextBack

/-- The iterator after a sequence of calls, `true` for the front and `false` for the back. -/
def calls (it : Iter α) (es : List Bool) : Iter α :=
  es.foldl (fun it e => (it.call e).2) it

@[simp] theorem calls_nil (it : Iter α) : it.calls [] = it := rfl

@[simp] theorem calls_cons (it : Iter α) (e : Bool) (es : List Bool) :
    it.calls (e :: es) = (it.call e).2.calls es := rfl

theorem calls_append (it : Iter α) (es es' : List Bool) :
    it.calls (es ++ es') = (it.calls es).calls es' := by
  simp [calls, List.foldl_append]

theorem call_of_remaining_zero (it : Iter α) (h : it.remaining = 0) (e : Bool) :
    it.call e = (none, it) := by
  cases e
  · exact nextBack_of_remaining_zero it h
  · exact next_of_remaining_zero it h

/-- An iterator with nothing left stays as it is. -/
theorem calls_of_remaining_zero (it : Iter α) (h : it.remaining = 0) (es : List Bool) :
    it.calls es = it := by
  induction es with
  | nil => rfl
  | cons e es ih => rw [calls_cons, call_of_remaining_zero it h, ih]

namespace Window

variable {t : Tree α} {i j : Nat} {it : Iter α}

/-- Calls that do not take more than is left move the front past the elements taken from it
and the back before those taken from it. -/
theorem calls (hw : Window t i j it) (es : List Bool) (hes : es.length ≤ j - i) :
    Window t (i + es.count true) (j - es.count false) (it.calls es) := by
  induction es generalizing i j it with
  | nil => simpa using hw
  | cons e es ih =>
    simp only [List.length_cons] at hes
    cases e with
    | false =>
      have h := ih (hw.nextBack (by omega)).2 (by omega)
      have hf : j - 1 - es.count false = j - (false :: es).count false := by
        simp
        omega
      rw [hf, show es.count true = (false :: es).count true by simp] at h
      exact h
    | true =>
      have h := ih (hw.next (by omega)).2 (by omega)
      have ht : i + 1 + es.count true = i + (true :: es).count true := by
        simp
        omega
      rw [ht, show es.count false = (true :: es).count false by simp] at h
      exact h

end Window

theorem count_true_add_count_false (es : List Bool) :
    es.count true + es.count false = es.length := by
  induction es with
  | nil => rfl
  | cons e es ih =>
    cases e <;> simp <;> omega

end Iter

namespace AvlSet

variable {α : Type}

/-- A fresh iterator lists the elements in order. -/
theorem rest_iter (s : AvlSet α) : s.iter.rest = s.toList := by
  have hfront : s.iter.front = s.root.paths[0]? := by
    rw [← List.head?_eq_getElem?, Tree.head?_paths]
    rfl
  rw [Iter.rest, Iter.rest_go_eq s.iter.remaining 0 s.iter rfl hfront rfl (by simp [iter, len])]
  rw [List.drop_zero]
  exact List.take_of_length_le (by simp [iter, len, Tree.length_toList])

theorem length_paths_eq_len (s : AvlSet α) : s.root.paths.length = s.len := by
  rw [Tree.length_paths, ← Tree.size_eq_length_nodes]
  rfl

/-- A fresh iterator has taken nothing from either end. -/
theorem window_iter (s : AvlSet α) : Iter.Window s.root 0 s.len s.iter where
  tree := rfl
  front := by
    rw [← List.head?_eq_getElem?, Tree.head?_paths]
    rfl
  back := by
    show s.root.lastPath? = _
    rw [← Tree.getLast?_paths, List.getLast?_eq_getElem?, length_paths_eq_len]
    split
    · next h => exact List.getElem?_eq_none (by rw [length_paths_eq_len]; omega)
    · rfl
  remaining := rfl
  le_size := Nat.le_refl _

/-- Calls that take at most `n` elements leave the window between the elements taken from
each end. -/
theorem window_calls_iter (s : AvlSet α) {es : List Bool} (h : es.length ≤ s.len) :
    Iter.Window s.root (es.count true) (s.len - es.count false) (s.iter.calls es) := by
  simpa using (window_iter s).calls es (by omega)

/-- Whatever the calls, the iterator stays in a window: once `n` elements are taken, further
calls change nothing. -/
theorem exists_window_calls_iter (s : AvlSet α) (es : List Bool) :
    ∃ i j, Iter.Window s.root i j (s.iter.calls es) ∧ j - i = s.len - es.length := by
  rcases Nat.le_total es.length s.len with h | h
  · have hw := window_calls_iter s h
    have := Iter.count_true_add_count_false es
    exact ⟨_, _, hw, by omega⟩
  · have htake : (es.take s.len).length ≤ s.len := by rw [List.length_take]; omega
    have hw := window_calls_iter s htake
    have hc := Iter.count_true_add_count_false (es.take s.len)
    rw [List.length_take] at hc
    have h0 : (s.iter.calls (es.take s.len)).remaining = 0 := by
      have := hw.remaining
      omega
    refine ⟨(es.take s.len).count true, s.len - (es.take s.len).count false, ?_, ?_⟩
    · -- the calls after the first `n` find nothing left and change nothing
      have hsplit := Iter.calls_append s.iter (es.take s.len) (es.drop s.len)
      rw [List.take_append_drop, Iter.calls_of_remaining_zero _ h0] at hsplit
      rw [hsplit]
      exact hw
    · have := hw.remaining
      omega

theorem remaining_calls_iter (s : AvlSet α) (es : List Bool) :
    (s.iter.calls es).remaining = s.len - es.length := by
  obtain ⟨i, j, hw, hij⟩ := exists_window_calls_iter s es
  have := hw.remaining
  omega

/-- What calls on an iterator over a set of `n` elements answer, in whatever order they come:
`next` takes the elements in ascending order and `nextBack` in descending order, until `n`
have been taken in all, after which both ends answer `none`; the count left, the last element
left and the number counted follow the elements left. Taken whole, the iterator lists the
elements in order, and from the back in reverse, starting with the largest. -/
structure TwoEnded (s : AvlSet α) : Prop where
  take : ∀ es e, es.length < s.len → ((s.iter.calls es).call e).1 =
    if e then s.toList[es.count true]? else s.toList[s.len - 1 - es.count false]?
  exhausted : ∀ es e, s.len ≤ es.length → ((s.iter.calls es).call e).1 = none
  rest : ∀ es, es.length ≤ s.len →
    (s.iter.calls es).rest = (s.toList.take (s.len - es.count false)).drop (es.count true)
  len : ∀ es, (s.iter.calls es).len = s.len - es.length ∧
    (s.iter.calls es).remaining = s.len - es.length
  last : ∀ es, (s.iter.calls es).last = (s.iter.calls es).rest.getLast?
  count : ∀ es, (s.iter.calls es).count = s.len - es.length
  whole : s.iter.rest = s.toList ∧ s.iter.restBack = s.toList.reverse ∧
    s.iter.nextBack.1 = s.toList.getLast? ∧
    s.iter.nextBack.2.restBack = s.toList.dropLast.reverse

theorem take_calls_iter (s : AvlSet α) {es : List Bool} (h : es.length < s.len) (e : Bool) :
    ((s.iter.calls es).call e).1 =
      if e then s.toList[es.count true]? else s.toList[s.len - 1 - es.count false]? := by
  have hw := window_calls_iter s (Nat.le_of_lt h)
  have hc := Iter.count_true_add_count_false es
  cases e with
  | true => exact (hw.next (by omega)).1
  | false =>
    rw [show s.len - 1 - es.count false = s.len - es.count false - 1 by omega]
    exact (hw.nextBack (by omega)).1

/-- Taken whole from the front or the back, or from the back after the largest element, the
iterator lists the elements in order or in reverse. -/
theorem whole_iter (s : AvlSet α) :
    s.iter.rest = s.toList ∧ s.iter.restBack = s.toList.reverse ∧
      s.iter.nextBack.1 = s.toList.getLast? ∧
      s.iter.nextBack.2.restBack = s.toList.dropLast.reverse := by
  have hw := window_iter s
  have hn : s.root.toList.length = s.len := Tree.length_toList s.root
  simp only [AvlSet.toList]
  refine ⟨rest_iter s, ?_, ?_⟩
  · rw [hw.restBack, List.drop_zero, List.take_of_length_le (by omega)]
  · rcases Nat.eq_zero_or_pos s.len with h0 | hpos
    · -- nothing to take
      have he : s.root.toList = [] := List.eq_nil_of_length_eq_zero (by omega)
      rw [Iter.nextBack_of_remaining_zero _ h0, hw.restBack, he]
      exact ⟨rfl, by simp⟩
    · obtain ⟨hx, hw'⟩ := hw.nextBack hpos
      rw [hx, hw'.restBack, List.drop_zero, List.getLast?_eq_getElem?, List.dropLast_eq_take,
        hn]
      exact ⟨rfl, rfl⟩

end AvlSet

end AvlCollections
