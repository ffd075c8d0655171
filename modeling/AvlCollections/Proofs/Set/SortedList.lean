import AvlCollections.Proofs.Set.Valid
import AvlCollections.Proofs.Set.Iter
import AvlCollections.Proofs.Set.Locate

/-! # A set is a sorted list

The elements of a valid set, in order, ascend under its comparator, and each operation does to
that list what the operation of the same name does to a sorted list of pairwise inequivalent
elements. Lookups answer what `List.find?` answers, removal is `List.eraseP`, a new element
goes where `List.orderedInsert` puts it, and a duplicate is refused or swapped in place
according to the set's policy. Lookups by a probe need only that the probe be monotone along
the list; which of several matching elements they pick then depends on the shape of the tree,
so their specifications are relations.
-/

namespace AvlCollections

variable {α : Type}

/-! ## The list model -/

/-- Adding `x` to an ascending list under a duplicate policy. -/
def sortedAdd (cmp : α → α → Ordering) (policy : Policy) (x : α) (xs : List α) : List α :=
  if xs.any (cmp x · == .eq) then
    match policy with
    | .reject => xs
    | .replace => xs.map fun z => if cmp x z = .eq then x else z
  else xs.orderedInsert (fun a b => cmp a b ≠ .gt) x

/-- What a lookup by `probe` may answer on `xs`: an element of `xs` at which the probe answers
`eq`, or nothing when there is none. -/
def Picks (probe : α → Ordering) (xs : List α) : Option α → Prop
  | some y => y ∈ xs ∧ probe y = .eq
  | none => ∀ y ∈ xs, probe y ≠ .eq

/-- What a removal by `probe` may do to `xs`: take out, where it stands, an element at which
the probe answers `eq`, or leave `xs` as it is when there is none. -/
def Removal (probe : α → Ordering) (xs : List α) : Option α → List α → Prop
  | some y, ys => probe y = .eq ∧ ∃ as bs, xs = as ++ y :: bs ∧ ys = as ++ bs
  | none, ys => ys = xs ∧ ∀ y ∈ xs, probe y ≠ .eq

section Comparator

variable {cmp : α → α → Ordering} [Std.TransCmp cmp] {xs : List α}

/-- On an ascending list, a lookup by comparison with `x` has only one answer. -/
theorem Picks.eq_find? {x : α} {r : Option α} (h : Ascending cmp xs) (hp : Picks (cmp x) xs r) :
    r = xs.find? (cmp x · == .eq) := by
  cases r with
  | none =>
    rw [List.find?_eq_none.2]
    intro y hy
    simpa using hp y hy
  | some y =>
    obtain ⟨hy, e⟩ := hp
    obtain ⟨as, bs, rfl⟩ := List.append_of_mem hy
    rw [h.find?_equiv e]

/-- On an ascending list, a removal by comparison with `x` has only one outcome. -/
theorem Removal.eq_eraseP {x : α} {r : Option α} {ys : List α} (h : Ascending cmp xs)
    (hr : Removal (cmp x) xs r ys) :
    r = xs.find? (cmp x · == .eq) ∧ ys = xs.eraseP (cmp x · == .eq) := by
  cases r with
  | none =>
    obtain ⟨rfl, hne⟩ := hr
    have hne' : ∀ y ∈ ys, ¬(cmp x y == .eq) = true := fun y hy => by simpa using hne y hy
    exact ⟨(List.find?_eq_none.2 hne').symm, (List.eraseP_of_forall_not hne').symm⟩
  | some y =>
    obtain ⟨e, as, bs, rfl, rfl⟩ := hr
    exact ⟨(h.find?_equiv e).symm, (h.eraseP_equiv e).symm⟩

end Comparator

namespace AvlSet

variable {s : AvlSet α}

/-! ## Reading the list -/

theorem length_paths_root (s : AvlSet α) : s.root.paths.length = s.toList.length := by
  rw [Tree.length_paths, toList, Tree.toList_eq_map_nodes, List.length_map]

/-- The `i`-th path of the walk reads the `i`-th element. -/
theorem valueAt?_getElem?_paths (s : AvlSet α) (i : Nat) :
    (s.root.paths[i]?).bind s.valueAt? = s.toList[i]? := by
  have hlen := length_paths_root s
  rcases Nat.lt_or_ge i s.root.paths.length with hi | hi
  · rw [List.getElem?_eq_getElem hi, Option.bind_some, valueAt?,
      Tree.nodeAt?_getElem_paths _ i hi, toList, Tree.toList_eq_map_nodes, List.getElem?_map]
  · rw [List.getElem?_eq_none hi, List.getElem?_eq_none (by omega)]
    rfl

theorem min?_eq_head? (s : AvlSet α) : s.min? = s.toList.head? := by
  rw [min?, ← Tree.head?_paths, List.head?_eq_getElem?, List.head?_eq_getElem?,
    valueAt?_getElem?_paths]

theorem max?_eq_getLast? (s : AvlSet α) : s.max? = s.toList.getLast? := by
  rw [max?, ← Tree.getLast?_paths, List.getLast?_eq_getElem?, List.getLast?_eq_getElem?,
    length_paths_root,
    valueAt?_getElem?_paths]

theorem len_eq_length (s : AvlSet α) : s.len = s.toList.length :=
  (Tree.length_toList s.root).symm

/-- A lookup by a monotone probe finds a matching element whenever there is one. -/
theorem getBy_picks {probe : α → Ordering} (hm : MonotoneAlong probe s.toList) :
    Picks probe s.toList (s.getBy probe) := by
  unfold getBy findBy
  cases hf : s.root.find? probe with
  | none => exact (Tree.find?_eq_none_iff hm).1 hf
  | some p =>
    obtain ⟨n, y, hy, e⟩ := Tree.nodeAt?_of_find? hf
    rw [Option.bind_some, valueAt?_of_nodeAt? hy]
    exact ⟨Tree.mem_toList_of_nodeAt? hy, e⟩

/-- The cursor on the node a probe finds reads the element the lookup returns. -/
theorem findBy_map_elementAt (hnd : s.root.slots.Nodup) (probe : α → Ordering) :
    (s.findBy probe).map (fun p => s.elementAt (s.cursorAtPath (some p))) =
      (s.getBy probe).map .ok := by
  unfold getBy
  cases hf : s.findBy probe with
  | none => rfl
  | some p =>
    obtain ⟨n, y, hy, -⟩ := Tree.nodeAt?_of_find? hf
    rw [Option.map_some, Option.bind_some, valueAt?_of_nodeAt? hy, Option.map_some,
      elementAt_cursorAtPath hnd hy]

/-- A removal by a monotone probe takes out a matching element where it stands, or finds none
and changes nothing. -/
theorem removeBy_removal {probe : α → Ordering} (hm : MonotoneAlong probe s.toList)
    (fresh : Nat) :
    Removal probe s.toList (s.removeBy probe fresh).1 (s.removeBy probe fresh).2.toList := by
  unfold removeBy
  cases hf : s.findBy probe with
  | none => exact ⟨rfl, (Tree.find?_eq_none_iff hm).1 hf⟩
  | some p =>
    show Removal probe s.toList (s.eraseAt p fresh).1 (s.eraseAt p fresh).2.toList
    obtain ⟨n, y, hy, e⟩ := Tree.nodeAt?_of_find? hf
    obtain ⟨freed, t, he⟩ := Tree.eraseAt_of_nodeAt? hy
    obtain ⟨as, bs, hb, ha⟩ := Tree.toList_eraseAt he
    rw [eraseAt_of_some he]
    exact ⟨e, as, bs, hb, ha⟩

/-! ## Operations on a valid set -/

theorem add_snd_cmp_policy (s : AvlSet α) (x : α) (fresh : Nat) :
    (s.add x fresh).2.cmp = s.cmp ∧ (s.add x fresh).2.policy = s.policy := by
  unfold AvlSet.add
  split
  · next slot s' hp =>
    obtain ⟨t, -, -, rfl⟩ := place_eq_added hp
    exact ⟨rfl, rfl⟩
  · split <;> exact ⟨rfl, rfl⟩

section Valid

variable [Std.TransCmp s.cmp] (hv : s.Valid)
include hv

/-- Adding an element equivalent to a stored one finds that element's node. -/
theorem place_of_equiv {x y : α} (hy : y ∈ s.toList) (e : s.cmp x y = .eq)
    (fresh : Nat) :
    ∃ slot p v, s.place x fresh = .found slot p ∧ s.root.nodeAt? p = some (slot, v) ∧
      s.cmp x v = .eq := by
  cases hi : s.root.insert s.cmp x s.pool.next with
  | added t => exact absurd e ((Tree.insert_added_iff hv.ascending).1 ⟨t, hi⟩ y hy)
  | occupied slot p =>
    obtain ⟨v, hpv, e'⟩ := Tree.nodeAt?_of_insert_occupied hi
    exact ⟨slot, p, v, by simp [place, hi], hpv, e'⟩

/-- An element with no equivalent goes to its place in order, under the cursor returned. -/
theorem add_of_forall_ne {x : α} (hx : ∀ y ∈ s.toList, s.cmp x y ≠ .eq) (fresh : Nat) :
    (s.add x fresh).2.toList = s.toList.orderedInsert (fun a b => s.cmp a b ≠ .gt) x ∧
      ∃ c, (s.add x fresh).1 = .ok c ∧ (s.add x fresh).2.elementAt c = .ok x := by
  obtain ⟨t, ins⟩ : ∃ t, s.root.insert s.cmp x s.pool.next = .added t :=
    (Tree.insert_added_iff hv.ascending).2 hx
  have hp : s.place x fresh = .added s.pool.next
      { s with root := t, pool := s.pool.alloc, stamp := s.stamp.touch fresh } := by
    simp [place, ins]
  have hv' := hv.place hp
  obtain ⟨xs, ys, hn, hn', below, above⟩ := Tree.nodes_insert hv.ascending ins
  simp only [add, hp]
  refine ⟨?_, _, rfl, ?_⟩
  · show t.toList = s.root.toList.orderedInsert _ x
    rw [Tree.toList_eq_map_nodes, Tree.toList_eq_map_nodes, hn, hn', List.map_append,
      List.map_append, List.map_cons]
    refine (orderedInsert_eq (fun a ha => ?_) (fun b hb => ?_)).symm
    · obtain ⟨e, he, rfl⟩ := List.mem_map.1 ha
      exact below e he
    · obtain ⟨e, he, rfl⟩ := List.mem_map.1 hb
      exact above e he
  · obtain ⟨p, hxp⟩ := Tree.exists_nodeAt?_of_mem_nodes (t := t) (n := s.pool.next) (v := x)
      (by simp [hn'])
    exact elementAt_cursorAt_node hv'.accounts.nodup hxp

/-- Under `Policy.reject` a duplicate is refused and the set is left as it was. -/
theorem add_of_equiv_reject {x y : α} (hy : y ∈ s.toList) (e : s.cmp x y = .eq)
    (hr : s.policy = .reject) (fresh : Nat) : s.add x fresh = (.error .duplicateKey, s) := by
  obtain ⟨slot, p, v, hp, -, -⟩ := place_of_equiv hv hy e fresh
  simp [add, hp, hr]

/-- Under `Policy.replace` a duplicate takes the place of the stored element it is equivalent
to, under the cursor returned. -/
theorem add_of_equiv_replace {x y : α} (hy : y ∈ s.toList) (e : s.cmp x y = .eq)
    (hr : s.policy = .replace) (fresh : Nat) :
    (s.add x fresh).2.toList = s.toList.map (fun z => if s.cmp x z = .eq then x else z) ∧
      ∃ c, (s.add x fresh).1 = .ok c ∧ (s.add x fresh).2.elementAt c = .ok x := by
  obtain ⟨slot, p, v, hp, hpv, e'⟩ := place_of_equiv hv hy e fresh
  have hx : (s.root.setAt x p).nodeAt? p = some (slot, x) := by
    rw [Tree.setAt_eq_modifyAt]
    exact Tree.nodeAt?_modifyAt hpv
  obtain ⟨as, bs, hb, ha⟩ := Tree.toList_modifyAt (f := fun _ => x) hpv
  simp only [add, hp, hr]
  refine ⟨?_, _, rfl, ?_⟩
  · show (s.root.setAt x p).toList = s.root.toList.map _
    have hasc := hv.ascending
    rw [hb] at hasc
    rw [Tree.setAt_eq_modifyAt, ha, hb, hasc.map_replace e']
  · have hnd : (s.root.setAt x p).slots.Nodup := by
      simpa [Tree.setAt_eq_modifyAt] using hv.accounts.nodup
    exact elementAt_cursorAt_node hnd hx

/-- What an addition does to the list, whatever the element. -/
theorem toList_add (x : α) (fresh : Nat) :
    (s.add x fresh).2.toList = sortedAdd s.cmp s.policy x s.toList := by
  unfold sortedAdd
  by_cases hx : ∃ y ∈ s.toList, s.cmp x y = .eq
  · obtain ⟨y, hy, e⟩ := hx
    rw [if_pos (List.any_eq_true.2 ⟨y, hy, by simp [e]⟩)]
    cases hr : s.policy with
    | reject => rw [add_of_equiv_reject hv hy e hr]
    | replace => exact (add_of_equiv_replace hv hy e hr fresh).1
  · simp only [not_exists, not_and] at hx
    rw [if_neg (by simpa using hx)]
    exact (add_of_forall_ne hv hx fresh).1

theorem Valid.add (x : α) (fresh : Nat) : (s.add x fresh).2.Valid := by
  unfold AvlSet.add
  split
  · next slot s' hp => exact hv.place hp
  · next slot p hp =>
    split
    · exact hv
    · -- a replaced element is equivalent to the one it replaces
      obtain ⟨v, hpv, e⟩ := Tree.nodeAt?_of_insert_occupied (place_eq_found hp)
      have hs := hv.modifyAt p (fun _ => x) fun n v' hv' => by
        rw [hpv] at hv'
        cases hv'
        exact e
      simpa [AvlSet.modifyAt, Tree.setAt_eq_modifyAt] using hs

theorem get_eq_find? (x : α) : s.get x = s.toList.find? (s.cmp x · == .eq) :=
  (getBy_picks (hv.ascending.monotoneAlong x)).eq_find? hv.ascending

theorem contains_eq_any (x : α) : s.contains x = s.toList.any (s.cmp x · == .eq) := by
  rw [contains, get_eq_find? hv, List.isSome_find?]

/-- The cursor that a search returns reads the element equivalent to the one sought. -/
theorem search_map_elementAt (x : α) :
    (s.search x).map s.elementAt = (s.toList.find? (s.cmp x · == .eq)).map .ok := by
  rw [search, Option.map_map, ← get_eq_find? hv]
  exact findBy_map_elementAt hv.accounts.nodup (s.cmp x)

theorem remove_eq (x : α) (fresh : Nat) :
    (s.remove x fresh).1 = s.toList.find? (s.cmp x · == .eq) ∧
      (s.remove x fresh).2.toList = s.toList.eraseP (s.cmp x · == .eq) :=
  (removeBy_removal (hv.ascending.monotoneAlong x) fresh).eq_eraseP hv.ascending

end Valid

/-- Adding a list adds its elements in turn to the list of the set. -/
theorem toList_extend {s : AvlSet α} [Std.TransCmp s.cmp] (hv : s.Valid) (ys : List α)
    (fresh : Nat) :
    (s.extend ys fresh).toList = ys.foldl (fun xs y => sortedAdd s.cmp s.policy y xs) s.toList := by
  induction ys generalizing s with
  | nil => rfl
  | cons y ys ih =>
    obtain ⟨hc, hp⟩ := add_snd_cmp_policy s y fresh
    have : Std.TransCmp (s.add y fresh).2.cmp := by rw [hc]; infer_instance
    show ((s.add y fresh).2.extend ys fresh).toList = _
    rw [ih (hv.add y fresh), hc, hp, toList_add hv, List.foldl_cons]

/-! ## The specification -/

/-- A set ordered by `cmp` behaves as the ascending list `s.toList`: each operation does what
the list model says, a successful addition returns a cursor on the element added, and the
reads of the set read the list. -/
structure SortedList (cmp : α → α → Ordering) (s : AvlSet α) : Prop where
  ascending : Ascending cmp s.toList
  add_new : ∀ x fresh, (∀ y ∈ s.toList, cmp x y ≠ .eq) →
    (s.add x fresh).2.toList = s.toList.orderedInsert (fun a b => cmp a b ≠ .gt) x ∧
      ∃ c, (s.add x fresh).1 = .ok c ∧ (s.add x fresh).2.elementAt c = .ok x
  add_reject : ∀ x y fresh, y ∈ s.toList → cmp x y = .eq → s.policy = .reject →
    s.add x fresh = (.error .duplicateKey, s)
  add_replace : ∀ x y fresh, y ∈ s.toList → cmp x y = .eq → s.policy = .replace →
    (s.add x fresh).2.toList = s.toList.map (fun z => if cmp x z = .eq then x else z) ∧
      ∃ c, (s.add x fresh).1 = .ok c ∧ (s.add x fresh).2.elementAt c = .ok x
  extend : ∀ ys fresh,
    (s.extend ys fresh).toList = ys.foldl (fun xs y => sortedAdd cmp s.policy y xs) s.toList
  remove : ∀ x fresh, (s.remove x fresh).1 = s.toList.find? (cmp x · == .eq) ∧
    (s.remove x fresh).2.toList = s.toList.eraseP (cmp x · == .eq)
  removeBy : ∀ probe fresh, MonotoneAlong probe s.toList →
    Removal probe s.toList (s.removeBy probe fresh).1 (s.removeBy probe fresh).2.toList
  get : ∀ x, s.get x = s.toList.find? (cmp x · == .eq)
  contains : ∀ x, s.contains x = s.toList.any (cmp x · == .eq)
  search : ∀ x, (s.search x).map s.elementAt = (s.toList.find? (cmp x · == .eq)).map .ok
  getBy : ∀ probe, MonotoneAlong probe s.toList → Picks probe s.toList (s.getBy probe)
  searchBy : ∀ probe,
    (s.findBy probe).map (fun p => s.elementAt (s.cursorAtPath (some p))) =
      (s.getBy probe).map .ok
  min : s.min? = s.toList.head?
  max : s.max? = s.toList.getLast?
  len : s.len = s.toList.length
  iter : s.iter.rest = s.toList

theorem Valid.sortedList [Std.TransCmp s.cmp] (hv : s.Valid) : s.SortedList s.cmp where
  ascending := hv.ascending
  add_new _ fresh hx := add_of_forall_ne hv hx fresh
  add_reject _ _ fresh hy e hr := add_of_equiv_reject hv hy e hr fresh
  add_replace _ _ fresh hy e hr := add_of_equiv_replace hv hy e hr fresh
  extend := toList_extend hv
  remove := remove_eq hv
  removeBy _ fresh hm := removeBy_removal hm fresh
  get := get_eq_find? hv
  contains := contains_eq_any hv
  search := search_map_elementAt hv
  getBy _ hm := getBy_picks hm
  searchBy := findBy_map_elementAt hv.accounts.nodup
  min := min?_eq_head? s
  max := max?_eq_getLast? s
  len := len_eq_length s
  iter := rest_iter s

variable {cmp : α → α → Ordering}

end AvlSet

end AvlCollections
