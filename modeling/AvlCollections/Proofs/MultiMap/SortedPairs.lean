import AvlCollections.Proofs.MultiMap.Valid
import Mathlib

/-! # A map is a sorted list of keys with their values

Read in order, the entries of a valid map are a list of keys, each with its non-empty list of
values, whose keys ascend under the map's order. Every operation does to that list what the
function of the same name in `KeyValues` does: a lookup finds the one key equivalent to the
key asked for, an insertion edits the values under that key or puts the new key where it
belongs in the order, and a removal takes the key out or drops values from under it.
-/

namespace AvlCollections

variable {κ ν : Type}

/-- Keys, each with a list of values. -/
abbrev KeyValues (κ ν : Type) := List (κ × List ν)

namespace KeyValues

variable (cmp : κ → κ → Ordering)

/-- The values under the key equivalent to `k`. -/
def lookup (k : κ) (ps : KeyValues κ ν) : Option (List ν) :=
  (ps.find? (cmp k ·.1 == .eq)).map (·.2)

/-- Applies `f` to the values under the key equivalent to `k`; the stored key stays. -/
def edit (k : κ) (f : List ν → List ν) (ps : KeyValues κ ν) : KeyValues κ ν :=
  ps.map fun p => if cmp k p.1 = .eq then (p.1, f p.2) else p

/-- Edits the values under the key equivalent to `k` with `f`, or puts `k` with the values
`new` among the keys in order. -/
def upsert (k : κ) (new : List ν) (f : List ν → List ν) (ps : KeyValues κ ν) : KeyValues κ ν :=
  if ps.any (cmp k ·.1 == .eq) then edit cmp k f ps
  else ps.orderedInsert (fun a b => cmp a.1 b.1 ≠ .gt) (k, new)

/-- Takes out the key equivalent to `k` with its values. -/
def erase (k : κ) (ps : KeyValues κ ν) : KeyValues κ ν :=
  ps.eraseP (cmp k ·.1 == .eq)

/-- Drops every value equal to `v` from under the key equivalent to `k`, and the key too when
no value is left; how many values went, and the list. -/
def dropValue [BEq ν] (k : κ) (v : ν) (ps : KeyValues κ ν) : Nat × KeyValues κ ν :=
  match lookup cmp k ps with
  | none => (0, ps)
  | some vs =>
    (vs.countP (· == v),
      if vs.filter (· != v) = [] then erase cmp k ps else edit cmp k (·.filter (· != v)) ps)

end KeyValues

/-! ## Lists ascending by a key -/

section Keyed

variable {β : Type} {cmp : κ → κ → Ordering} [Std.TransCmp cmp] {key : β → κ}
  {as bs : List β} {y : β} {k : κ}

/-- In a list whose keys ascend, the key of one element is equivalent to `k` at most. -/
theorem Ascending.key_ne_of_equiv (h : Ascending cmp ((as ++ y :: bs).map key))
    (e : cmp k (key y) = .eq) {z : β} (hz : z ∈ as ++ bs) : cmp k (key z) ≠ .eq := by
  rw [List.map_append, List.map_cons] at h
  refine h.not_equiv_of_equiv e ?_
  rw [← List.map_append]
  exact List.mem_map_of_mem hz

theorem Ascending.find?_key (h : Ascending cmp ((as ++ y :: bs).map key))
    (e : cmp k (key y) = .eq) : (as ++ y :: bs).find? (fun z => cmp k (key z) == .eq) = some y := by
  have has : ∀ z ∈ as, ¬(cmp k (key z) == .eq) = true := by
    intro z hz
    simpa using h.key_ne_of_equiv e (List.mem_append_left bs hz)
  rw [List.find?_append, List.find?_eq_none.2 has]
  simp [e]

theorem Ascending.eraseP_key (h : Ascending cmp ((as ++ y :: bs).map key))
    (e : cmp k (key y) = .eq) : (as ++ y :: bs).eraseP (fun z => cmp k (key z) == .eq) = as ++ bs := by
  have has : ∀ z ∈ as, ¬(cmp k (key z) == .eq) = true := by
    intro z hz
    simpa using h.key_ne_of_equiv e (List.mem_append_left bs hz)
  rw [List.eraseP_append_right _ has]
  simp [e]

theorem Ascending.map_key (h : Ascending cmp ((as ++ y :: bs).map key))
    (e : cmp k (key y) = .eq) (f : β → β) :
    (as ++ y :: bs).map (fun z => if cmp k (key z) = .eq then f z else z) = as ++ f y :: bs := by
  have keep : ∀ zs : List β, (∀ z ∈ zs, cmp k (key z) ≠ .eq) →
      zs.map (fun z => if cmp k (key z) = .eq then f z else z) = zs := by
    intro zs hzs
    rw [List.map_congr_left fun z hz => if_neg (hzs z hz), List.map_id']
  rw [List.map_append, List.map_cons, if_pos e,
    keep as fun z hz => h.key_ne_of_equiv e (List.mem_append_left bs hz),
    keep bs fun z hz => h.key_ne_of_equiv e (List.mem_append_right as hz)]

end Keyed

namespace KeyValues

variable {cmp : κ → κ → Ordering} {ps qs : KeyValues κ ν} {p : κ × List ν} {k : κ}

section Equiv

variable [Std.TransCmp cmp] (h : Ascending cmp ((ps ++ p :: qs).map Prod.fst))
  (e : cmp k p.1 = .eq)
include h e

theorem lookup_of_equiv : lookup cmp k (ps ++ p :: qs) = some p.2 := by
  rw [lookup, h.find?_key e]
  rfl

theorem edit_of_equiv (f : List ν → List ν) :
    edit cmp k f (ps ++ p :: qs) = ps ++ (p.1, f p.2) :: qs :=
  h.map_key e fun q => (q.1, f q.2)

theorem upsert_of_equiv (new : List ν) (f : List ν → List ν) :
    upsert cmp k new f (ps ++ p :: qs) = ps ++ (p.1, f p.2) :: qs := by
  have hany : (ps ++ p :: qs).any (cmp k ·.1 == .eq) = true :=
    List.any_eq_true.2 ⟨p, by simp, by simp [e]⟩
  rw [upsert, if_pos hany, edit_of_equiv h e]

theorem erase_of_equiv : erase cmp k (ps ++ p :: qs) = ps ++ qs :=
  h.eraseP_key e

end Equiv

section Absent

variable (h : ∀ q ∈ ps, cmp k q.1 ≠ .eq)
include h

theorem lookup_of_forall_ne : lookup cmp k ps = none := by
  rw [lookup, List.find?_eq_none.2 fun q hq => by simpa using h q hq]
  rfl

theorem upsert_of_forall_ne (new : List ν) (f : List ν → List ν) :
    upsert cmp k new f ps = ps.orderedInsert (fun a b => cmp a.1 b.1 ≠ .gt) (k, new) := by
  rw [upsert, if_neg]
  simpa using h

end Absent

end KeyValues

/-! ## Adding to a set, seen from its list -/

namespace AvlSet

variable {α : Type} {s s' : AvlSet α} {x : α} {fresh slot : Nat} {p : Path}

/-- A new node goes where the order puts it; nothing stored was equivalent to its element. -/
theorem toList_place_added [Std.TransCmp s.cmp] (hv : s.Valid) (hp : s.place x fresh = .added slot s') :
    s'.toList = s.toList.orderedInsert (fun a b => s.cmp a b ≠ .gt) x ∧
      ∀ y ∈ s.toList, s.cmp x y ≠ .eq := by
  obtain ⟨t, ins, -, rfl⟩ := place_eq_added hp
  have hx : ∀ y ∈ s.toList, s.cmp x y ≠ .eq := (Tree.insert_added_iff hv.ascending).1 ⟨t, ins⟩
  have hadd : (s.add x fresh).2 =
      { s with root := t, pool := s.pool.alloc, stamp := s.stamp.touch fresh } := by
    simp [add, hp]
  exact ⟨hadd ▸ (add_of_forall_ne hv hx fresh).1, hx⟩

/-- An element is placed as a new node exactly when nothing stored is equivalent to it. -/
theorem place_added_of_forall_ne [Std.TransCmp s.cmp] (hv : s.Valid)
    (hx : ∀ y ∈ s.toList, s.cmp x y ≠ .eq) (fresh : Nat) :
    ∃ slot s', s.place x fresh = .added slot s' := by
  obtain ⟨t, ins⟩ : ∃ t, s.root.insert s.cmp x s.pool.next = .added t :=
    (Tree.insert_added_iff hv.ascending).2 hx
  exact ⟨s.pool.next, { s with root := t, pool := s.pool.alloc, stamp := s.stamp.touch fresh },
    by simp [place, ins]⟩

/-- When an equivalent element is stored, placing finds its node. -/
theorem nodeAt?_of_place_found (hp : s.place x fresh = .found slot p) :
    ∃ y, s.root.nodeAt? p = some (slot, y) ∧ s.cmp x y = .eq :=
  Tree.nodeAt?_of_insert_occupied (place_eq_found hp)

end AvlSet

/-! ## The list of a map -/

namespace Entry

/-- The key and the values of an entry. -/
def pair (e : Entry κ ν) : κ × List ν :=
  (e.key, e.values)

@[simp] theorem pair_fst (e : Entry κ ν) : e.pair.1 = e.key := rfl

@[simp] theorem pair_snd (e : Entry κ ν) : e.pair.2 = e.values := rfl

end Entry

namespace MultiMap

/-- The keys with their values, in the order of the keys. -/
def pairs (m : MultiMap κ ν) : KeyValues κ ν :=
  m.toList.map Entry.pair

variable {m : MultiMap κ ν} {fresh : Nat}

@[simp] theorem toList_withEntries (s : AvlSet (Entry κ ν)) : (m.withEntries s).toList = s.toList :=
  rfl

@[simp] theorem toList_entries (m : MultiMap κ ν) : m.entries.toList = m.toList := rfl

theorem map_fst_pairs (m : MultiMap κ ν) : m.pairs.map Prod.fst = m.toList.map (·.key) := by
  simp [pairs, Function.comp_def]

theorem ascending_keys (hv : m.Valid) : Ascending m.keyCmp (m.toList.map (·.key)) :=
  List.pairwise_map.2 hv.ascending

/-- On a split of the entries, the pairs split the same way and their keys ascend. -/
theorem ascending_pairs_of_eq (hv : m.Valid) {as bs : List (Entry κ ν)} {y : Entry κ ν}
    (hb : m.toList = as ++ y :: bs) :
    Ascending m.keyCmp ((as.map Entry.pair ++ y.pair :: bs.map Entry.pair).map Prod.fst) := by
  have hasc := ascending_keys hv
  rw [hb] at hasc
  simpa [Function.comp_def] using hasc

theorem pairs_eq_of_eq {as bs : List (Entry κ ν)} {y : Entry κ ν} (hb : m.toList = as ++ y :: bs) :
    m.pairs = as.map Entry.pair ++ y.pair :: bs.map Entry.pair := by
  simp [pairs, hb]

theorem forall_ne_pairs {k : κ} (h : ∀ e ∈ m.toList, m.keyCmp k e.key ≠ .eq) :
    ∀ q ∈ m.pairs, m.keyCmp k q.1 ≠ .eq := by
  intro q hq
  obtain ⟨e, he, rfl⟩ := List.mem_map.1 hq
  exact h e he

/-- Reading the newest value under a key that is stored edits it in place. -/
theorem alterOrInsert_of_locate {k : κ} {d : ν} {f : ν → ν} {p : Path} {n : Nat}
    {y : Entry κ ν} (hloc : m.locate k = some p) (hy : m.root.nodeAt? p = some (n, y))
    (fresh : Nat) :
    m.alterOrInsert k d f fresh =
      (f y.value, m.withEntries (m.entries.modifyAt p (Entry.modifyValue f))) := by
  have hval : (m.withEntries (m.entries.modifyAt p (Entry.modifyValue f))).entries.valueAt? p =
      some (y.modifyValue f) :=
    AvlSet.valueAt?_of_nodeAt? (Tree.nodeAt?_modifyAt hy)
  simp only [alterOrInsert, hloc, hval, Entry.value_modifyValue]

/-- Under a key that is missing, the entry `[d]` is placed first and then read as above. -/
theorem alterOrInsert_of_locate_none {k : κ} {d : ν} {f : ν → ν} {slot : Nat}
    {s : AvlSet (Entry κ ν)} {p : Path} {n : Nat} {y : Entry κ ν} (hloc : m.locate k = none)
    (hp : m.entries.place (Entry.single k d) fresh = .added slot s)
    (hloc' : (m.withEntries s).locate k = some p) (hy : s.root.nodeAt? p = some (n, y)) :
    m.alterOrInsert k d f fresh =
      (f y.value, (m.withEntries s).withEntries
        ((m.withEntries s).entries.modifyAt p (Entry.modifyValue f))) := by
  have hval : ((m.withEntries s).withEntries
      ((m.withEntries s).entries.modifyAt p (Entry.modifyValue f))).entries.valueAt? p =
      some (y.modifyValue f) :=
    AvlSet.valueAt?_of_nodeAt? (Tree.nodeAt?_modifyAt hy)
  simp only [alterOrInsert, hloc, hp, hloc', hval, Entry.value_modifyValue]

/-- Editing the newest value with `id` leaves every key with its values. -/
theorem pairs_modifyAt_modifyValue_id {p : Path} {n : Nat} {y : Entry κ ν}
    (hy : m.root.nodeAt? p = some (n, y)) :
    (m.withEntries (m.entries.modifyAt p (Entry.modifyValue id))).pairs = m.pairs := by
  obtain ⟨as, bs, hb, ha⟩ := Tree.toList_modifyAt (f := Entry.modifyValue id) hy
  have hy' : (y.modifyValue id).pair = y.pair := by
    simp only [Entry.pair, Entry.key_modifyValue, Entry.values_modifyValue, id, Entry.value]
    rw [List.dropLast_append_getLast]
  simp only [pairs, toList_withEntries]
  rw [show (m.entries.modifyAt p (Entry.modifyValue id)).toList = as ++ y.modifyValue id :: bs
    from ha, show m.toList = as ++ y :: bs from hb]
  simp [hy']

/-- The values that differ from `v`, and how many are equal to it. -/
theorem dropValue_eq_filter [BEq ν] (e : Entry κ ν) (v : ν) :
    e.dropValue v = (e.values.filter (· != v), e.values.countP (· == v)) := by
  have hsplit := List.length_eq_countP_add_countP (l := e.values) (· == v)
  have hkept : (e.values.filter (· != v)).length = e.values.countP fun a => ¬(a == v) = true := by
    rw [List.countP_eq_length_filter]
    simp [bne]
  simp only [Entry.dropValue, Prod.mk.injEq, true_and]
  omega

/-- Removing a value under a stored key keeps the entry when some value is left. -/
theorem removeValue_of_locate [BEq ν] {k : κ} {v : ν} {p : Path} {n : Nat} {y : Entry κ ν}
    (hloc : m.locate k = some p) (hy : m.root.nodeAt? p = some (n, y)) (fresh : Nat) :
    m.removeValue k v fresh =
      if h : y.values.filter (· != v) = [] then
        (y.values.countP (· == v), m.withEntries (m.entries.eraseAt p fresh).2)
      else
        (y.values.countP (· == v),
          m.withEntries (m.entries.modifyAt p fun _ => ⟨y.key, y.values.filter (· != v), h⟩)) := by
  by_cases h : y.values.filter (· != v) = []
  · simp only [removeValue, hloc, AvlSet.valueAt?_of_nodeAt? (s := m.entries) hy,
      dropValue_eq_filter, Entry.ofValues?, h, dite_true]
  · simp only [removeValue, hloc, AvlSet.valueAt?_of_nodeAt? (s := m.entries) hy,
      dropValue_eq_filter, Entry.ofValues?, h, dite_false]

private theorem transCmp_entries [Std.TransCmp m.keyCmp] : Std.TransCmp m.entries.cmp :=
  inferInstanceAs (Std.TransCmp (Entry.byKey m.keyCmp))

section Valid

variable [Std.TransCmp m.keyCmp] (hv : m.Valid)
include hv

/-- The path `locate` returns leads to the entry of an equivalent key; it returns none exactly
when no key is equivalent. -/
theorem locate_spec (k : κ) :
    (∀ p, m.locate k = some p → ∃ n y, m.root.nodeAt? p = some (n, y) ∧ m.keyCmp k y.key = .eq) ∧
      (m.locate k = none ↔ ∀ e ∈ m.toList, m.keyCmp k e.key ≠ .eq) := by
  have hm : MonotoneAlong (fun e : Entry κ ν => m.keyCmp k e.key) m.root.toList :=
    List.pairwise_map.1 ((ascending_keys hv).monotoneAlong k)
  exact ⟨fun p hp => Tree.nodeAt?_of_find? hp, Tree.find?_eq_none_iff hm⟩

theorem entry_eq_find? (k : κ) : m.entry? k = m.toList.find? (m.keyCmp k ·.key == .eq) := by
  cases hloc : m.locate k with
  | none =>
    have hne := (locate_spec hv k).2.1 hloc
    rw [MultiMap.entry?, hloc, Option.bind_none, List.find?_eq_none.2 fun e he => by simpa using hne e he]
  | some p =>
    obtain ⟨n, y, hy, e⟩ := (locate_spec hv k).1 p hloc
    obtain ⟨as, bs, hb, -⟩ := Tree.toList_modifyAt (f := id) hy
    have hasc := ascending_keys hv
    rw [show m.toList = m.root.toList from rfl, hb] at hasc ⊢
    rw [MultiMap.entry?, hloc, Option.bind_some, AvlSet.valueAt?_of_nodeAt? (s := m.entries) hy,
      hasc.find?_key e]

theorem lookup_pairs (k : κ) : KeyValues.lookup m.keyCmp k m.pairs = (m.entry? k).map (·.values) := by
  rw [entry_eq_find? hv, KeyValues.lookup, pairs, List.find?_map, Option.map_map]
  rfl

theorem values?_eq_lookup (k : κ) : m.values? k = KeyValues.lookup m.keyCmp k m.pairs :=
  (lookup_pairs hv k).symm

theorem get?_eq_lookup (k : κ) :
    m.get? k = (KeyValues.lookup m.keyCmp k m.pairs).bind List.getLast? := by
  rw [lookup_pairs hv, get?]
  cases m.entry? k with
  | none => rfl
  | some e => exact (Entry.value_eq_getLast? e).symm

theorem lookup_eq (k : κ) :
    m.lookup k =
      ((KeyValues.lookup m.keyCmp k m.pairs).bind List.getLast?).elim (.error .indexOutOfRange) .ok := by
  rw [← get?_eq_lookup hv, lookup]
  cases m.get? k <;> rfl

theorem containsKey_eq_any (k : κ) : m.containsKey k = m.pairs.any (m.keyCmp k ·.1 == .eq) := by
  cases hloc : m.locate k with
  | none =>
    have hne := forall_ne_pairs ((locate_spec hv k).2.1 hloc)
    simp only [containsKey, hloc, Option.isSome_none]
    exact (List.any_eq_false.2 fun q hq => by simpa using hne q hq).symm
  | some p =>
    obtain ⟨n, y, hy, e⟩ := (locate_spec hv k).1 p hloc
    have hy' : y.pair ∈ m.pairs := List.mem_map_of_mem (Tree.mem_toList_of_nodeAt? hy)
    simp only [containsKey, hloc, Option.isSome_some]
    exact (List.any_eq_true.2 ⟨y.pair, hy', by simp [e]⟩).symm

/-- Placing an entry under a key and merging it into the entry of an equivalent key: the list
gets the new key in order, or the values of the equivalent key edited in place. -/
theorem upsert_spec (e : Entry κ ν) {merge : Entry κ ν → Entry κ ν → Entry κ ν}
    {g : List ν → List ν} (hm : ∀ e', (merge e e').pair = (e'.key, g e'.values)) (fresh : Nat) :
    (m.upsert e merge fresh).1.map (·.values) = KeyValues.lookup m.keyCmp e.key m.pairs ∧
      (m.upsert e merge fresh).2.pairs = KeyValues.upsert m.keyCmp e.key e.values g m.pairs := by
  have := transCmp_entries (m := m)
  unfold MultiMap.upsert
  cases hp : m.entries.place e fresh with
  | added slot s =>
    dsimp only
    obtain ⟨hs, hne⟩ := AvlSet.toList_place_added hv hp
    have hne' := forall_ne_pairs (m := m) hne
    refine ⟨(KeyValues.lookup_of_forall_ne hne').symm, ?_⟩
    rw [KeyValues.upsert_of_forall_ne hne', pairs, toList_withEntries, hs]
    exact List.map_orderedInsert _ _ _ _ _ (fun _ _ => Iff.rfl) (fun _ _ => Iff.rfl)
  | found slot p =>
    dsimp only
    obtain ⟨y, hy, ey⟩ := AvlSet.nodeAt?_of_place_found hp
    obtain ⟨as, bs, hb, ha⟩ := Tree.toList_modifyAt (f := merge e) hy
    have hasc := ascending_pairs_of_eq hv hb
    refine ⟨?_, ?_⟩
    · rw [AvlSet.valueAt?_of_nodeAt? hy, pairs_eq_of_eq hb, KeyValues.lookup_of_equiv hasc ey]
      rfl
    · rw [pairs_eq_of_eq hb, KeyValues.upsert_of_equiv hasc ey, pairs]
      simp [show (m.withEntries (m.entries.modifyAt p (merge e))).toList = as ++ merge e y :: bs
        from ha, hm]

theorem insert_spec (k : κ) (v : ν) (fresh : Nat) :
    (m.insert k v fresh).1 = KeyValues.lookup m.keyCmp k m.pairs ∧
      (m.insert k v fresh).2.pairs = KeyValues.upsert m.keyCmp k [v] (fun _ => [v]) m.pairs :=
  upsert_spec hv (Entry.single k v) (fun _ => rfl) fresh

theorem pairs_insertMulti (k : κ) (v : ν) (fresh : Nat) :
    (m.insertMulti k v fresh).pairs = KeyValues.upsert m.keyCmp k [v] (· ++ [v]) m.pairs :=
  (upsert_spec hv (Entry.single k v) (fun _ => rfl) fresh).2

/-- Under a missing key the entry `[d]` goes into a new node, and the key then leads to it. -/
theorem place_single_of_locate_none {k : κ} (d : ν) (hloc : m.locate k = none) (fresh : Nat) :
    ∃ slot s p n, m.entries.place (Entry.single k d) fresh = .added slot s ∧
      (m.withEntries s).locate k = some p ∧ s.root.nodeAt? p = some (n, Entry.single k d) := by
  have := transCmp_entries (m := m)
  have hne := (locate_spec hv k).2.1 hloc
  obtain ⟨slot, s, hp⟩ := AvlSet.place_added_of_forall_ne hv (x := Entry.single k d) hne fresh
  obtain ⟨hs, -⟩ := AvlSet.toList_place_added hv hp
  have hv' : (m.withEntries s).Valid := hv.place hp
  have : Std.TransCmp (m.withEntries s).keyCmp := inferInstanceAs (Std.TransCmp m.keyCmp)
  have hmem : Entry.single k d ∈ (m.withEntries s).toList := by
    rw [toList_withEntries, hs]
    exact (List.mem_orderedInsert _).2 (.inl rfl)
  have hsome : (m.withEntries s).locate k ≠ none := by
    intro hnone
    exact (locate_spec (m := m.withEntries s) hv' k).2.1 hnone _ hmem Std.ReflCmp.compare_self
  obtain ⟨p, hloc'⟩ := Option.ne_none_iff_exists'.1 hsome
  obtain ⟨n, y, hy, ey⟩ := (locate_spec (m := m.withEntries s) hv' k).1 p hloc'
  -- the entry found is the new one: no stored key is equivalent to `k`
  have hyk : y = Entry.single k d := by
    have hy' : y ∈ m.entries.toList.orderedInsert (fun a b => m.entries.cmp a b ≠ .gt)
        (Entry.single k d) := by
      rw [← hs]
      exact Tree.mem_toList_of_nodeAt? hy
    rcases (List.mem_orderedInsert _).1 hy' with rfl | hold
    · rfl
    · exact absurd ey (hne y hold)
  subst hyk
  exact ⟨slot, s, p, n, hp, hloc', hy⟩

theorem getOrInsertDefault_spec (k : κ) (d : ν) (fresh : Nat) :
    (m.alterOrInsert k d id fresh).1 =
        ((KeyValues.lookup m.keyCmp k m.pairs).bind List.getLast?).getD d ∧
      (m.alterOrInsert k d id fresh).2.pairs = KeyValues.upsert m.keyCmp k [d] id m.pairs := by
  have := transCmp_entries (m := m)
  cases hloc : m.locate k with
  | some p =>
    -- the key is stored: its newest value is read and nothing changes
    obtain ⟨n, y, hy, ey⟩ := (locate_spec hv k).1 p hloc
    obtain ⟨as, bs, hb, -⟩ := Tree.toList_modifyAt (f := id) hy
    have hasc := ascending_pairs_of_eq hv hb
    rw [alterOrInsert_of_locate hloc hy, pairs_modifyAt_modifyValue_id hy, pairs_eq_of_eq hb,
      KeyValues.lookup_of_equiv hasc ey, KeyValues.upsert_of_equiv hasc ey]
    simp [Entry.value_eq_getLast?, Entry.pair]
  | none =>
    -- the key is missing: the entry `[d]` goes in its place in the order, and is read back
    have hne := (locate_spec hv k).2.1 hloc
    obtain ⟨slot, s, p, n, hp, hloc', hy⟩ := place_single_of_locate_none hv d hloc fresh
    obtain ⟨hs, -⟩ := AvlSet.toList_place_added hv hp
    rw [alterOrInsert_of_locate_none hloc hp hloc' hy,
      pairs_modifyAt_modifyValue_id (m := m.withEntries s) hy,
      KeyValues.lookup_of_forall_ne (forall_ne_pairs hne),
      KeyValues.upsert_of_forall_ne (forall_ne_pairs hne)]
    refine ⟨rfl, ?_⟩
    rw [pairs, toList_withEntries, hs]
    exact List.map_orderedInsert _ _ _ _ _ (fun _ _ => Iff.rfl) (fun _ _ => Iff.rfl)

theorem remove_spec (k : κ) (fresh : Nat) :
    (m.remove k fresh).1 = KeyValues.lookup m.keyCmp k m.pairs ∧
      (m.remove k fresh).2.pairs = KeyValues.erase m.keyCmp k m.pairs := by
  cases hloc : m.locate k with
  | none =>
    have hne := forall_ne_pairs ((locate_spec hv k).2.1 hloc)
    simp only [remove, hloc]
    refine ⟨(KeyValues.lookup_of_forall_ne hne).symm, ?_⟩
    exact (List.eraseP_of_forall_not fun q hq => by simpa using hne q hq).symm
  | some p =>
    obtain ⟨n, y, hy, ey⟩ := (locate_spec hv k).1 p hloc
    obtain ⟨freed, t, he⟩ := Tree.eraseAt_of_nodeAt? hy
    obtain ⟨as, bs, hb, ha⟩ := Tree.toList_eraseAt he
    have hasc := ascending_pairs_of_eq hv hb
    simp only [remove, hloc, AvlSet.eraseAt_of_some (s := m.entries) he]
    refine ⟨?_, ?_⟩
    · rw [pairs_eq_of_eq hb, KeyValues.lookup_of_equiv hasc ey]
      rfl
    · rw [pairs_eq_of_eq hb, KeyValues.erase_of_equiv hasc ey, pairs, toList_withEntries]
      show t.toList.map Entry.pair = _
      rw [ha, List.map_append]

theorem removeValue_spec [BEq ν] (k : κ) (v : ν) (fresh : Nat) :
    ((m.removeValue k v fresh).1, (m.removeValue k v fresh).2.pairs) =
      KeyValues.dropValue m.keyCmp k v m.pairs := by
  cases hloc : m.locate k with
  | none =>
    have hne := forall_ne_pairs ((locate_spec hv k).2.1 hloc)
    simp only [removeValue, hloc, KeyValues.dropValue, KeyValues.lookup_of_forall_ne hne]
  | some p =>
    obtain ⟨n, y, hy, ey⟩ := (locate_spec hv k).1 p hloc
    rw [removeValue_of_locate hloc hy]
    by_cases hk : y.values.filter (· != v) = []
    · -- no value is left: the entry goes
      obtain ⟨freed, t, he⟩ := Tree.eraseAt_of_nodeAt? hy
      obtain ⟨as, bs, hb, ha⟩ := Tree.toList_eraseAt he
      have hasc := ascending_pairs_of_eq hv hb
      rw [dif_pos hk, pairs_eq_of_eq hb, KeyValues.dropValue, KeyValues.lookup_of_equiv hasc ey]
      dsimp only
      rw [Entry.pair_snd, if_pos hk, KeyValues.erase_of_equiv hasc ey,
        AvlSet.eraseAt_of_some (s := m.entries) he, pairs, toList_withEntries]
      show (_, t.toList.map Entry.pair) = _
      rw [ha, List.map_append]
    · -- the values left stay under the stored key
      obtain ⟨as, bs, hb, ha⟩ := Tree.toList_modifyAt
        (f := fun _ => (⟨y.key, y.values.filter (· != v), hk⟩ : Entry κ ν)) hy
      have hasc := ascending_pairs_of_eq hv hb
      rw [dif_neg hk, pairs_eq_of_eq hb, KeyValues.dropValue, KeyValues.lookup_of_equiv hasc ey]
      dsimp only
      rw [Entry.pair_snd, if_neg hk, KeyValues.edit_of_equiv hasc ey, pairs, toList_withEntries]
      show (_, (m.root.modifyAt _ p).toList.map Entry.pair) = _
      rw [ha]
      simp [Entry.pair]

theorem pairs_extend (ps : List (κ × ν)) (fresh : Nat) :
    (m.extend ps fresh).pairs =
      ps.foldl (fun acc kv => KeyValues.upsert m.keyCmp kv.1 [kv.2] (fun _ => [kv.2]) acc)
        m.pairs := by
  induction ps generalizing m with
  | nil => rfl
  | cons kv ps ih =>
    have : Std.TransCmp (m.insert kv.1 kv.2 fresh).2.keyCmp := by
      rw [keyCmp_insert]
      infer_instance
    have h := ih (hv.insert kv.1 kv.2 fresh)
    rw [keyCmp_insert, (insert_spec hv kv.1 kv.2 fresh).2] at h
    exact h

end Valid

theorem len_eq_length (m : MultiMap κ ν) : m.len = m.pairs.length := by
  simp [len, pairs, toList, Tree.length_toList]

theorem valueCount_eq_sum (m : MultiMap κ ν) :
    m.valueCount = (m.pairs.map fun q => q.2.length).sum := by
  simp [valueCount, pairs, Function.comp_def, ← List.sum_eq_foldr]

/-! ## The specification -/

/-- A map ordered by `keyCmp` behaves as the list `m.pairs` of its keys with their values:
the keys ascend and no list of values is empty, each operation does to the list what the
function of `KeyValues` says, and each read of the map reads the list. `alterOrInsert k d id`
reads the newest value under `k`, storing `[d]` under a missing key first. -/
structure SortedPairs [BEq ν] (keyCmp : κ → κ → Ordering) (m : MultiMap κ ν) : Prop where
  ascending : Ascending keyCmp (m.pairs.map Prod.fst)
  nonempty : ∀ q ∈ m.pairs, q.2 ≠ []
  insert : ∀ k v fresh, (m.insert k v fresh).1 = KeyValues.lookup keyCmp k m.pairs ∧
    (m.insert k v fresh).2.pairs = KeyValues.upsert keyCmp k [v] (fun _ => [v]) m.pairs
  insertMulti : ∀ k v fresh,
    (m.insertMulti k v fresh).pairs = KeyValues.upsert keyCmp k [v] (· ++ [v]) m.pairs
  getOrInsertDefault : ∀ k d fresh,
    (m.alterOrInsert k d id fresh).1 =
        ((KeyValues.lookup keyCmp k m.pairs).bind List.getLast?).getD d ∧
      (m.alterOrInsert k d id fresh).2.pairs = KeyValues.upsert keyCmp k [d] id m.pairs
  get : ∀ k, m.get? k = (KeyValues.lookup keyCmp k m.pairs).bind List.getLast?
  lookup : ∀ k, m.lookup k =
    ((KeyValues.lookup keyCmp k m.pairs).bind List.getLast?).elim (.error .indexOutOfRange) .ok
  values : ∀ k, m.values? k = KeyValues.lookup keyCmp k m.pairs
  containsKey : ∀ k, m.containsKey k = m.pairs.any (keyCmp k ·.1 == .eq)
  remove : ∀ k fresh, (m.remove k fresh).1 = KeyValues.lookup keyCmp k m.pairs ∧
    (m.remove k fresh).2.pairs = KeyValues.erase keyCmp k m.pairs
  removeValue : ∀ k v fresh,
    ((m.removeValue k v fresh).1, (m.removeValue k v fresh).2.pairs) =
      KeyValues.dropValue keyCmp k v m.pairs
  extend : ∀ ps fresh, (m.extend ps fresh).pairs =
    ps.foldl (fun acc kv => KeyValues.upsert keyCmp kv.1 [kv.2] (fun _ => [kv.2]) acc) m.pairs
  len : m.len = m.pairs.length
  valueCount : m.valueCount = (m.pairs.map fun q => q.2.length).sum

theorem Valid.sortedPairs [BEq ν] [Std.TransCmp m.keyCmp] (hv : m.Valid) :
    m.SortedPairs m.keyCmp where
  ascending := by
    rw [map_fst_pairs]
    exact ascending_keys hv
  nonempty q hq := by
    obtain ⟨e, -, rfl⟩ := List.mem_map.1 hq
    exact e.nonempty
  insert := insert_spec hv
  insertMulti := pairs_insertMulti hv
  getOrInsertDefault := getOrInsertDefault_spec hv
  get := get?_eq_lookup hv
  lookup := lookup_eq hv
  values := values?_eq_lookup hv
  containsKey := containsKey_eq_any hv
  remove := remove_spec hv
  removeValue := removeValue_spec hv
  extend := pairs_extend hv
  len := len_eq_length m
  valueCount := valueCount_eq_sum m

variable {keyCmp : κ → κ → Ordering}

/-- Every map that a run of operations builds from an empty map ordered by a total preorder
behaves as a sorted list of keys, pairwise inequivalent, each with its non-empty list of
values. -/
theorem reachable_sorted_pairs [BEq ν] [Std.TransCmp keyCmp] (h : Reachable keyCmp m) :
    m.SortedPairs keyCmp := by
  have : Std.TransCmp m.keyCmp := h.keyCmp_eq ▸ inferInstance
  exact h.keyCmp_eq ▸ h.valid.sortedPairs

theorem extend_sorted_pairs :
    Reachable compare ((MapOp.extend [((2 : Int), (20 : Int)), (1, 10), (2, 21)]).run 1
        (empty compare)) ∧
      ((MapOp.extend [((2 : Int), (20 : Int)), (1, 10), (2, 21)]).run 1
        (empty compare)).SortedPairs compare :=
  ⟨.apply 1 _ .empty, reachable_sorted_pairs (.apply 1 _ .empty)⟩

end MultiMap

end AvlCollections
