import AvlCollections.Proofs.Set.SortedList
import AvlCollections.Proofs.Session.Cursors

/-! # Valid maps

A map is valid when the set of its entries is: an `Avl` tree whose entries ascend by key, with
its slots accounted for. Every operation of a map places an entry, edits an entry in place
without touching its key, removes an entry, clears or copies, so every operation keeps a map
valid, and the maps that runs of operations build from an empty map are valid.
-/

namespace AvlCollections

variable {κ ν : Type}

namespace Entry

instance {cmp : κ → κ → Ordering} [Std.OrientedCmp cmp] : Std.OrientedCmp (byKey (ν := ν) cmp) where
  eq_swap {a b} := @Std.OrientedCmp.eq_swap _ cmp _ a.key b.key

instance {cmp : κ → κ → Ordering} [Std.TransCmp cmp] : Std.TransCmp (byKey (ν := ν) cmp) where
  isLE_trans {a b c} := @Std.TransCmp.isLE_trans _ cmp _ a.key b.key c.key

@[simp] theorem key_single (k : κ) (v : ν) : (single k v).key = k := rfl

@[simp] theorem values_single (k : κ) (v : ν) : (single k v).values = [v] := rfl

@[simp] theorem key_takeValues (other e : Entry κ ν) : (other.takeValues e).key = e.key := rfl

@[simp] theorem values_takeValues (other e : Entry κ ν) :
    (other.takeValues e).values = other.values := rfl

@[simp] theorem key_appendValues (other e : Entry κ ν) : (other.appendValues e).key = e.key := rfl

@[simp] theorem values_appendValues (other e : Entry κ ν) :
    (other.appendValues e).values = e.values ++ other.values := rfl

@[simp] theorem key_modifyValue (f : ν → ν) (e : Entry κ ν) : (e.modifyValue f).key = e.key := rfl

@[simp] theorem values_modifyValue (f : ν → ν) (e : Entry κ ν) :
    (e.modifyValue f).values = e.values.dropLast ++ [f e.value] := rfl

theorem value_eq_getLast? (e : Entry κ ν) : e.values.getLast? = some e.value := by
  rw [value, List.getLast?_eq_some_getLast e.nonempty]

@[simp] theorem value_modifyValue (f : ν → ν) (e : Entry κ ν) :
    (e.modifyValue f).value = f e.value := by
  simp [value]

/-- An edit that keeps the key keeps the entry in its place in the order. -/
theorem byKey_eq_of_key_eq {cmp : κ → κ → Ordering} [Std.ReflCmp cmp] {a b : Entry κ ν}
    (h : a.key = b.key) : byKey cmp a b = .eq := by
  rw [byKey, h]
  exact Std.ReflCmp.compare_self

end Entry

namespace MultiMap

variable {keyCmp : κ → κ → Ordering} {m : MultiMap κ ν} {fresh : Nat}

/-! ## The order stays the map's own -/

@[simp] theorem keyCmp_upsert (e : Entry κ ν) (merge : Entry κ ν → Entry κ ν → Entry κ ν)
    (fresh : Nat) : (m.upsert e merge fresh).2.keyCmp = m.keyCmp := by
  unfold MultiMap.upsert
  split <;> rfl

@[simp] theorem keyCmp_insert (k : κ) (v : ν) (fresh : Nat) :
    (m.insert k v fresh).2.keyCmp = m.keyCmp :=
  keyCmp_upsert _ _ fresh

@[simp] theorem keyCmp_insertMulti (k : κ) (v : ν) (fresh : Nat) :
    (m.insertMulti k v fresh).keyCmp = m.keyCmp :=
  keyCmp_upsert _ _ fresh

@[simp] theorem keyCmp_extend (pairs : List (κ × ν)) (fresh : Nat) :
    (m.extend pairs fresh).keyCmp = m.keyCmp := by
  induction pairs generalizing m with
  | nil => rfl
  | cons kv pairs ih => exact (ih (m := (m.insert kv.1 kv.2 fresh).2)).trans (keyCmp_insert ..)

theorem keyCmp_run [BEq ν] (op : MapOp κ ν) : (op.run fresh m).keyCmp = m.keyCmp := by
  cases op with
  | insert k v => exact keyCmp_insert k v fresh
  | insertMulti k v => exact keyCmp_insertMulti k v fresh
  | alter k d f =>
    simp only [MapOp.run, alterOrInsert]
    repeat' split
    all_goals rfl
  | setValue k v =>
    simp only [MapOp.run, setValue?]
    cases m.locate k <;> rfl
  | remove k =>
    simp only [MapOp.run, remove]
    split <;> rfl
  | removeValue k v =>
    simp only [MapOp.run, removeValue]
    repeat' split
    all_goals rfl
  | clear => rfl
  | extend pairs => exact keyCmp_extend pairs fresh

/-! ## The invariant -/

/-- The set of entries is valid. -/
def Valid (m : MultiMap κ ν) : Prop :=
  m.entries.Valid

instance [Std.TransCmp keyCmp] : Std.TransCmp (empty (ν := ν) keyCmp).entries.cmp :=
  inferInstanceAs (Std.TransCmp (Entry.byKey keyCmp))

theorem Valid.empty (keyCmp : κ → κ → Ordering) : (empty (ν := ν) keyCmp).Valid :=
  AvlSet.Valid.empty (Entry.byKey keyCmp) 0

/-- A map takes the validity of a set ordered as its entries are. -/
theorem valid_withEntries {s : AvlSet (Entry κ ν)} (hc : s.cmp = Entry.byKey m.keyCmp)
    (hs : s.Valid) : (m.withEntries s).Valid := by
  obtain ⟨avl, asc, acc⟩ := hs
  have asc' : Ascending (Entry.byKey m.keyCmp) s.root.toList := hc ▸ asc
  exact ⟨avl, asc', acc⟩

theorem Valid.place [Std.TransCmp m.keyCmp] (hv : m.Valid) {e : Entry κ ν} {slot : Nat}
    {s : AvlSet (Entry κ ν)} (hp : m.entries.place e fresh = .added slot s) :
    (m.withEntries s).Valid := by
  have : Std.TransCmp m.entries.cmp := inferInstanceAs (Std.TransCmp (Entry.byKey m.keyCmp))
  obtain ⟨t, -, -, rfl⟩ := AvlSet.place_eq_added hp
  exact valid_withEntries rfl (AvlSet.Valid.place hv hp)

/-- An edit of an entry that keeps its key keeps the map valid. -/
theorem Valid.modifyAt [Std.TransCmp m.keyCmp] (hv : m.Valid) (p : Path)
    {f : Entry κ ν → Entry κ ν} (hf : ∀ n e, m.root.nodeAt? p = some (n, e) → (f e).key = e.key) :
    (m.withEntries (m.entries.modifyAt p f)).Valid := by
  have : Std.TransCmp m.entries.cmp := inferInstanceAs (Std.TransCmp (Entry.byKey m.keyCmp))
  refine valid_withEntries rfl (AvlSet.Valid.modifyAt hv p f fun n e he => ?_)
  exact Entry.byKey_eq_of_key_eq (hf n e he)

theorem Valid.eraseAt (hv : m.Valid) (p : Path) (fresh : Nat) :
    (m.withEntries (m.entries.eraseAt p fresh).2).Valid :=
  valid_withEntries (AvlSet.cmp_eraseAt _ p fresh) (AvlSet.Valid.eraseAt hv p fresh)

theorem Valid.upsert [Std.TransCmp m.keyCmp] (hv : m.Valid) (e : Entry κ ν)
    {merge : Entry κ ν → Entry κ ν → Entry κ ν} (hm : ∀ e', (merge e e').key = e'.key)
    (fresh : Nat) : (m.upsert e merge fresh).2.Valid := by
  unfold MultiMap.upsert
  cases hp : m.entries.place e fresh with
  | added slot s => exact hv.place hp
  | found slot p => exact hv.modifyAt p fun _ e' _ => hm e'

theorem Valid.alterOrInsert [Std.TransCmp m.keyCmp] (hv : m.Valid) (k : κ) (d : ν)
    (f : ν → ν) (fresh : Nat) : (m.alterOrInsert k d f fresh).2.Valid := by
  -- the newest value of an entry is edited in a map that keeps the order of `m`
  have hedit : ∀ m' : MultiMap κ ν, m'.keyCmp = m.keyCmp → m'.Valid → ∀ p,
      (m'.withEntries (m'.entries.modifyAt p (Entry.modifyValue f))).Valid := by
    intro m' hk hv' p
    have : Std.TransCmp m'.keyCmp := hk ▸ inferInstance
    exact hv'.modifyAt p fun _ e _ => Entry.key_modifyValue f e
  unfold MultiMap.alterOrInsert
  -- the entry is added first when it is missing, and then its newest value is edited
  split
  · dsimp only
    split
    · split <;> exact hedit m rfl hv _
    · exact hv
  · split
    · next slot s hp =>
      dsimp only
      split
      · split <;> exact hedit (m.withEntries s) rfl (hv.place hp) _
      · exact hv.place hp
    · dsimp only
      split
      · split <;> exact hedit m rfl hv _
      · exact hv

theorem Valid.insert [Std.TransCmp m.keyCmp] (hv : m.Valid) (k : κ) (v : ν) (fresh : Nat) :
    (m.insert k v fresh).2.Valid :=
  hv.upsert _ (Entry.key_takeValues _) fresh

theorem Valid.insertMulti [Std.TransCmp m.keyCmp] (hv : m.Valid) (k : κ) (v : ν)
    (fresh : Nat) : (m.insertMulti k v fresh).Valid :=
  hv.upsert _ (Entry.key_appendValues _) fresh

theorem Valid.setValue? [Std.TransCmp m.keyCmp] (hv : m.Valid) (k : κ) (v : ν) :
    ((m.setValue? k v).getD m).Valid := by
  unfold MultiMap.setValue?
  cases m.locate k with
  | none => exact hv
  | some p => exact hv.modifyAt p fun _ e _ => Entry.key_modifyValue _ e

theorem Valid.remove (hv : m.Valid) (k : κ) (fresh : Nat) : (m.remove k fresh).2.Valid := by
  unfold MultiMap.remove
  split
  · next p _ => exact hv.eraseAt p fresh
  · exact hv

theorem Valid.removeValue [BEq ν] [Std.TransCmp m.keyCmp] (hv : m.Valid) (k : κ) (v : ν)
    (fresh : Nat) : (m.removeValue k v fresh).2.Valid := by
  unfold MultiMap.removeValue
  split
  · exact hv
  · next p _ =>
    split
    · exact hv
    · next e he =>
      dsimp only
      split
      · -- the values left keep the entry, under its own key
        next e' he' =>
        refine hv.modifyAt p fun n x hx => ?_
        have hxe : x = e := by
          rw [AvlSet.valueAt?_of_nodeAt? (s := m.entries) hx] at he
          exact Option.some.inj he
        unfold Entry.ofValues? at he'
        split at he' <;> cases he'
        rw [hxe]
      · exact hv.eraseAt p fresh

theorem Valid.clear (m : MultiMap κ ν) (fresh : Nat) : (m.clear fresh).Valid :=
  valid_withEntries rfl (AvlSet.Valid.clear fresh)

theorem Valid.copy (hv : m.Valid) (fresh : Nat) : (m.copy fresh).Valid :=
  valid_withEntries rfl (AvlSet.Valid.copy hv fresh)

theorem Valid.extend [Std.TransCmp m.keyCmp] (hv : m.Valid) (pairs : List (κ × ν))
    (fresh : Nat) : (m.extend pairs fresh).Valid := by
  induction pairs generalizing m with
  | nil => exact hv
  | cons kv pairs ih =>
    have : Std.TransCmp (m.insert kv.1 kv.2 fresh).2.keyCmp := by
      rw [keyCmp_insert]; infer_instance
    exact ih (hv.insert kv.1 kv.2 fresh)

theorem Valid.run [BEq ν] [Std.TransCmp m.keyCmp] (hv : m.Valid) (fresh : Nat)
    (op : MapOp κ ν) : (op.run fresh m).Valid := by
  cases op with
  | insert k v => exact hv.insert k v fresh
  | insertMulti k v => exact hv.insertMulti k v fresh
  | alter k d f => exact hv.alterOrInsert k d f fresh
  | setValue k v => exact hv.setValue? k v
  | remove k => exact hv.remove k fresh
  | removeValue k v => exact hv.removeValue k v fresh
  | clear => exact Valid.clear m fresh
  | extend pairs => exact hv.extend pairs fresh

/-! ## Reachable maps -/

/-- The maps that runs of operations build from an empty map ordered by `keyCmp`, copies
included. -/
inductive Reachable [BEq ν] (keyCmp : κ → κ → Ordering) : MultiMap κ ν → Prop where
  | empty : Reachable keyCmp (MultiMap.empty keyCmp)
  | apply {m : MultiMap κ ν} (fresh : Nat) (op : MapOp κ ν) :
      Reachable keyCmp m → Reachable keyCmp (op.run fresh m)
  | copy {m : MultiMap κ ν} (fresh : Nat) : Reachable keyCmp m → Reachable keyCmp (m.copy fresh)

variable [BEq ν]

theorem Reachable.keyCmp_eq (h : Reachable keyCmp m) : m.keyCmp = keyCmp := by
  induction h with
  | empty => rfl
  | apply fresh op _ ih => rw [keyCmp_run, ih]
  | copy fresh _ ih => exact ih

theorem Reachable.valid [Std.TransCmp keyCmp] (h : Reachable keyCmp m) : m.Valid := by
  induction h with
  | empty => exact Valid.empty keyCmp
  | @apply m fresh op hm ih =>
    have : Std.TransCmp m.keyCmp := hm.keyCmp_eq ▸ inferInstance
    exact ih.run fresh op
  | copy fresh _ ih => exact ih.copy fresh

end MultiMap

end AvlCollections
