import AvlCollections.MultiMap.Basic
import AvlCollections.Proofs.Set.Stamps

/-! # What the operations of a map do to its stamp

A map keeps its entries in a set ordered by key, and every operation of the map is made of
operations of that set: a new entry is placed, an entry is edited in place or removed, the set
is cleared or copied. So the laws of `AvlSet.Evolves` and `AvlSet.Grows` carry over: a new
entry touches the stamp once, a removed entry or a dropped last value once, a clear once, and
an edit of an entry's values nothing.
-/

namespace AvlCollections

namespace MultiMap

open AvlSet

variable {κ ν : Type} {fresh : Nat}

@[simp] theorem cmp_entries (m : MultiMap κ ν) : m.entries.cmp = Entry.byKey m.keyCmp := rfl

@[simp] theorem keyCmp_withEntries (m : MultiMap κ ν) (s : AvlSet (Entry κ ν)) :
    (m.withEntries s).keyCmp = m.keyCmp := rfl

/-- The entries of a map given the tree, slots and stamp of a set. -/
@[simp] theorem stamp_entries_withEntries (m : MultiMap κ ν) (s : AvlSet (Entry κ ν)) :
    (m.withEntries s).entries.stamp = s.stamp := rfl

@[simp] theorem root_entries_withEntries (m : MultiMap κ ν) (s : AvlSet (Entry κ ν)) :
    (m.withEntries s).entries.root = s.root := rfl

/-- Editing an entry in place changes no structure. -/
theorem grows_withEntries_modifyAt (m : MultiMap κ ν) (p : Path) (f : Entry κ ν → Entry κ ν) :
    Grows fresh m.entries (m.withEntries (m.entries.modifyAt p f)).entries :=
  Grows.of_keep rfl (Tree.links_modifyAt f m.root p)

theorem grows_withEntries_place {e : Entry κ ν} {slot : Nat} {s : AvlSet (Entry κ ν)}
    (m : MultiMap κ ν) (hp : m.entries.place e fresh = .added slot s) :
    Grows fresh m.entries (m.withEntries s).entries :=
  (grows_place hp).of_eq rfl rfl

/-- Placing an entry: a new node, or an edit of the entry of an equivalent key. -/
theorem grows_upsert (m : MultiMap κ ν) (e : Entry κ ν)
    (merge : Entry κ ν → Entry κ ν → Entry κ ν) (fresh : Nat) : Grows fresh m.entries (m.upsert e merge fresh).2.entries := by
  unfold upsert
  cases hp : m.entries.place e fresh with
  | added slot s => exact grows_withEntries_place m hp
  | found slot p => exact grows_withEntries_modifyAt m p _

theorem grows_insert (m : MultiMap κ ν) (k : κ) (v : ν) (fresh : Nat) :
    Grows fresh m.entries (m.insert k v fresh).2.entries :=
  grows_upsert m _ _ fresh

theorem grows_insertMulti (m : MultiMap κ ν) (k : κ) (v : ν) (fresh : Nat) :
    Grows fresh m.entries (m.insertMulti k v fresh).entries :=
  grows_upsert m _ _ fresh

/-- Editing the newest value of an entry changes no structure. -/
theorem grows_setValueAt (m : MultiMap κ ν) (p : Path) (v : ν) :
    Grows fresh m.entries (m.setValueAt p v).entries :=
  grows_withEntries_modifyAt m p _

/-- Editing the newest value of a key, adding the key first when it is missing. -/
theorem grows_alterOrInsert (m : MultiMap κ ν) (k : κ) (d : ν) (f : ν → ν) (fresh : Nat) :
    Grows fresh m.entries (m.alterOrInsert k d f fresh).2.entries := by
  unfold alterOrInsert
  cases hloc : m.locate k with
  | some p =>
    simp only [hloc]
    split <;> exact grows_withEntries_modifyAt m p _
  | none =>
    simp only
    -- the entry is added first, then its newest value is edited in place
    cases hp : m.entries.place (Entry.single k d) fresh with
    | added slot s =>
      simp only
      split
      · next q _ =>
        split <;>
          exact (grows_withEntries_place m hp).trans (grows_withEntries_modifyAt _ q _)
      · exact grows_withEntries_place m hp
    | found slot q =>
      simp only [hloc]
      exact Grows.refl _

theorem grows_extend (m : MultiMap κ ν) (pairs : List (κ × ν)) (fresh : Nat) :
    Grows fresh m.entries (m.extend pairs fresh).entries := by
  induction pairs generalizing m with
  | nil => exact Grows.refl _
  | cons kv pairs ih => exact (grows_insert m kv.1 kv.2 fresh).trans (ih _)

theorem grows_ofList (keyCmp : κ → κ → Ordering) (pairs : List (κ × ν)) (fresh : Nat) :
    Grows fresh (empty (ν := ν) keyCmp).entries (ofList keyCmp pairs fresh).entries :=
  grows_extend _ pairs fresh

theorem evolves_remove (m : MultiMap κ ν) (k : κ) (fresh : Nat) :
    Evolves fresh false m.entries (m.remove k fresh).2.entries := by
  unfold remove
  split
  · next p _ => exact (evolves_eraseAt m.entries p fresh).of_eq rfl rfl
  · exact Evolves.of_keep rfl rfl

/-- Removing a value edits its entry, or drops the entry when no value is left. -/
theorem evolves_removeValue [BEq ν] (m : MultiMap κ ν) (k : κ) (v : ν) (fresh : Nat) :
    Evolves fresh false m.entries (m.removeValue k v fresh).2.entries := by
  unfold removeValue
  split
  · exact Evolves.of_keep rfl rfl
  · next p _ =>
    split
    · exact Evolves.of_keep rfl rfl
    · next e _ =>
      cases e.dropValue v with
      | mk kept dropped =>
        dsimp only
        split
        · exact (evolves_modifyAt m.entries p _).of_eq rfl rfl
        · exact (evolves_eraseAt m.entries p fresh).of_eq rfl rfl

theorem evolves_clear (m : MultiMap κ ν) (fresh : Nat) :
    Evolves fresh true m.entries (m.clear fresh).entries :=
  (AvlSet.evolves_clear m.entries fresh).of_eq rfl rfl

end MultiMap

end AvlCollections
