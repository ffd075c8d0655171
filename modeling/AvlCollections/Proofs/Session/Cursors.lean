import AvlCollections.Proofs.Session.World
import AvlCollections.Proofs.MultiMap.Stamps

/-! # Cursor checks in a session of sets and maps

A session keeps sets and maps side by side, and draws every identity from one counter. The
operations a session applies to a set are its additions under either policy, its removals (by
element, by probe, at a cursor), a clear, an extension and a change of policy; it makes sets
empty or collected from a list. A map is kept through the set of its entries, with its own
operations. Each operation obeys `AvlSet.Evolves`, so both kinds of collection are kept by a
`Keeper`, and one session holding both by their sum: its cursor checks are sound.
-/

namespace AvlCollections

variable {α κ ν : Type}

/-- An operation that a session applies to a set. -/
inductive SetOp (α : Type) where
  | add (x : α)
  | remove (x : α)
  | removeBy (probe : α → Ordering)
  | removeAt (c : Cursor)
  | clear
  | extend (xs : List α)
  | setPolicy (policy : Policy)

/-- How a session makes a set. -/
inductive SetMake (α : Type) where
  | new (cmp : α → α → Ordering) (policy : Policy) (capacity : Nat)
  | collect (cmp : α → α → Ordering) (xs : List α)

namespace SetOp

def run (fresh : Nat) (s : AvlSet α) : SetOp α → AvlSet α
  | add x => (s.add x fresh).2
  | remove x => (s.remove x fresh).2
  | removeBy probe => (s.removeBy probe fresh).2
  | removeAt c => (s.removeAt c fresh).2
  | clear => s.clear fresh
  | extend xs => s.extend xs fresh
  | setPolicy policy => s.withPolicy policy

def clears : SetOp α → Bool
  | clear => true
  | _ => false

theorem evolves_run (fresh : Nat) (s : AvlSet α) (op : SetOp α) :
    AvlSet.Evolves fresh op.clears s (op.run fresh s) := by
  cases op with
  | add x => exact (AvlSet.grows_add s x fresh).evolves
  | remove x => exact AvlSet.evolves_removeBy s (s.cmp x) fresh
  | removeBy probe => exact AvlSet.evolves_removeBy s probe fresh
  | removeAt c => exact AvlSet.evolves_removeAt s c fresh
  | clear => exact AvlSet.evolves_clear s fresh
  | extend xs => exact (AvlSet.grows_extend s xs fresh).evolves
  | setPolicy policy => exact AvlSet.evolves_withPolicy s policy

end SetOp

def SetMake.run (fresh : Nat) : SetMake α → AvlSet α
  | new cmp policy capacity => (AvlSet.empty cmp capacity).withPolicy policy
  | collect cmp xs => AvlSet.ofList cmp xs fresh

/-- An operation that a session applies to a map. -/
inductive MapOp (κ ν : Type) where
  | insert (k : κ) (v : ν)
  | insertMulti (k : κ) (v : ν)
  | alter (k : κ) (d : ν) (f : ν → ν)
  | setValue (k : κ) (v : ν)
  | remove (k : κ)
  | removeValue (k : κ) (v : ν)
  | clear
  | extend (pairs : List (κ × ν))

/-- How a session makes a map. -/
inductive MapMake (κ ν : Type) where
  | new (keyCmp : κ → κ → Ordering)
  | collect (keyCmp : κ → κ → Ordering) (pairs : List (κ × ν))

namespace MapOp

def run [BEq ν] (fresh : Nat) (m : MultiMap κ ν) : MapOp κ ν → MultiMap κ ν
  | insert k v => (m.insert k v fresh).2
  | insertMulti k v => m.insertMulti k v fresh
  | alter k d f => (m.alterOrInsert k d f fresh).2
  | setValue k v => (m.setValue? k v).getD m
  | remove k => (m.remove k fresh).2
  | removeValue k v => (m.removeValue k v fresh).2
  | clear => m.clear fresh
  | extend pairs => m.extend pairs fresh

def clears : MapOp κ ν → Bool
  | clear => true
  | _ => false

theorem evolves_run [BEq ν] (fresh : Nat) (m : MultiMap κ ν) (op : MapOp κ ν) :
    AvlSet.Evolves fresh op.clears m.entries (op.run fresh m).entries := by
  cases op with
  | insert k v => exact (MultiMap.grows_insert m k v fresh).evolves
  | insertMulti k v => exact (MultiMap.grows_insertMulti m k v fresh).evolves
  | alter k d f => exact (MultiMap.grows_alterOrInsert m k d f fresh).evolves
  | setValue k v =>
    simp only [run, MultiMap.setValue?]
    cases m.locate k with
    | some p => exact (MultiMap.grows_setValueAt m p v).evolves
    | none => exact AvlSet.Evolves.of_keep rfl rfl
  | remove k => exact MultiMap.evolves_remove m k fresh
  | removeValue k v => exact MultiMap.evolves_removeValue m k v fresh
  | clear => exact MultiMap.evolves_clear m fresh
  | extend pairs => exact (MultiMap.grows_extend m pairs fresh).evolves

end MapOp

def MapMake.run (fresh : Nat) : MapMake κ ν → MultiMap κ ν
  | new keyCmp => MultiMap.empty keyCmp
  | collect keyCmp pairs => MultiMap.ofList keyCmp pairs fresh

namespace Keeper

/-- The sets of a session, seen as themselves. -/
def sets (α : Type) : Keeper (AvlSet α) α (SetOp α) (SetMake α) where
  view := id
  copy := AvlSet.copy
  make fresh m := m.run fresh
  apply fresh s op := op.run fresh s
  clears _ op := op.clears
  view_copy _ _ := ⟨rfl, rfl⟩
  view_make fresh m := by
    cases m with
    | new cmp policy capacity => exact ⟨0, rfl, fun _ => rfl⟩
    | collect cmp xs =>
      obtain ⟨k, hs, -, hl⟩ := AvlSet.grows_ofList cmp xs fresh
      exact ⟨k, hs, fun hk => Tree.links_eq_nil_iff.1 (hl hk)⟩
  view_apply fresh s op := op.evolves_run fresh s

/-- The maps of a session, seen through the sets of their entries. -/
def maps (κ ν : Type) [BEq ν] : Keeper (MultiMap κ ν) (Entry κ ν) (MapOp κ ν) (MapMake κ ν) where
  view := MultiMap.entries
  copy := MultiMap.copy
  make fresh m := m.run fresh
  apply fresh m op := op.run fresh m
  clears _ op := op.clears
  view_copy _ _ := ⟨rfl, rfl⟩
  view_make fresh m := by
    cases m with
    | new keyCmp => exact ⟨0, rfl, fun _ => rfl⟩
    | collect keyCmp pairs =>
      obtain ⟨k, hs, -, hl⟩ := MultiMap.grows_ofList keyCmp pairs fresh
      exact ⟨k, hs, fun hk => Tree.links_eq_nil_iff.1 (hl hk)⟩
  view_apply fresh m op := op.evolves_run fresh m

/-- In a session of sets and maps, a collection checks a cursor with its own `locate`. -/
theorem locate_view_sum [BEq ν] (x : AvlSet α ⊕ MultiMap κ ν) (c : Cursor) :
    (((sets α).sum (maps κ ν)).view x).locate c =
      Sum.elim (fun s => s.locate c) (fun m => m.entries.locate c) x := by
  cases x <;> exact AvlSet.locate_frame _ c

end Keeper

namespace AvlSet

variable {s : AvlSet α}

/-- The cursors a set hands out, at an end, at an element, or by moving a cursor it accepts:
each carries the set's stamp and stands on one of its nodes or on a sentinel. -/
structure HandsOut (s : AvlSet α) : Prop where
  first : s.Issues s.first
  last : s.Issues s.last
  pastEnd : s.Issues s.pastEnd
  preBegin : s.Issues s.preBegin
  top : ∀ {c}, s.top? = some c → s.Issues c
  search : ∀ {x c}, s.search x = some c → s.Issues c
  add : ∀ {x fresh c}, (s.add x fresh).1 = .ok c → (s.add x fresh).2.Issues c
  next : ∀ {c c'}, c.stamp.Sound → s.next c = .ok c' → s.Issues c'
  prev : ∀ {c c'}, c.stamp.Sound → s.prev c = .ok c' → s.Issues c'
  follow : ∀ {c c' l moved}, c.stamp.Sound → s.follow c l = .ok (moved, c') → s.Issues c'

theorem handsOut (hs : s.stamp.Sound) : s.HandsOut where
  first := issues_first s
  last := issues_last s
  pastEnd := issues_pastEnd s
  preBegin := issues_preBegin s
  top := issues_top
  search := issues_search
  add := issues_add
  next hc := issues_next hc hs
  prev hc := issues_prev hc hs
  follow hc := issues_follow hc hs

end AvlSet

end AvlCollections
