import AvlCollections.Proofs.SlotStore
import AvlCollections.Proofs.MultiMap.Valid

/-! # How a set uses its slot storage

A set's slot storage is its pool together with the element of the node in each slot. Every
operation that changes it acts on it as a short run of allowed requests to a slot store:
placing a new element stores it in the slot handed out next; removing the node at a path
overwrites that node's slot with the element of the node that goes, then takes that node's
slot (they are the same slot when the node at the path has at most one child, and otherwise the
node that goes is its in-order successor); editing overwrites the edited slot; clearing clears.
So everything proved of runs of requests holds of the storage of every set and map.
-/

namespace AvlCollections

variable {α : Type}

/-! ## Looking up a slot among distinct slots -/

theorem lookup_cons_of_ne {k n : Nat} (v : α) (l : List (Nat × α)) (hn : n ≠ k) :
    ((k, v) :: l).lookup n = l.lookup n := by
  simp [List.lookup_cons, beq_eq_false_iff_ne.2 hn]

/-- With distinct slots, the element of a slot does not depend on the order of the pairs. -/
theorem lookup_eq_of_perm {l₁ l₂ : List (Nat × α)} (h : l₁.Perm l₂)
    (hnd : (l₁.map Prod.fst).Nodup) (n : Nat) : l₁.lookup n = l₂.lookup n := by
  induction h with
  | nil => rfl
  | cons e _ ih =>
    obtain ⟨k, v⟩ := e
    simp only [List.map_cons, List.nodup_cons] at hnd
    simp only [List.lookup_cons, ih hnd.2]
  | swap e₁ e₂ l =>
    -- the two swapped pairs have different slots, so at most one of them answers
    obtain ⟨k₁, v₁⟩ := e₁
    obtain ⟨k₂, v₂⟩ := e₂
    simp only [List.map_cons, List.nodup_cons, List.mem_cons, not_or] at hnd
    by_cases h₁ : n = k₁
    · subst h₁
      simp only [lookup_cons_of_ne _ _ (Ne.symm hnd.1.1), List.lookup_cons_self]
    · by_cases h₂ : n = k₂
      · subst h₂
        simp only [lookup_cons_of_ne _ _ h₁, List.lookup_cons_self]
      · simp only [lookup_cons_of_ne _ _ h₁, lookup_cons_of_ne _ _ h₂]
  | trans h₁₂ _ ih₁ ih₂ => rw [ih₁ hnd, ih₂ ((h₁₂.map Prod.fst).nodup_iff.1 hnd)]

theorem lookup_eq_none {l : List (Nat × α)} {n : Nat} (h : n ∉ l.map Prod.fst) :
    l.lookup n = none :=
  List.lookup_eq_none_iff.2 fun e he => by
    have hne : n ≠ e.1 := fun hn => h (hn ▸ List.mem_map_of_mem he)
    simpa using hne

theorem isSome_lookup_iff {l : List (Nat × α)} {n : Nat} :
    (l.lookup n).isSome ↔ n ∈ l.map Prod.fst := by
  rw [List.lookup_isSome_iff, List.mem_map]
  constructor
  · rintro ⟨e, he, hn⟩
    exact ⟨e, he, (beq_iff_eq.1 hn).symm⟩
  · rintro ⟨e, he, rfl⟩
    exact ⟨e, he, beq_self_eq_true _⟩

/-- Looking up in a list with a pair in front answers that pair's element for its slot. -/
theorem lookup_cons_eq_update (k : Nat) (v : α) (l : List (Nat × α)) :
    (fun n => ((k, v) :: l).lookup n) = Function.update (fun n => l.lookup n) k (some v) := by
  funext n
  by_cases hn : n = k
  · subst hn
    simp
  · simp [lookup_cons_of_ne _ _ hn, hn]

/-- A pair in the right part of a node's list comes to the front past the node's own pair. -/
theorem perm_append_cons_of_perm {β : Type} {l m m' : List β} {a b : β} (h : m.Perm (b :: m')) :
    (l ++ a :: m).Perm (b :: (l ++ a :: m')) := by
  have hmid : ((l ++ [a]) ++ b :: m').Perm (b :: ((l ++ [a]) ++ m')) := List.perm_middle
  simp only [List.append_assoc, List.cons_append, List.nil_append] at hmid
  exact ((h.cons a).append_left l).trans hmid

/-! ## What the tree operations do to the slots and their elements -/

namespace Tree

variable {cmp : α → α → Ordering}

/-- Insertion adds one node, for the new element in the given slot, and keeps every other. -/
theorem perm_nodes_insert {t t' : Tree α} {x : α} {slot : Nat}
    (ins : t.insert cmp x slot = .added t') : t'.nodes.Perm ((slot, x) :: t.nodes) := by
  induction t generalizing t' with
  | nil =>
    cases ins
    simp [leaf]
  | node l s v h r ihl ihr =>
    rcases insert_eq_added ins with ⟨-, l', hl, rfl⟩ | ⟨-, r', hr, rfl⟩
    · simp only [nodes_balance, nodes_node]
      exact (ihl hl).append_right _
    · simp only [nodes_balance, nodes_node]
      exact perm_append_cons_of_perm (ihr hr)

/-- A removal at `p` either takes the node there with its slot, or, when that node has two
children, moves the element of its in-order successor into it and takes the successor's
node. -/
theorem nodes_eraseAt {t t' : Tree α} {p : Path} {x : α} {freed : Nat}
    (h : t.eraseAt p = some (x, freed, t')) :
    ∃ k, t.nodeAt? p = some (k, x) ∧
      ((freed = k ∧ t.nodes.Perm ((k, x) :: t'.nodes)) ∨
        ∃ y rest, t.nodes.Perm ((k, x) :: (freed, y) :: rest) ∧
          t'.nodes.Perm ((k, y) :: rest)) := by
  induction t generalizing p t' with
  | nil => simp [eraseAt] at h
  | node l s v hh r ihl ihr =>
    rcases eraseAt_node_eq h with ⟨rfl, rfl, htop⟩ | ⟨q, l', rfl, hl, rfl⟩ | ⟨q, r', rfl, hr, rfl⟩
    · refine ⟨s, rfl, ?_⟩
      rcases eraseTop_eq htop with ⟨rfl, rfl, rfl⟩ | ⟨rfl, rfl, rfl⟩ |
        ⟨rl, rs, rv, rh, rr, mv, r', rfl, hm, rfl⟩
      · exact .inl ⟨rfl, by simp⟩
      · exact .inl ⟨rfl, by simp⟩
      · -- the successor's element moves up into the top, and the successor's node goes
        have hn := nodes_eraseMin hm
        refine .inr ⟨mv, l.nodes ++ r'.nodes, ?_, by simp⟩
        rw [nodes_node, nodes_node, ← hn]
        exact List.perm_middle.trans (List.perm_middle.cons _)
    · obtain ⟨k, hat, hcase⟩ := ihl hl
      refine ⟨k, hat, ?_⟩
      rcases hcase with ⟨rfl, hp⟩ | ⟨y, rest, hp, hp'⟩
      · exact .inl ⟨rfl, by simpa using hp.append_right ((s, v) :: r.nodes)⟩
      · exact .inr ⟨y, rest ++ (s, v) :: r.nodes, by simpa using hp.append_right ((s, v) :: r.nodes),
          by simpa using hp'.append_right ((s, v) :: r.nodes)⟩
    · obtain ⟨k, hat, hcase⟩ := ihr hr
      refine ⟨k, hat, ?_⟩
      rcases hcase with ⟨rfl, hp⟩ | ⟨y, rest, hp, hp'⟩
      · exact .inl ⟨rfl, by simpa using perm_append_cons_of_perm hp⟩
      · refine .inr ⟨y, l.nodes ++ (s, v) :: rest, ?_, by simpa using perm_append_cons_of_perm hp'⟩
        simp only [nodes_node]
        exact (perm_append_cons_of_perm hp).trans
          ((perm_append_cons_of_perm (List.Perm.refl _)).cons _)

/-- Editing the element at a node changes that node's element and no other pair. -/
theorem nodes_modifyAt {f : α → α} {t : Tree α} {p : Path} {n : Nat} {v : α}
    (h : t.nodeAt? p = some (n, v)) :
    ∃ as bs, t.nodes = as ++ (n, v) :: bs ∧ (t.modifyAt f p).nodes = as ++ (n, f v) :: bs := by
  induction t generalizing p with
  | nil => simp at h
  | node l s v' hh r ihl ihr =>
    match p, h with
    | [], h =>
      simp only [nodeAt?_node_nil, Option.some.injEq, Prod.mk.injEq] at h
      obtain ⟨rfl, rfl⟩ := h
      exact ⟨l.nodes, r.nodes, rfl, rfl⟩
    | .left :: q, h =>
      obtain ⟨as, bs, hb, ha⟩ := ihl h
      exact ⟨as, bs ++ (s, v') :: r.nodes, by simp [hb], by simp [modifyAt, ha]⟩
    | .right :: q, h =>
      obtain ⟨as, bs, hb, ha⟩ := ihr h
      exact ⟨l.nodes ++ (s, v') :: as, bs, by simp [hb], by simp [modifyAt, ha]⟩

end Tree

/-! ## The storage of a set -/

namespace AvlSet

/-- The slot storage of a set: its pool, and the element of the node in each slot. -/
def store (s : AvlSet α) : SlotStore α :=
  ⟨s.pool, fun n => s.root.nodes.lookup n⟩

section Accounts

variable {s : AvlSet α} (h : s.pool.Accounts s.root.slots)
include h

theorem nodup_slots_nodes : (s.root.nodes.map Prod.fst).Nodup := by
  rw [← Tree.slots_eq_map_nodes]
  exact h.nodup

theorem holds_store : s.store.Holds s.root.slots :=
  ⟨h, fun n => by rw [Tree.slots_eq_map_nodes]; exact isSome_lookup_iff⟩

/-- Placing a new element stores it in the slot handed out next. -/
theorem store_place {x : α} {fresh slot : Nat} {s' : AvlSet α}
    (hp : s.place x fresh = .added slot s') :
    slot = s.pool.next ∧ s'.store = s.store.run [.alloc x] := by
  obtain ⟨t, ins, rfl, rfl⟩ := place_eq_added hp
  refine ⟨rfl, ?_⟩
  -- the slot handed out was not live, so the slots stay distinct
  have hnd : (((s.pool.next, x) :: s.root.nodes).map Prod.fst).Nodup := by
    simpa [← Tree.slots_eq_map_nodes] using And.intro h.next_not_mem h.nodup
  have hlook : (fun n => t.nodes.lookup n) = fun n => ((s.pool.next, x) :: s.root.nodes).lookup n :=
    funext fun n => (lookup_eq_of_perm (Tree.perm_nodes_insert ins).symm hnd n).symm
  simp only [store, SlotStore.run_cons, SlotStore.run_nil, SlotStore.Op.apply, SlotStore.alloc,
    hlook, lookup_cons_eq_update]

/-- Removing the node at a path overwrites its slot with the element of the node that goes
and takes that node's slot. -/
theorem store_eraseAt {p : Path} {x : α} {freed : Nat} {t : Tree α}
    (he : s.root.eraseAt p = some (x, freed, t)) (fresh : Nat) :
    ∃ k y, s.root.nodeAt? p = some (k, x) ∧ s.store.Allowed [.write k y, .take freed] ∧
      (s.eraseAt p fresh).2.store = s.store.run [.write k y, .take freed] := by
  obtain ⟨k, hat, hcase⟩ := Tree.nodes_eraseAt he
  have hnd := nodup_slots_nodes h
  rw [eraseAt_of_some he]
  rcases hcase with ⟨rfl, hp⟩ | ⟨y, rest, hp, hp'⟩
  · -- the node at the path goes, with its own slot
    have hnd' := (hp.map Prod.fst).nodup_iff.1 hnd
    simp only [List.map_cons, List.nodup_cons] at hnd'
    have hs : (fun n => s.root.nodes.lookup n) = fun n => ((freed, x) :: t.nodes).lookup n :=
      funext (lookup_eq_of_perm hp hnd)
    have hgone : t.nodes.lookup freed = none := lookup_eq_none hnd'.1
    refine ⟨freed, x, hat, ?_, ?_⟩
    · simp [store, SlotStore.Op.Allowed, SlotStore.Op.apply, SlotStore.write, hs,
        lookup_cons_eq_update]
    · simp only [store, SlotStore.run_cons, SlotStore.run_nil, SlotStore.Op.apply,
        SlotStore.write, SlotStore.take, hs, lookup_cons_eq_update, Function.update_idem,
        SlotStore.mk.injEq, true_and]
      rw [← hgone, Function.update_eq_self]
  · -- the successor's element moves into the node at the path, and the successor goes
    have hnd' := (hp.map Prod.fst).nodup_iff.1 hnd
    simp only [List.map_cons, List.nodup_cons, List.mem_cons, not_or] at hnd'
    obtain ⟨⟨hkf, hkr⟩, hfr, hrest⟩ := hnd'
    have hs : (fun n => s.root.nodes.lookup n) =
        fun n => ((k, x) :: (freed, y) :: rest).lookup n :=
      funext (lookup_eq_of_perm hp hnd)
    have hnd'' : (((k, y) :: rest).map Prod.fst).Nodup := List.nodup_cons.2 ⟨hkr, hrest⟩
    have ht : (fun n => t.nodes.lookup n) = fun n => ((k, y) :: rest).lookup n :=
      funext fun n => (lookup_eq_of_perm hp'.symm hnd'' n).symm
    refine ⟨k, y, hat, ?_, ?_⟩
    · simp [store, SlotStore.Op.Allowed, SlotStore.Op.apply, SlotStore.write, hs,
        lookup_cons_eq_update, Ne.symm hkf]
    · simp only [store, SlotStore.run_cons, SlotStore.run_nil, SlotStore.Op.apply,
        SlotStore.write, SlotStore.take, SlotStore.mk.injEq, true_and, hs, ht,
        lookup_cons_eq_update]
      funext n
      by_cases hn : n = freed
      · subst hn
        simp [Ne.symm hkf, lookup_eq_none hfr]
      · simp [Function.update_apply, hn]

/-- Editing the element at a path overwrites the slot of the node there. -/
theorem store_modifyAt {p : Path} {f : α → α} {k : Nat} {v : α}
    (hat : s.root.nodeAt? p = some (k, v)) :
    s.store.Allowed [.write k (f v)] ∧ (s.modifyAt p f).store = s.store.run [.write k (f v)] := by
  obtain ⟨as, bs, hb, ha⟩ := Tree.nodes_modifyAt (f := f) hat
  have hnd := nodup_slots_nodes h
  have hfront : s.root.nodes.Perm ((k, v) :: (as ++ bs)) := hb ▸ List.perm_middle
  have hs : (fun n => s.root.nodes.lookup n) = fun n => ((k, v) :: (as ++ bs)).lookup n :=
    funext (lookup_eq_of_perm hfront hnd)
  have hm : (fun n => (s.modifyAt p f).root.nodes.lookup n) =
      fun n => ((k, f v) :: (as ++ bs)).lookup n := by
    funext n
    show (s.root.modifyAt f p).nodes.lookup n = _
    rw [ha]
    exact lookup_eq_of_perm List.perm_middle (by simpa [hb] using hnd) n
  refine ⟨?_, ?_⟩
  · simp [store, SlotStore.Op.Allowed, SlotStore.Op.apply, SlotStore.write, hs,
      lookup_cons_eq_update]
  · simp only [store, SlotStore.run_cons, SlotStore.run_nil, SlotStore.Op.apply, SlotStore.write,
      hm, hs, lookup_cons_eq_update, Function.update_idem]
    rfl

end Accounts

theorem store_clear (s : AvlSet α) (fresh : Nat) : (s.clear fresh).store = s.store.run [.clear] :=
  rfl

/-- How a set uses its slot storage: the pool accounts for exactly the slots that hold an
element, and each operation that changes the storage is a run of allowed requests to it. -/
structure UsesStore (s : AvlSet α) : Prop where
  holds : s.store.Holds s.root.slots
  place : ∀ x fresh slot s', s.place x fresh = .added slot s' →
    slot = s.pool.next ∧ s'.store = s.store.run [.alloc x]
  erase : ∀ p x freed t fresh, s.root.eraseAt p = some (x, freed, t) → ∃ k y,
    s.root.nodeAt? p = some (k, x) ∧ s.store.Allowed [.write k y, .take freed] ∧
    (s.eraseAt p fresh).2.store = s.store.run [.write k y, .take freed]
  edit : ∀ p f k v, s.root.nodeAt? p = some (k, v) →
    s.store.Allowed [.write k (f v)] ∧ (s.modifyAt p f).store = s.store.run [.write k (f v)]
  clear : ∀ fresh, (s.clear fresh).store = s.store.run [.clear]

theorem usesStore_of_accounts {s : AvlSet α} (h : s.pool.Accounts s.root.slots) : s.UsesStore where
  holds := holds_store h
  place _ _ _ _ hp := store_place h hp
  erase _ _ _ _ fresh he := store_eraseAt h he fresh
  edit _ _ _ _ hat := store_modifyAt h hat
  clear := store_clear s

end AvlSet

variable {κ ν : Type}

/-- Under every sequence of allowed requests from an empty store, and after every part of it,
the store is sound, its count is the largest number of slots in use at once since the last
clear, it keeps its capacity while it never holds more elements than that, and a slot that no
later request names keeps its element; and every set and every map that the operations build
uses its storage by such requests. -/
theorem slot_storage [BEq ν] :
    (∀ (capacity : Nat) (ops₁ ops₂ : List (SlotStore.Op α)),
      (SlotStore.empty capacity : SlotStore α).Allowed (ops₁ ++ ops₂) →
        ((SlotStore.empty capacity : SlotStore α).run ops₁).Keeps ops₂) ∧
    (∀ (cmp : α → α → Ordering) [Std.TransCmp cmp] (s : AvlSet α),
      AvlSet.Reachable cmp s → s.UsesStore) ∧
    (∀ (keyCmp : κ → κ → Ordering) [Std.TransCmp keyCmp] (m : MultiMap κ ν),
      MultiMap.Reachable keyCmp m → m.entries.UsesStore) :=
  ⟨fun _ _ _ hal => SlotStore.keeps_of_allowed hal,
    fun _ _ _ hs => AvlSet.usesStore_of_accounts hs.valid.accounts,
    fun _ _ _ hm => AvlSet.usesStore_of_accounts hm.valid.accounts⟩

theorem slot_storage_reuse :
    (SlotStore.empty 2 : SlotStore Int).Allowed ([.alloc 5, .alloc 7] ++ [.take 0, .alloc 9]) ∧
      ((SlotStore.empty 2 : SlotStore Int).run [.alloc 5, .alloc 7]).Keeps [.take 0, .alloc 9] ∧
      (AvlSet.ofList (compare : Int → Int → Ordering) [2, 1, 3] 1).UsesStore ∧
      ((MapOp.extend [((2 : Int), (20 : Int)), (1, 10)]).run 1
        (MultiMap.empty compare)).entries.UsesStore :=
  ⟨by decide, (slot_storage (α := Int) (κ := Int) (ν := Int)).1 2 _ _ (by decide),
    (slot_storage (α := Int) (κ := Int) (ν := Int)).2.1 compare _ (AvlSet.Reachable.ofList _ _ _),
    (slot_storage (α := Int) (κ := Int) (ν := Int)).2.2 compare _ (.apply 1 _ .empty)⟩

end AvlCollections
