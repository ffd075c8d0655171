import AvlCollections.Proofs.SlotPool
import Mathlib.Logic.Function.Basic

/-! # Slot storage under any sequence of requests

The slots of a set, seen whole, form a store: the pool, and the element that each slot holds.
Four requests change it: storing an element in the slot that the pool hands out next, taking
the element out of a slot and freeing the slot, overwriting the element of a slot, and
clearing. Taking and overwriting must name a slot that holds an element.

Under every sequence of such requests the freed slots are distinct, lie below the count, and
are exactly the empty slots below it; the pool's count of slots in use is the number of slots
that hold an element; a new element only ever goes into an empty slot, so a slot that no
request names keeps its element; and since a freed slot is reused before a new one is used,
the count is the largest number of elements held at once since the last clear, so a store that
never holds more elements than its capacity keeps that capacity.
-/

namespace AvlCollections

namespace SlotPool

variable {p : SlotPool} {live : List Nat}

/-- A slot past the storage grows it; below it, the capacity stays. -/
theorem capacity_alloc_of_live_le (h : p.alloc.live ≤ p.capacity) :
    p.alloc.capacity = p.capacity := by
  cases hfree : p.free with
  | cons s rest => simp [alloc, hfree]
  | nil =>
    simp only [alloc, hfree, live, List.length_nil, Nat.sub_zero] at h ⊢
    simp only [grown]
    rw [if_pos (by omega)]

namespace Accounts

theorem free_nodup (h : p.Accounts live) : p.free.Nodup :=
  (h.nodup_iff.2 List.nodup_range).sublist (List.sublist_append_right _ _)

theorem lt_of_mem_free (h : p.Accounts live) {n : Nat} (hn : n ∈ p.free) : n < p.count :=
  List.mem_range.1 ((List.Perm.mem_iff h).1 (List.mem_append_right _ hn))

theorem length_add_length_free (h : p.Accounts live) : live.length + p.free.length = p.count := by
  simpa using h.length_eq

/-- A freed slot at hand keeps the count; without one, the new slot raises it to the number of
live slots. -/
theorem count_alloc (h : p.Accounts live) : p.alloc.count = max p.count (live.length + 1) := by
  have hlen := h.length_add_length_free
  unfold SlotPool.alloc
  split
  · next s rest hfree =>
    rw [hfree, List.length_cons] at hlen
    simp only
    omega
  · next hfree =>
    rw [hfree, List.length_nil] at hlen
    simp only
    omega

end Accounts

end SlotPool

/-- Slot storage seen whole: the pool, and the element that each slot holds; `none` for a slot
that is free or not handed out yet. -/
structure SlotStore (α : Type) where
  pool : SlotPool
  stored : Nat → Option α

namespace SlotStore

variable {α : Type}

/-- An empty store whose storage holds `capacity` slots. -/
def empty (capacity : Nat) : SlotStore α :=
  ⟨SlotPool.withCapacity capacity, fun _ => none⟩

/-- Stores `x` in the slot that the pool hands out next. -/
def alloc (x : α) (a : SlotStore α) : SlotStore α :=
  ⟨a.pool.alloc, Function.update a.stored a.pool.next (some x)⟩

/-- Takes the element out of slot `n` and frees the slot. -/
def take (n : Nat) (a : SlotStore α) : SlotStore α :=
  ⟨a.pool.release n, Function.update a.stored n none⟩

/-- Overwrites the element in slot `n`. -/
def write (n : Nat) (x : α) (a : SlotStore α) : SlotStore α :=
  ⟨a.pool, Function.update a.stored n (some x)⟩

/-- Empties every slot and starts the numbering again; the storage is kept. -/
def clear (a : SlotStore α) : SlotStore α :=
  ⟨a.pool.reset, fun _ => none⟩

/-- A request to a store. -/
inductive Op (α : Type) where
  | alloc (x : α)
  | take (n : Nat)
  | write (n : Nat) (x : α)
  | clear

namespace Op

def apply : Op α → SlotStore α → SlotStore α
  | alloc x => SlotStore.alloc x
  | take n => SlotStore.take n
  | write n x => SlotStore.write n x
  | clear => SlotStore.clear

/-- Taking and overwriting name a slot that holds an element. -/
def Allowed (a : SlotStore α) : Op α → Prop
  | take n | write n _ => (a.stored n).isSome
  | alloc _ | clear => True

/-- Whether the request names slot `n`, or clears every slot. -/
def touches (n : Nat) : Op α → Prop
  | take m | write m _ => m = n
  | alloc _ => False
  | clear => True

def clears : Op α → Bool
  | clear => true
  | _ => false

end Op

/-- The store after the requests, in turn. -/
def run (a : SlotStore α) (ops : List (Op α)) : SlotStore α :=
  ops.foldl (fun a op => op.apply a) a

/-- Each request of the run is allowed in the store it meets. -/
def Allowed : SlotStore α → List (Op α) → Prop
  | _, [] => True
  | a, op :: ops => op.Allowed a ∧ Allowed (op.apply a) ops

/-- The largest number of slots in use at once along the requests, counting from the last
clear among them, where `m` is the largest before them. -/
def peak : SlotStore α → Nat → List (Op α) → Nat
  | _, m, [] => m
  | a, m, op :: ops =>
    peak (op.apply a) (if op.clears then 0 else max m (op.apply a).pool.live) ops

instance Op.decidableAllowed (a : SlotStore α) : (op : Op α) → Decidable (op.Allowed a)
  | .take n | .write n _ => inferInstanceAs (Decidable ((a.stored n).isSome = true))
  | .alloc _ | .clear => inferInstanceAs (Decidable True)

instance decidableAllowed : (a : SlotStore α) → (ops : List (Op α)) → Decidable (a.Allowed ops)
  | _, [] => inferInstanceAs (Decidable True)
  | a, op :: ops =>
    haveI := decidableAllowed (op.apply a) ops
    inferInstanceAs (Decidable (op.Allowed a ∧ (op.apply a).Allowed ops))

@[simp] theorem run_nil (a : SlotStore α) : a.run [] = a := rfl

@[simp] theorem run_cons (a : SlotStore α) (op : Op α) (ops : List (Op α)) :
    a.run (op :: ops) = (op.apply a).run ops := rfl

theorem run_append (a : SlotStore α) (ops₁ ops₂ : List (Op α)) :
    a.run (ops₁ ++ ops₂) = (a.run ops₁).run ops₂ :=
  List.foldl_append

@[simp] theorem allowed_nil (a : SlotStore α) : a.Allowed [] := trivial

@[simp] theorem allowed_cons (a : SlotStore α) (op : Op α) (ops : List (Op α)) :
    a.Allowed (op :: ops) ↔ op.Allowed a ∧ (op.apply a).Allowed ops := Iff.rfl

theorem allowed_append (a : SlotStore α) (ops₁ ops₂ : List (Op α)) :
    a.Allowed (ops₁ ++ ops₂) ↔ a.Allowed ops₁ ∧ (a.run ops₁).Allowed ops₂ := by
  induction ops₁ generalizing a with
  | nil => simp
  | cons op ops₁ ih => simp [ih, and_assoc]

/-! ## The invariant -/

/-- The pool accounts for `live`, and `live` lists exactly the slots that hold an element. -/
structure Holds (a : SlotStore α) (live : List Nat) : Prop where
  accounts : a.pool.Accounts live
  stored : ∀ n, (a.stored n).isSome ↔ n ∈ live

theorem holds_empty (capacity : Nat) : (empty capacity : SlotStore α).Holds [] :=
  ⟨SlotPool.accounts_withCapacity capacity, by simp [empty]⟩

theorem holds_clear (a : SlotStore α) : a.clear.Holds [] :=
  ⟨SlotPool.accounts_reset _, by simp [clear]⟩

/-- The freed slots are distinct, and they are exactly the empty slots below the count; there
are no more of them than the count, so the pool's count of slots in use is the number of slots
that hold an element; and the slot handed out next holds nothing. -/
structure Sound (a : SlotStore α) : Prop where
  free_nodup : a.pool.free.Nodup
  free_iff : ∀ n, n ∈ a.pool.free ↔ n < a.pool.count ∧ a.stored n = none
  free_le : a.pool.free.length ≤ a.pool.count
  live : ∃ live : List Nat, live.Nodup ∧ (∀ n, (a.stored n).isSome ↔ n ∈ live) ∧
    a.pool.live = live.length
  next_empty : a.stored a.pool.next = none

namespace Holds

variable {a : SlotStore α} {live : List Nat}

/-- The slot handed out next holds nothing. -/
theorem next_eq_none (h : a.Holds live) : a.stored a.pool.next = none := by
  have hn := h.accounts.next_not_mem
  rw [← h.stored] at hn
  simpa using hn

theorem sound (h : a.Holds live) : a.Sound where
  free_nodup := h.accounts.free_nodup
  free_iff n := by
    rw [← Option.not_isSome_iff_eq_none, h.stored, h.accounts.mem_iff]
    constructor
    · intro hn
      exact ⟨h.accounts.lt_of_mem_free hn, fun hl => hl.2 hn⟩
    · rintro ⟨hlt, hnot⟩
      by_contra hn
      exact hnot ⟨hlt, hn⟩
  free_le := by
    have hlen := h.accounts.length_add_length_free
    omega
  live := ⟨live, h.accounts.nodup, h.stored, h.accounts.live_eq⟩
  next_empty := h.next_eq_none

theorem alloc (h : a.Holds live) (x : α) : (a.alloc x).Holds (a.pool.next :: live) where
  accounts := h.accounts.alloc (List.Perm.refl _)
  stored n := by
    by_cases hn : n = a.pool.next
    · subst hn
      simp [SlotStore.alloc]
    · simp [SlotStore.alloc, h.stored n, hn]

theorem take {as bs : List Nat} {n : Nat} (h : a.Holds (as ++ n :: bs)) :
    (a.take n).Holds (as ++ bs) where
  accounts := h.accounts.release
  stored m := by
    by_cases hm : m = n
    · -- the slot is live once only, so it is gone from the rest
      subst hm
      have hnd := h.accounts.nodup
      simp only [List.nodup_append, List.nodup_cons, List.mem_cons] at hnd
      simp only [SlotStore.take, Function.update_self, Option.isSome_none, Bool.false_eq_true,
        false_iff, List.mem_append, not_or]
      exact ⟨fun hma => hnd.2.2 m hma m (.inl rfl) rfl, hnd.2.1.1⟩
    · simp [SlotStore.take, h.stored m, hm]

theorem write (h : a.Holds live) {n : Nat} (hn : (a.stored n).isSome) (x : α) :
    (a.write n x).Holds live where
  accounts := h.accounts
  stored m := by
    by_cases hm : m = n
    · subst hm
      simp [SlotStore.write, ← h.stored, hn]
    · simp [SlotStore.write, Function.update_of_ne hm, h.stored m]

/-- An allowed request keeps some list of live slots accounted for. -/
theorem apply (h : a.Holds live) {op : Op α} (hop : op.Allowed a) :
    ∃ live', (op.apply a).Holds live' := by
  cases op with
  | alloc x => exact ⟨_, h.alloc x⟩
  | take n =>
    obtain ⟨as, bs, rfl⟩ := List.append_of_mem ((h.stored n).1 hop)
    exact ⟨_, h.take⟩
  | write n x => exact ⟨_, h.write hop x⟩
  | clear => exact ⟨_, holds_clear a⟩

theorem run (h : a.Holds live) {ops : List (Op α)} (hal : a.Allowed ops) :
    ∃ live', (a.run ops).Holds live' := by
  induction ops generalizing a live with
  | nil => exact ⟨live, h⟩
  | cons op ops ih =>
    obtain ⟨live', h'⟩ := h.apply hal.1
    exact ih h' hal.2

/-- One request sets the count to the largest number of slots in use so far, or to nothing
when it clears. -/
theorem count_apply (h : a.Holds live) (op : Op α) :
    (op.apply a).pool.count =
      if op.clears then 0 else max a.pool.count (op.apply a).pool.live := by
  cases op with
  | alloc x =>
    have hl := (h.alloc x).accounts.live_eq
    simp only [Op.apply, Op.clears, SlotStore.alloc, List.length_cons] at hl ⊢
    rw [hl, h.accounts.count_alloc]
    rfl
  | take n =>
    simp only [Op.apply, Op.clears, SlotStore.take, SlotPool.release, SlotPool.live,
      Bool.false_eq_true, if_false, List.length_cons]
    omega
  | write n x =>
    simp only [Op.apply, Op.clears, SlotStore.write, SlotPool.live, Bool.false_eq_true, if_false]
    omega
  | clear => rfl

/-- The count is the largest number of slots in use at once since the last clear. -/
theorem count_run (h : a.Holds live) {ops : List (Op α)} (hal : a.Allowed ops) {m : Nat}
    (hm : a.pool.count = m) : (a.run ops).pool.count = a.peak m ops := by
  induction ops generalizing a live m with
  | nil => exact hm
  | cons op ops ih =>
    obtain ⟨live', h'⟩ := h.apply hal.1
    exact ih h' hal.2 (by rw [h.count_apply, hm])

/-- Slot 0, freed, is reused by the third element, so two slots serve three elements. -/
example : ((empty 0 : SlotStore Nat).run [.alloc 1, .alloc 2, .take 0, .alloc 3]).pool.count = 2 := by
  decide

/-- A request that does not name slot `n` leaves its element there. -/
theorem stored_apply (h : a.Holds live) {n : Nat} (hn : (a.stored n).isSome) {op : Op α}
    (hop : ¬ op.touches n) : (op.apply a).stored n = a.stored n := by
  cases op with
  | alloc x =>
    -- the new element goes into an empty slot, which is not `n`
    have hne : n ≠ a.pool.next := by
      rintro rfl
      simp [h.next_eq_none] at hn
    simp [Op.apply, SlotStore.alloc, Function.update_of_ne hne]
  | take m => simp [Op.apply, SlotStore.take, Function.update_of_ne (Ne.symm hop)]
  | write m x => simp [Op.apply, SlotStore.write, Function.update_of_ne (Ne.symm hop)]
  | clear => exact absurd trivial hop

/-- A slot that no request of the run names keeps the element last stored in it. -/
theorem stored_run (h : a.Holds live) {ops : List (Op α)} (hal : a.Allowed ops) {n : Nat}
    (hn : (a.stored n).isSome) (hops : ∀ op ∈ ops, ¬ op.touches n) :
    (a.run ops).stored n = a.stored n := by
  induction ops generalizing a live with
  | nil => rfl
  | cons op ops ih =>
    have hstep := h.stored_apply hn (hops op (List.mem_cons_self ..))
    obtain ⟨live', h'⟩ := h.apply hal.1
    rw [run_cons, ih h' hal.2 (by rw [hstep]; exact hn)
      (fun op' hop' => hops op' (List.mem_cons_of_mem _ hop')), hstep]

end Holds

/-- A request keeps the capacity when the slots in use after it fit in the storage. -/
theorem capacity_apply (op : Op α) (a : SlotStore α)
    (hfit : (op.apply a).pool.live ≤ a.pool.capacity) :
    (op.apply a).pool.capacity = a.pool.capacity := by
  cases op with
  | alloc x => exact SlotPool.capacity_alloc_of_live_le hfit
  | take n | write n x | clear => rfl

/-- A run that never has more slots in use than the storage holds keeps its capacity. -/
theorem capacity_run (a : SlotStore α) (ops : List (Op α))
    (hfit : ∀ pre, pre <+: ops → (a.run pre).pool.live ≤ a.pool.capacity) :
    (a.run ops).pool.capacity = a.pool.capacity := by
  induction ops generalizing a with
  | nil => rfl
  | cons op ops ih =>
    have hcap : (op.apply a).pool.capacity = a.pool.capacity :=
      capacity_apply op a (hfit [op] ((List.prefix_cons_inj op).2 (List.nil_prefix)))
    -- every later prefix is a prefix of the whole run with `op` in front
    have hrest := ih (op.apply a) fun pre hpre => by
      rw [hcap]
      exact hfit (op :: pre) ((List.prefix_cons_inj op).2 hpre)
    rw [run_cons, hrest, hcap]

/-- What a run of allowed requests from a store gives: it ends in a sound store whose count is
the largest number of slots in use at once since the last clear; it keeps the capacity when it
never has more slots in use than that; and a slot that no request names keeps its element. -/
structure Keeps (a : SlotStore α) (ops : List (Op α)) : Prop where
  sound : (a.run ops).Sound
  count : (a.run ops).pool.count = a.peak a.pool.count ops
  capacity : (∀ pre, pre <+: ops → (a.run pre).pool.live ≤ a.pool.capacity) →
    (a.run ops).pool.capacity = a.pool.capacity
  stored : ∀ n, (a.stored n).isSome → (∀ op ∈ ops, ¬ op.touches n) →
    (a.run ops).stored n = a.stored n

theorem Holds.keeps {a : SlotStore α} {live : List Nat} (h : a.Holds live) {ops : List (Op α)}
    (hal : a.Allowed ops) : a.Keeps ops where
  sound := (h.run hal).choose_spec.sound
  count := h.count_run hal rfl
  capacity := capacity_run a ops
  stored _ hn hops := h.stored_run hal hn hops

/-- Every part of a run of allowed requests from an empty store keeps the store sound. -/
theorem keeps_of_allowed {capacity : Nat} {ops₁ ops₂ : List (Op α)}
    (hal : (empty capacity : SlotStore α).Allowed (ops₁ ++ ops₂)) :
    ((empty capacity : SlotStore α).run ops₁).Keeps ops₂ := by
  rw [allowed_append] at hal
  obtain ⟨live, h⟩ := (holds_empty capacity).run hal.1
  exact h.keeps hal.2

end SlotStore

end AvlCollections
