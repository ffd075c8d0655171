import AvlCollections.SlotPool

/-! # Accounting for slots

A pool accounts for a list of live slots when the live slots and the freed ones are, together,
the slots handed out since the last reset, each exactly once. Then no slot is live twice, the
next slot the pool hands out is not live, and the pool's count of slots in use is the number
of live slots.
-/

namespace AvlCollections

namespace SlotPool

/-- The live slots and the freed slots are the slots `0, …, count - 1`, each once. -/
def Accounts (p : SlotPool) (live : List Nat) : Prop :=
  (live ++ p.free).Perm (List.range p.count)

theorem accounts_withCapacity (capacity : Nat) : (withCapacity capacity).Accounts [] :=
  List.Perm.refl _

theorem accounts_reset (p : SlotPool) : p.reset.Accounts [] :=
  List.Perm.refl _

namespace Accounts

variable {p : SlotPool} {live : List Nat}

theorem copy (h : p.Accounts live) : p.copy.Accounts live := h

theorem nodup (h : p.Accounts live) : live.Nodup :=
  ((h.nodup_iff.2 List.nodup_range).sublist (List.sublist_append_left _ _))

theorem mem_iff (h : p.Accounts live) {n : Nat} : n ∈ live ↔ n < p.count ∧ n ∉ p.free := by
  have hnd : (live ++ p.free).Nodup := h.nodup_iff.2 List.nodup_range
  constructor
  · intro hn
    refine ⟨List.mem_range.1 (List.Perm.mem_iff h |>.1 (List.mem_append_left _ hn)), fun hf => ?_⟩
    exact (List.nodup_append.1 hnd).2.2 n hn n hf rfl
  · rintro ⟨hlt, hf⟩
    rcases List.mem_append.1 (List.Perm.mem_iff h |>.2 (List.mem_range.2 hlt)) with hn | hn
    · exact hn
    · exact absurd hn hf

/-- The slot handed out next is not live. -/
theorem next_not_mem (h : p.Accounts live) : p.next ∉ live := by
  intro hn
  rw [h.mem_iff] at hn
  unfold next at hn
  split at hn
  · next s rest hfree => exact hn.2 (by simp [hfree])
  · exact Nat.lt_irrefl _ hn.1

/-- The pool counts as in use exactly the live slots. -/
theorem live_eq (h : p.Accounts live) : p.live = live.length := by
  have hlen := h.length_eq
  simp only [List.length_append, List.length_range] at hlen
  simp only [SlotPool.live]
  omega

/-- Handing out the next slot makes it live. -/
theorem alloc {live' : List Nat} (h : p.Accounts live) (hperm : live'.Perm (p.next :: live)) :
    p.alloc.Accounts live' := by
  unfold Accounts at h ⊢
  unfold SlotPool.alloc
  unfold next at hperm
  split
  · next s rest hfree =>
    rw [hfree] at h
    rw [hfree] at hperm
    exact ((hperm.append_right rest).trans (List.perm_middle.symm)).trans h
  · next hfree =>
    rw [hfree, List.append_nil] at h
    rw [hfree] at hperm
    simp only [hfree, List.append_nil, List.range_succ]
    exact hperm.trans (List.perm_append_comm.trans (h.append_right [p.count]))

/-- Giving a live slot back frees it. -/
theorem release {as bs : List Nat} {n : Nat} (h : p.Accounts (as ++ n :: bs)) :
    (p.release n).Accounts (as ++ bs) := by
  unfold Accounts at h ⊢
  simp only [SlotPool.release]
  refine List.Perm.trans ?_ h
  simp only [List.append_assoc, List.cons_append]
  exact List.Perm.append_left as List.perm_middle

end Accounts

end SlotPool

end AvlCollections
