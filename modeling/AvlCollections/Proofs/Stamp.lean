import AvlCollections.Stamp

/-! # Stamps

A structural change touches a collection's stamp: the version goes up by one and a
collection without an identity takes the identity `fresh`. A stamp is sound when it has an
identity exactly when its version is not 0; touching with a non-zero identity and copying keep
stamps sound, and a cursor's sound stamp passes the check against a sound stamp only when the
two are equal.
-/

namespace AvlCollections

namespace Stamp

/-- The stamp after `k` structural changes, each with identity `fresh`. -/
def touchN (st : Stamp) (fresh : Nat) : Nat → Stamp
  | 0 => st
  | k + 1 => (st.touchN fresh k).touch fresh

@[simp] theorem touchN_zero (st : Stamp) (fresh : Nat) : st.touchN fresh 0 = st := rfl

@[simp] theorem version_touchN (st : Stamp) (fresh k : Nat) :
    (st.touchN fresh k).version = st.version + k := by
  induction k with
  | zero => rfl
  | succ k ih => simp [touchN, touch, ih, Nat.add_assoc]

@[simp] theorem id_touchN_succ (st : Stamp) (fresh k : Nat) :
    (st.touchN fresh (k + 1)).id = if st.id = 0 then fresh else st.id := by
  induction k with
  | zero => rfl
  | succ k ih =>
    simp only [touchN] at ih ⊢
    rw [touch, ih]
    by_cases h : st.id = 0 <;> simp [h]

theorem touchN_add (st : Stamp) (fresh k j : Nat) :
    st.touchN fresh (k + j) = (st.touchN fresh k).touchN fresh j := by
  induction j with
  | zero => rfl
  | succ j ih => rw [← Nat.add_assoc, touchN, ih, touchN]

/-- A touched stamp keeps a non-zero identity. -/
theorem id_touchN_of_ne_zero {st : Stamp} (h : st.id ≠ 0) (fresh k : Nat) :
    (st.touchN fresh k).id = st.id := by
  cases k with
  | zero => rfl
  | succ k => simp [h]

/-- Touching keeps the identity, or gives a stamp without one the identity `fresh`. -/
theorem id_touchN (st : Stamp) (fresh k : Nat) :
    (st.touchN fresh k).id = st.id ∨ st.id = 0 ∧ (st.touchN fresh k).id = fresh := by
  cases k with
  | zero => exact Or.inl rfl
  | succ k =>
    rw [id_touchN_succ]
    by_cases h : st.id = 0
    · exact Or.inr ⟨h, if_pos h⟩
    · exact Or.inl (if_neg h)

/-- A copy has no identity or the identity `fresh`. -/
theorem id_copy (st : Stamp) (fresh : Nat) : (st.copy fresh).id = 0 ∨ (st.copy fresh).id = fresh := by
  unfold copy
  by_cases h : st.id = 0
  · exact Or.inl (if_pos h)
  · exact Or.inr (if_neg h)

@[simp] theorem version_copy (st : Stamp) (fresh : Nat) : (st.copy fresh).version = st.version :=
  rfl

/-- A stamp has an identity exactly when its version is not 0. -/
def Sound (st : Stamp) : Prop :=
  st.id = 0 ↔ st.version = 0

theorem sound_default : ({} : Stamp).Sound := Iff.rfl

theorem Sound.touchN {st : Stamp} (h : st.Sound) {fresh : Nat} (hf : fresh ≠ 0) (k : Nat) :
    (st.touchN fresh k).Sound := by
  cases k with
  | zero => exact h
  | succ k =>
    unfold Sound
    rw [id_touchN_succ, version_touchN]
    by_cases h0 : st.id = 0 <;> simp [h0, hf]

theorem Sound.copy {st : Stamp} (h : st.Sound) {fresh : Nat} (hf : fresh ≠ 0) :
    (st.copy fresh).Sound := by
  unfold Sound Stamp.copy at *
  by_cases h0 : st.id = 0
  · simpa [h0] using h
  · simpa [h0, hf] using h

theorem check_eq_ok_iff (c t : Stamp) :
    c.check t = .ok () ↔ (c.id = 0 ∨ c.id = t.id) ∧ c.version = t.version := by
  unfold check
  by_cases hid : c.id ≠ 0 ∧ c.id ≠ t.id
  · rw [if_pos hid]
    simp only [reduceCtorEq, false_iff, not_and]
    intro h
    omega
  · rw [if_neg hid]
    by_cases hv : c.version ≠ t.version
    · rw [if_pos hv]
      simp only [reduceCtorEq, false_iff, not_and]
      intro _
      exact hv
    · rw [if_neg hv]
      simp only [true_iff]
      omega

/-- Between sound stamps, the check passes only when the stamps are equal. -/
theorem eq_of_check {c t : Stamp} (hc : c.Sound) (ht : t.Sound) (h : c.check t = .ok ()) :
    c = t := by
  obtain ⟨hid, hv⟩ := (check_eq_ok_iff c t).1 h
  have hid' : c.id = t.id := by
    rcases hid with hid | hid
    · rw [hid, eq_comm, ht.2 (hv ▸ hc.1 hid)]
    · exact hid
  cases c
  cases t
  simp_all

end Stamp

end AvlCollections
