import AvlCollections.Proofs.Set.Valid
import AvlCollections.Proofs.Set.Locate
import AvlCollections.Proofs.Tree.Links
import AvlCollections.Proofs.Stamp

/-! # What the operations of a set do to its stamp

Every operation that links or unlinks a node touches the stamp once per node, a clear touches
it once, and an operation that only edits elements, or fails, touches nothing and keeps the
links. `Evolves` says this of one operation; additions satisfy the stronger `Grows`, which
counts the touches by the nodes added, so that a run of additions is again one.

The cursors a set hands out carry its stamp and stand on one of its nodes or on a sentinel
(`Issues`); a cursor that a set accepts and moves carries the set's stamp again.
-/

namespace AvlCollections

namespace AvlSet

open AvlCollections.Tree

variable {α : Type} {s s' : AvlSet α} {fresh : Nat}

/-- One operation's effect on the stamp and the links: `k` structural changes, each touching
the stamp with `fresh`, and none exactly when the operation neither clears the set nor changes
its links. -/
def Evolves (fresh : Nat) (clears : Bool) (s s' : AvlSet α) : Prop :=
  ∃ k, s'.stamp = s.stamp.touchN fresh k ∧
    (k = 0 ↔ clears = false ∧ s'.root.links = s.root.links)

/-- Additions: each of the `k` new nodes touches the stamp once. -/
def Grows (fresh : Nat) (s s' : AvlSet α) : Prop :=
  ∃ k, s'.stamp = s.stamp.touchN fresh k ∧ s'.root.size = s.root.size + k ∧
    (k = 0 → s'.root.links = s.root.links)

theorem Grows.refl (s : AvlSet α) : Grows fresh s s :=
  ⟨0, rfl, rfl, fun _ => rfl⟩

theorem Grows.trans {s₁ s₂ s₃ : AvlSet α} (h₁ : Grows fresh s₁ s₂) (h₂ : Grows fresh s₂ s₃) :
    Grows fresh s₁ s₃ := by
  obtain ⟨k, hs, hz, hl⟩ := h₁
  obtain ⟨j, hs', hz', hl'⟩ := h₂
  refine ⟨k + j, by rw [hs', hs, Stamp.touchN_add], by omega, fun hkj => ?_⟩
  rw [hl' (by omega), hl (by omega)]

/-- A run of additions adds a node exactly when it touches the stamp. -/
theorem Grows.evolves (h : Grows fresh s s') : Evolves fresh false s s' := by
  obtain ⟨k, hs, hz, hl⟩ := h
  refine ⟨k, hs, fun hk => ⟨rfl, hl hk⟩, ?_⟩
  rintro ⟨-, hlinks⟩
  have := size_eq_of_links_eq hlinks
  omega

theorem Grows.of_keep (hs : s'.stamp = s.stamp) (hl : s'.root.links = s.root.links) :
    Grows fresh s s' :=
  ⟨0, hs, size_eq_of_links_eq hl, fun _ => hl⟩

/-- Growth is read off the stamp and the tree alone. -/
theorem Grows.of_eq {s₂ : AvlSet α} (h : Grows fresh s s') (hs : s₂.stamp = s'.stamp)
    (hr : s₂.root = s'.root) : Grows fresh s s₂ := by
  obtain ⟨k, hst, hsize, hl⟩ := h
  exact ⟨k, hs.trans hst, hr ▸ hsize, hr ▸ hl⟩

/-- An operation that keeps the stamp and the links. -/
theorem Evolves.of_keep (hs : s'.stamp = s.stamp) (hl : s'.root.links = s.root.links) :
    Evolves fresh false s s' :=
  ⟨0, hs, by simp [hl]⟩

theorem Evolves.of_eq {clears : Bool} {s₂ : AvlSet α} (h : Evolves fresh clears s s')
    (hs : s₂.stamp = s'.stamp) (hr : s₂.root = s'.root) : Evolves fresh clears s s₂ := by
  obtain ⟨k, hst, hk⟩ := h
  exact ⟨k, hs.trans hst, hr ▸ hk⟩

/-! ## Structural changes -/

theorem grows_place {x : α} {slot : Nat} (h : s.place x fresh = .added slot s') :
    Grows fresh s s' := by
  obtain ⟨t, ins, -, rfl⟩ := place_eq_added h
  exact ⟨1, rfl, (size_insert ins).1, by simp⟩

theorem grows_add (s : AvlSet α) (x : α) (fresh : Nat) : Grows fresh s (s.add x fresh).2 := by
  unfold add
  split
  · next slot s' hp => exact grows_place hp
  · split
    · exact Grows.refl s
    · -- a replaced element keeps the node, its slot and its links
      exact Grows.of_keep rfl (links_setAt x s.root _)

theorem grows_extend (s : AvlSet α) (xs : List α) (fresh : Nat) :
    Grows fresh s (s.extend xs fresh) := by
  induction xs generalizing s with
  | nil => exact Grows.refl s
  | cons x xs ih => exact (grows_add s x fresh).trans (ih (s.add x fresh).2)

theorem grows_ofList (cmp : α → α → Ordering) (xs : List α) (fresh : Nat) :
    Grows fresh (empty cmp 0) (ofList cmp xs fresh) :=
  grows_extend _ xs fresh

theorem evolves_eraseAt (s : AvlSet α) (p : Path) (fresh : Nat) :
    Evolves fresh false s (s.eraseAt p fresh).2 := by
  cases he : s.root.eraseAt p with
  | none =>
    rw [eraseAt_of_none he]
    exact Evolves.of_keep rfl rfl
  | some r =>
    obtain ⟨x, freed, t⟩ := r
    rw [eraseAt_of_some he]
    refine ⟨1, rfl, fun h => absurd h Nat.one_ne_zero, fun ⟨_, hl⟩ => ?_⟩
    -- one node fewer, so the links changed
    have hsame : t.size = s.root.size := size_eq_of_links_eq hl
    have hless := size_eraseAt he
    omega

theorem evolves_removeBy (s : AvlSet α) (probe : α → Ordering) (fresh : Nat) :
    Evolves fresh false s (s.removeBy probe fresh).2 := by
  unfold removeBy
  split
  · exact evolves_eraseAt s _ fresh
  · exact Evolves.of_keep rfl rfl

theorem evolves_removeAt (s : AvlSet α) (c : Cursor) (fresh : Nat) :
    Evolves fresh false s (s.removeAt c fresh).2 := by
  unfold removeAt
  split
  · exact Evolves.of_keep rfl rfl
  · next p _ =>
    have h := evolves_eraseAt s p fresh
    split
    · next x s'' he => rwa [he] at h
    · exact Evolves.of_keep rfl rfl

theorem evolves_clear (s : AvlSet α) (fresh : Nat) : Evolves fresh true s (s.clear fresh) :=
  ⟨1, rfl, by simp⟩

theorem evolves_withPolicy (s : AvlSet α) (policy : Policy) :
    Evolves fresh false s (s.withPolicy policy) :=
  Evolves.of_keep rfl rfl

theorem evolves_modifyAt (s : AvlSet α) (p : Path) (f : α → α) :
    Evolves fresh false s (s.modifyAt p f) :=
  Evolves.of_keep rfl (links_modifyAt f s.root p)

/-! ## Cursors handed out -/

/-- A cursor that the set hands out: it carries the set's stamp and stands on one of the
set's nodes or on a sentinel. -/
def Issues (s : AvlSet α) (c : Cursor) : Prop :=
  c.stamp = s.stamp ∧ ∀ n, c.position = .node n → n ∈ s.root.slots

theorem issues_cursorAt {pos : Position} (h : ∀ n, pos = .node n → n ∈ s.root.slots) :
    s.Issues (s.cursorAt pos) :=
  ⟨rfl, h⟩

theorem issues_cursorAtPath (s : AvlSet α) (p? : Option Path) : s.Issues (s.cursorAtPath p?) := by
  unfold cursorAtPath
  split
  · split
    · next slot v hp =>
      refine issues_cursorAt fun n hn => ?_
      cases hn
      exact mem_slots_of_nodeAt? hp
    · exact issues_cursorAt fun n hn => by cases hn
  · exact issues_cursorAt fun n hn => by cases hn

/-- A position found along a path is one of the set's nodes, or the position given for when
there is none. -/
theorem mem_slots_of_positionAt {outside : Position}
    (h : ∀ n, outside = .node n → n ∈ s.root.slots) (p? : Option Path) (n : Nat)
    (hn : s.positionAt outside p? = .node n) : n ∈ s.root.slots := by
  unfold positionAt at hn
  split at hn
  · split at hn
    · next slot v hp =>
      cases hn
      exact mem_slots_of_nodeAt? hp
    · exact h n hn
  · exact h n hn

/-- A cursor of the set moved along a path is one of the set's. -/
theorem issues_positionAt {c : Cursor} (hst : c.stamp = s.stamp) {outside : Position}
    (h : ∀ n, outside = .node n → n ∈ s.root.slots) (p? : Option Path) :
    s.Issues { c with position := s.positionAt outside p? } :=
  ⟨hst, mem_slots_of_positionAt h p?⟩

theorem issues_first (s : AvlSet α) : s.Issues s.first :=
  issues_cursorAtPath s _

theorem issues_last (s : AvlSet α) : s.Issues s.last := by
  unfold last
  split
  · exact issues_cursorAtPath s _
  · exact issues_cursorAt fun n hn => by cases hn

theorem issues_pastEnd (s : AvlSet α) : s.Issues s.pastEnd :=
  issues_cursorAt fun n hn => by cases hn

theorem issues_preBegin (s : AvlSet α) : s.Issues s.preBegin :=
  issues_cursorAt fun n hn => by cases hn

theorem issues_top {c : Cursor} (h : s.top? = some c) : s.Issues c := by
  unfold top? at h
  split at h
  · next l slot v hh r hroot =>
    cases h
    refine issues_cursorAt fun n hn => ?_
    cases hn
    simp [hroot]
  · cases h

theorem issues_search {x : α} {c : Cursor} (h : s.search x = some c) : s.Issues c := by
  unfold search at h
  obtain ⟨p, -, rfl⟩ := Option.map_eq_some_iff.1 h
  exact issues_cursorAtPath s _

/-- The cursor that an addition returns stands on the new or the overwritten node of the set
after the addition. -/
theorem issues_add {x : α} {c : Cursor} (h : (s.add x fresh).1 = .ok c) :
    (s.add x fresh).2.Issues c := by
  cases hp : s.place x fresh with
  | added slot s' =>
    simp only [add, hp, Except.ok.injEq] at h ⊢
    subst h
    obtain ⟨t, ins, rfl, rfl⟩ := place_eq_added hp
    exact issues_cursorAt fun n hn => by cases hn; exact (size_insert ins).2
  | found slot p =>
    obtain ⟨v, hv, -⟩ := nodeAt?_of_insert_occupied (place_eq_found hp)
    cases hpol : s.policy with
    | reject => simp [add, hp, hpol] at h
    | replace =>
      simp only [add, hp, hpol, Except.ok.injEq] at h ⊢
      subst h
      refine issues_cursorAt fun n hn => ?_
      cases hn
      rw [slots_eq_of_links_eq (links_setAt x s.root p)]
      exact mem_slots_of_nodeAt? hv

/-! ## Frames -/

/-- The set with its elements forgotten: the stamp and the links, all that a cursor check
reads. -/
def frame (s : AvlSet α) : AvlSet Unit :=
  { cmp := fun _ _ => .eq, root := s.root.links, pool := s.pool, stamp := s.stamp }

@[simp] theorem stamp_frame (s : AvlSet α) : s.frame.stamp = s.stamp := rfl

@[simp] theorem root_frame (s : AvlSet α) : s.frame.root = s.root.links := rfl

@[simp] theorem locate_frame (s : AvlSet α) (c : Cursor) : s.frame.locate c = s.locate c := by
  simp only [locate, stamp_frame, root_frame, pathTo?_links]

@[simp] theorem issues_frame {c : Cursor} : s.frame.Issues c ↔ s.Issues c := by
  simp only [Issues, stamp_frame, root_frame, slots_links]

theorem Evolves.frame {clears : Bool} (h : Evolves fresh clears s s') :
    Evolves fresh clears s.frame s'.frame := by
  obtain ⟨k, hs, hk⟩ := h
  exact ⟨k, hs, by simpa only [root_frame, links_links] using hk⟩

/-! ## Cursors accepted -/

/-- A cursor that a set accepts carries the set's own stamp, when both stamps are sound. -/
theorem stamp_eq_of_locate {c : Cursor} {r : Option Path} (hc : c.stamp.Sound)
    (hs : s.stamp.Sound) (h : s.locate c = .ok r) : c.stamp = s.stamp :=
  Stamp.eq_of_check hc hs (check_of_locate h)

/-- Moving a cursor that the set accepts hands out a cursor of the set. -/
theorem issues_next {c c' : Cursor} (hc : c.stamp.Sound) (hs : s.stamp.Sound)
    (h : s.next c = .ok c') : s.Issues c' := by
  unfold next at h
  cases hl : s.locate c with
  | error f =>
    rw [hl] at h
    cases h
  | ok r =>
    have hst := stamp_eq_of_locate hc hs hl
    rw [hl] at h
    simp only [bind, Except.bind] at h
    split at h
    · cases h
    · cases h
      exact issues_positionAt hst (fun n hn => by cases hn) _
    · cases h
      exact issues_positionAt hst (fun n hn => by cases hn) _

theorem issues_prev {c c' : Cursor} (hc : c.stamp.Sound) (hs : s.stamp.Sound)
    (h : s.prev c = .ok c') : s.Issues c' := by
  unfold prev at h
  cases hl : s.locate c with
  | error f =>
    rw [hl] at h
    cases h
  | ok r =>
    have hst := stamp_eq_of_locate hc hs hl
    rw [hl] at h
    simp only [bind, Except.bind] at h
    split at h
    · cases h
    · cases h
      exact issues_positionAt hst (fun n hn => by cases hn) _
    · cases h
      exact issues_positionAt hst (fun n hn => by cases hn) _

/-- Following a link from a cursor that the set accepts hands out a cursor of the set. -/
theorem issues_follow {c c' : Cursor} {l : Link} {moved : Bool} (hc : c.stamp.Sound)
    (hs : s.stamp.Sound) (h : s.follow c l = .ok (moved, c')) : s.Issues c' := by
  unfold follow link at h
  cases hn : s.locateNode c with
  | error f =>
    rw [hn] at h
    cases h
  | ok p =>
    have hl := locate_of_locateNode hn
    obtain ⟨n, hpos, hpath⟩ := locate_eq_ok_some hl
    have hst := stamp_eq_of_locate hc hs hl
    -- the cursor's own node is one of the set's
    have hmem : ∀ m, c.position = .node m → m ∈ s.root.slots := by
      intro m hm
      rw [hpos] at hm
      cases hm
      obtain ⟨v, hv⟩ := nodeAt?_of_pathTo? hpath
      exact mem_slots_of_nodeAt? hv
    rw [hn] at h
    simp only [bind, Except.bind, pure, Except.pure] at h
    split at h
    · next q _ =>
      cases h
      exact issues_positionAt hst hmem (some q)
    · cases h
      exact ⟨hst, hmem⟩

end AvlSet

end AvlCollections
