import AvlCollections.Proofs.Set.Stamps

/-! # Collections in a session

A session keeps collections and hands out identities: the step it runs has the identity
`nextId`, and the next step the one after. A `World` is the ghost record of a session: every
collection the session ever made, in the order of making, so that a collection keeps its index
for as long as the session runs, however it is renamed or replaced. A step makes a collection,
copies one, applies an operation to one, or only reads.

A `Keeper` says how one kind of collection is kept: the set through which its stamp and tree
are seen, and the laws that its copies, its new collections and its operations obey. From
those laws alone: identities are never shared, a collection without an identity has version 0
and is empty, and a cursor passes the check against a collection exactly when the collection
is the one that handed it out and has made no structural change since, or the cursor has no
identity and the collection version 0.
-/

namespace AvlCollections

/-- The ghost record of a session: every collection it made, and the next identity. -/
structure World (σ : Type) where
  objs : List σ
  nextId : Nat

/-- One step of a session: it makes a collection, copies collection `j`, applies an operation
to collection `j`, or only reads and hands out cursors. -/
inductive Command (Ω Μ : Type) where
  | make (m : Μ)
  | clone (j : Nat)
  | apply (j : Nat) (op : Ω)
  | query

/-- The collection a step may give the step's identity to, among `len` collections: the one it
applies to, or the new one it makes or copies. -/
def Command.target {Ω Μ : Type} (len : Nat) : Command Ω Μ → Nat
  | .apply j _ => j
  | _ => len

/-- What each collection of a session keeps, `bound` being the next identity: its stamp is
sound, it is empty at version 0, and its identity was drawn before. -/
structure AvlSet.Fits {β : Type} (bound : Nat) (s : AvlSet β) : Prop where
  sound : s.stamp.Sound
  empty : s.stamp.version = 0 → s.root = .nil
  id_lt : s.stamp.id < bound

namespace AvlSet.Fits

variable {β : Type} {s s' : AvlSet β} {n : Nat}

theorem touchN (h : s.Fits n) (hn : n ≠ 0) {k : Nat} (hs : s'.stamp = s.stamp.touchN n k)
    (hl : k = 0 → s'.root.links = s.root.links) : s'.Fits (n + 1) where
  sound := hs ▸ h.sound.touchN hn k
  empty hv := by
    rw [hs, Stamp.version_touchN] at hv
    have hk : k = 0 := by omega
    rw [← Tree.links_eq_nil_iff, hl hk, Tree.links_eq_nil_iff]
    exact h.empty (by omega)
  id_lt := by
    rw [hs]
    rcases Stamp.id_touchN s.stamp n k with hid | ⟨-, hid⟩ <;> rw [hid]
    · exact Nat.lt_succ_of_lt h.id_lt
    · exact Nat.lt_succ_self n

theorem copy (h : s.Fits n) (hn : n ≠ 0) (hs : s'.stamp = s.stamp.copy n)
    (hr : s'.root = s.root) : s'.Fits (n + 1) where
  sound := hs ▸ h.sound.copy hn
  empty hv := by
    rw [hs, Stamp.version_copy] at hv
    rw [hr]
    exact h.empty hv
  id_lt := by
    rw [hs]
    rcases Stamp.id_copy s.stamp n with hid | hid <;> rw [hid] <;> omega

theorem ofTouchN (hn : n ≠ 0) {k : Nat} (hs : s.stamp = ({} : Stamp).touchN n k)
    (hr : k = 0 → s.root = .nil) : s.Fits (n + 1) where
  sound := hs ▸ Stamp.sound_default.touchN hn k
  empty hv := by
    rw [hs, Stamp.version_touchN] at hv
    exact hr (by simpa using hv)
  id_lt := by
    rw [hs]
    rcases Stamp.id_touchN ({} : Stamp) n k with hid | ⟨-, hid⟩ <;> rw [hid]
    · exact Nat.zero_lt_succ n
    · exact Nat.lt_succ_self n

end AvlSet.Fits

/-- How a session keeps one kind of collection `σ`: the set of `β` through which it is seen,
how it is copied, made by `Μ` and changed by operations `Ω`, each taking the identity `fresh`
when it needs one, and which operations clear it. The laws: a copy has the copied stamp and
tree, a new collection has been touched `k` times from the empty stamp and is empty if `k` is
0, and every operation obeys `AvlSet.Evolves`. -/
structure Keeper (σ β Ω Μ : Type) where
  view : σ → AvlSet β
  copy : σ → Nat → σ
  make : Nat → Μ → σ
  apply : Nat → σ → Ω → σ
  clears : σ → Ω → Bool
  view_copy : ∀ x fresh, (view (copy x fresh)).stamp = (view x).stamp.copy fresh ∧
    (view (copy x fresh)).root = (view x).root
  view_make : ∀ fresh m, ∃ k, (view (make fresh m)).stamp = ({} : Stamp).touchN fresh k ∧
    (k = 0 → (view (make fresh m)).root = .nil)
  view_apply : ∀ fresh x op,
    AvlSet.Evolves fresh (clears x op) (view x) (view (apply fresh x op))

namespace Keeper

variable {σ β Ω Μ : Type} (K : Keeper σ β Ω Μ)

def step (w : World σ) : Command Ω Μ → World σ
  | .make m => ⟨w.objs ++ [K.make w.nextId m], w.nextId + 1⟩
  | .clone j => ⟨w.objs ++ (w.objs[j]?.map (K.copy · w.nextId)).toList, w.nextId + 1⟩
  | .apply j op => ⟨w.objs.modify j (K.apply w.nextId · op), w.nextId + 1⟩
  | .query => ⟨w.objs, w.nextId + 1⟩

def run (w : World σ) (cs : List (Command Ω Μ)) : World σ :=
  cs.foldl K.step w

/-- What a step does to the collection at index `i`. -/
def actOn (fresh i : Nat) : Command Ω Μ → σ → σ
  | .apply j op, x => if j = i then K.apply fresh x op else x
  | _, x => x

/-- A step makes no structural change to collection `j`: it neither clears it nor changes
its links. -/
def Quiet (w : World σ) (j : Nat) : Command Ω Μ → Prop
  | .apply j' op => j' = j → ∀ x, w.objs[j]? = some x →
      K.clears x op = false ∧ (K.view (K.apply w.nextId x op)).root.links = (K.view x).root.links
  | _ => True

/-- Collection `j` makes no structural change during a run. -/
def Untouched (w : World σ) (j : Nat) : List (Command Ω Μ) → Prop
  | [] => True
  | c :: cs => K.Quiet w j c ∧ Untouched (K.step w c) j cs

/-- The sessions that start with empty collections without identities and run steps. -/
inductive Reachable : World σ → Prop where
  | start (objs : List σ) :
      (∀ x ∈ objs, (K.view x).stamp = {} ∧ (K.view x).root = .nil) → Reachable ⟨objs, 1⟩
  | step {w : World σ} (c : Command Ω Μ) : Reachable w → Reachable (K.step w c)

theorem Reachable.run {w : World σ} (h : K.Reachable w) (cs : List (Command Ω Μ)) :
    K.Reachable (K.run w cs) := by
  induction cs generalizing w with
  | nil => exact h
  | cons c cs ih => exact ih (Reachable.step c h)

/-! ## One collection along a run -/

theorem step_nextId (w : World σ) (c : Command Ω Μ) : (K.step w c).nextId = w.nextId + 1 := by
  cases c <;> rfl

theorem getElem?_step {w : World σ} {i : Nat} {x : σ} (h : w.objs[i]? = some x)
    (c : Command Ω Μ) : (K.step w c).objs[i]? = some (K.actOn w.nextId i c x) := by
  have hi : i < w.objs.length := (List.getElem?_eq_some_iff.1 h).1
  cases c with
  | make m => simp [step, actOn, List.getElem?_append_left hi, h]
  | clone j => simp [step, actOn, List.getElem?_append_left hi, h]
  | apply j op =>
    simp only [step, List.getElem?_modify, h, actOn]
    rfl
  | query => simpa [step, actOn] using h

/-- A step's effect on one collection: quiet steps keep its stamp and links, the others raise
its version, and none takes away an identity it has. -/
theorem evolves_actOn {w : World σ} {j : Nat} {x : σ} (h : w.objs[j]? = some x)
    (c : Command Ω Μ) : ∃ k, (K.view (K.actOn w.nextId j c x)).stamp =
      (K.view x).stamp.touchN w.nextId k ∧
      (k = 0 ↔ K.Quiet w j c) ∧
      (k = 0 → (K.view (K.actOn w.nextId j c x)).root.links = (K.view x).root.links) := by
  cases c with
  | apply j' op =>
    by_cases hj : j' = j
    · subst hj
      obtain ⟨k, hs, hk⟩ := K.view_apply w.nextId x op
      refine ⟨k, by simpa [actOn] using hs, ?_, fun h0 => by simpa [actOn] using (hk.1 h0).2⟩
      rw [hk]
      constructor
      · intro hq j'' x' hx'
        rw [h] at hx'
        cases hx'
        exact hq
      · intro hq
        exact hq rfl x h
    · exact ⟨0, by simp [actOn, hj], by simp [Quiet, hj], fun _ => by simp [actOn, hj]⟩
  | make m => exact ⟨0, rfl, by simp [Quiet], fun _ => rfl⟩
  | clone i => exact ⟨0, rfl, by simp [Quiet], fun _ => rfl⟩
  | query => exact ⟨0, rfl, by simp [Quiet], fun _ => rfl⟩

/-- Along a run, a collection keeps its index and an identity it has; it keeps its stamp and
links while untouched, and its version rises as soon as it is touched. -/
theorem run_evolves {w : World σ} {j : Nat} {t : σ} (ht : w.objs[j]? = some t)
    (cs : List (Command Ω Μ)) : ∃ u, (K.run w cs).objs[j]? = some u ∧
      ((K.view t).stamp.id ≠ 0 → (K.view u).stamp.id = (K.view t).stamp.id) ∧
      (K.Untouched w j cs →
        (K.view u).stamp = (K.view t).stamp ∧ (K.view u).root.links = (K.view t).root.links) ∧
      (¬K.Untouched w j cs → (K.view t).stamp.version < (K.view u).stamp.version) := by
  induction cs generalizing w t with
  | nil => exact ⟨t, ht, fun _ => rfl, fun _ => ⟨rfl, rfl⟩, fun h => absurd trivial h⟩
  | cons c cs ih =>
    obtain ⟨k, hs, hk, hl⟩ := K.evolves_actOn ht c
    obtain ⟨u, hu, hid, hkeep, hrise⟩ := ih (K.getElem?_step ht c)
    set x := K.actOn w.nextId j c t
    have hver : (K.view x).stamp.version = (K.view t).stamp.version + k := by
      rw [hs, Stamp.version_touchN]
    refine ⟨u, hu, fun h0 => ?_, fun ⟨hq, hun⟩ => ?_, fun hnot => ?_⟩
    · -- a non-zero identity survives every touch
      rw [hid (by rw [hs, Stamp.id_touchN_of_ne_zero h0]; exact h0), hs,
        Stamp.id_touchN_of_ne_zero h0]
    · have hk0 : k = 0 := hk.2 hq
      obtain ⟨hst, hli⟩ := hkeep hun
      exact ⟨by rw [hst, hs, hk0, Stamp.touchN_zero], by rw [hli, hl hk0]⟩
    · by_cases hq : K.Quiet w j c
      · have hk0 : k = 0 := hk.2 hq
        have hun : ¬K.Untouched (K.step w c) j cs := fun hun => hnot ⟨hq, hun⟩
        have := hrise hun
        omega
      · have hk0 : k ≠ 0 := fun h0 => hq (hk.1 h0)
        by_cases hun : K.Untouched (K.step w c) j cs
        · rw [(hkeep hun).1]
          omega
        · have := hrise hun
          omega

/-! ## What a reachable session keeps -/

/-- The invariant of a session: every collection fits, and no two share an identity. -/
structure Inv (w : World σ) : Prop where
  nextId_pos : 0 < w.nextId
  fits : ∀ (i : Nat) x, w.objs[i]? = some x → (K.view x).Fits w.nextId
  id_inj : ∀ (i i' : Nat) x x', w.objs[i]? = some x → w.objs[i']? = some x' →
    (K.view x).stamp.id ≠ 0 → (K.view x).stamp.id = (K.view x').stamp.id → i = i'

theorem target_of_not_quiet {w : World σ} {j : Nat} {c : Command Ω Μ} (h : ¬K.Quiet w j c) :
    c.target w.objs.length = j := by
  cases c with
  | apply j' op =>
    by_cases hj : j' = j
    · exact hj
    · exact absurd (fun h' => absurd h' hj) h
  | make m => exact absurd trivial h
  | clone i => exact absurd trivial h
  | query => exact absurd trivial h

theorem getElem?_append_toList {l : List σ} {o : Option σ} {i : Nat} {y : σ}
    (h : (l ++ o.toList)[i]? = some y) (hi : ¬i < l.length) : i = l.length ∧ o = some y := by
  rw [List.getElem?_append_right (Nat.le_of_not_lt hi)] at h
  cases o with
  | none => simp at h
  | some z =>
    simp only [Option.toList_some, List.getElem?_cons, List.getElem?_nil] at h
    split at h
    · cases h
      exact ⟨by omega, rfl⟩
    · cases h

variable {w : World σ} {c : Command Ω Μ} {i : Nat} {y : σ}

/-- A collection that was there fits the next bound after a step, and changes its identity
only to the step's own, as the step's target. -/
theorem fits_actOn (hw : K.Inv w) {x : σ} (hx : w.objs[i]? = some x) (c : Command Ω Μ) :
    (K.view (K.actOn w.nextId i c x)).Fits (w.nextId + 1) ∧
      ((K.view (K.actOn w.nextId i c x)).stamp.id = (K.view x).stamp.id ∨
        (K.view (K.actOn w.nextId i c x)).stamp.id = w.nextId ∧
          i = c.target w.objs.length) := by
  obtain ⟨k, hs, hk, hl⟩ := K.evolves_actOn hx c
  refine ⟨(hw.fits i x hx).touchN (Nat.pos_iff_ne_zero.1 hw.nextId_pos) hs hl, ?_⟩
  by_cases hk0 : k = 0
  · exact Or.inl (by rw [hs, hk0, Stamp.touchN_zero])
  · rcases Stamp.id_touchN (K.view x).stamp w.nextId k with hid | ⟨-, hid⟩
    · exact Or.inl (by rw [hs, hid])
    · -- a touch that draws an identity is a step that is not quiet, so it targets `i`
      exact Or.inr ⟨by rw [hs, hid], (K.target_of_not_quiet fun hq => hk0 (hk.2 hq)).symm⟩

/-- A collection that a step adds, made or copied, fits the next bound and has no identity or
the step's own. -/
theorem fits_added (hw : K.Inv w) (hi : ¬i < w.objs.length)
    (h : (K.step w c).objs[i]? = some y) :
    (K.view y).Fits (w.nextId + 1) ∧
      ((K.view y).stamp.id = 0 ∨ (K.view y).stamp.id = w.nextId) ∧
        i = c.target w.objs.length := by
  have hn : w.nextId ≠ 0 := Nat.pos_iff_ne_zero.1 hw.nextId_pos
  cases c with
  | make m =>
    have hnew : (w.objs ++ (some (K.make w.nextId m)).toList)[i]? = some y := h
    obtain ⟨rfl, hy⟩ := getElem?_append_toList hnew hi
    cases hy
    obtain ⟨k, hs, hr⟩ := K.view_make w.nextId m
    refine ⟨AvlSet.Fits.ofTouchN hn hs hr, ?_, rfl⟩
    rcases Stamp.id_touchN ({} : Stamp) w.nextId k with hid | ⟨-, hid⟩ <;> rw [hs, hid]
    · exact Or.inl rfl
    · exact Or.inr rfl
  | clone j =>
    obtain ⟨rfl, hy⟩ := getElem?_append_toList h hi
    obtain ⟨x, hx, rfl⟩ := Option.map_eq_some_iff.1 hy
    obtain ⟨hs, hr⟩ := K.view_copy x w.nextId
    refine ⟨(hw.fits j x hx).copy hn hs hr, ?_, rfl⟩
    rw [hs]
    exact Stamp.id_copy _ _
  | apply j op =>
    simp only [step, List.getElem?_modify] at h
    rw [List.getElem?_eq_none (Nat.le_of_not_lt hi)] at h
    cases h
  | query =>
    simp only [step] at h
    rw [List.getElem?_eq_none (Nat.le_of_not_lt hi)] at h
    cases h

/-- What a step makes of the collection at index `i`: it fits the next bound, and its identity
is the one held at `i` before, or none, or the step's own, which only the step's target takes. -/
theorem fits_step (hw : K.Inv w) (h : (K.step w c).objs[i]? = some y) :
    (K.view y).Fits (w.nextId + 1) ∧
      ((∃ x, w.objs[i]? = some x ∧ (K.view y).stamp.id = (K.view x).stamp.id) ∨
        ((K.view y).stamp.id = 0 ∨ (K.view y).stamp.id = w.nextId) ∧
          i = c.target w.objs.length) := by
  by_cases hi : i < w.objs.length
  · have hx : w.objs[i]? = some w.objs[i] := List.getElem?_eq_getElem hi
    generalize w.objs[i] = x at hx
    rw [K.getElem?_step hx c] at h
    cases h
    obtain ⟨hfit, hid | ⟨hid, ht⟩⟩ := K.fits_actOn hw hx c
    · exact ⟨hfit, Or.inl ⟨x, hx, hid⟩⟩
    · exact ⟨hfit, Or.inr ⟨Or.inr hid, ht⟩⟩
  · obtain ⟨hfit, hid, ht⟩ := K.fits_added hw hi h
    exact ⟨hfit, Or.inr ⟨hid, ht⟩⟩

theorem Inv.step (hw : K.Inv w) (c : Command Ω Μ) : K.Inv (K.step w c) where
  nextId_pos := by
    rw [step_nextId]
    omega
  fits i y h := by
    rw [step_nextId]
    exact (K.fits_step hw h).1
  id_inj i i' y y' h h' hne heq := by
    rcases (K.fits_step hw h).2 with ⟨x, hx, hid⟩ | ⟨hid, hi⟩ <;>
      rcases (K.fits_step hw h').2 with ⟨x', hx', hid'⟩ | ⟨hid', hi'⟩
    · exact hw.id_inj i i' x x' hx hx' (hid ▸ hne) (hid ▸ hid' ▸ heq)
    · -- an identity held before is below the step's own
      have := (hw.fits i x hx).id_lt
      omega
    · have := (hw.fits i' x' hx').id_lt
      omega
    · rw [hi, hi']

theorem Reachable.inv {w : World σ} (h : K.Reachable w) : K.Inv w := by
  induction h with
  | start objs hobjs =>
    refine ⟨Nat.one_pos, fun i x hx => ?_, fun i i' x x' hx _ hne _ => ?_⟩
    · obtain ⟨hs, hr⟩ := hobjs x (List.mem_of_getElem? hx)
      exact ⟨hs ▸ Stamp.sound_default, fun _ => hr, by rw [hs]; exact Nat.one_pos⟩
    · exact absurd (by rw [(hobjs x (List.mem_of_getElem? hx)).1]) hne
  | step c _ ih => exact ih.step K c

/-! ## The check of a cursor -/

section Check

variable {j : Nat} {t : σ} {c : Cursor}

/-- A cursor without an identity comes from a collection without one, which is empty: it is a
sentinel. -/
theorem isSentinel_of_id_eq_zero (hw : K.Inv w) (ht : w.objs[j]? = some t)
    (hc : (K.view t).Issues c) (h0 : c.stamp.id = 0) : c.position.isSentinel := by
  have hfit := hw.fits j t ht
  have hnil : (K.view t).root = .nil := hfit.empty (hfit.sound.1 (hc.1 ▸ h0))
  cases hpos : c.position with
  | node n =>
    have hn := hc.2 n hpos
    rw [hnil] at hn
    cases hn
  | preBegin => rfl
  | pastEnd => rfl

variable (cs : List (Command Ω Μ)) {j' : Nat} {u : σ}

/-- A cursor with an identity passes the check against a collection after a run only if the
collection is the one that handed it out and made no structural change since. -/
theorem untouched_of_check (hw : K.Reachable w) (ht : w.objs[j]? = some t)
    (hc : (K.view t).Issues c) (h0 : c.stamp.id ≠ 0) (hu : (K.run w cs).objs[j']? = some u)
    (hck : c.stamp.check (K.view u).stamp = .ok ()) :
    j' = j ∧ K.Untouched w j cs ∧ (K.view u).root.links = (K.view t).root.links := by
  obtain ⟨hid, hver⟩ := (Stamp.check_eq_ok_iff _ _).1 hck
  obtain ⟨u₀, hu₀, hid₀, hkeep, hrise⟩ := K.run_evolves ht cs
  have ht0 : (K.view t).stamp.id ≠ 0 := hc.1 ▸ h0
  -- the identity is the one of collection `j`, kept along the run and held by no other
  have hsame : (K.view u).stamp.id = (K.view u₀).stamp.id := by
    rw [← hid.resolve_left h0, hid₀ ht0, hc.1]
  have hj : j' = j := (hw.run K cs).inv.id_inj j' j u u₀ hu hu₀ (hid.resolve_left h0 ▸ h0) hsame
  subst hj
  rw [hu] at hu₀
  cases hu₀
  -- a structural change would have raised the version past the cursor's
  have hun : K.Untouched w j' cs := by
    refine Classical.byContradiction fun hnot => ?_
    have hlt := hrise hnot
    rw [← hver, hc.1] at hlt
    exact Nat.lt_irrefl _ hlt
  exact ⟨rfl, hun, (hkeep hun).2⟩

/-- **The check of a cursor.** A cursor handed out by collection `j` is accepted by collection
`j'` after any run exactly when `j'` is `j` and made no structural change since, or the cursor
has no identity and the collection is at version 0. -/
theorem locate_ok_iff (hw : K.Reachable w) (ht : w.objs[j]? = some t)
    (hc : (K.view t).Issues c) (hu : (K.run w cs).objs[j']? = some u) :
    (∃ r, (K.view u).locate c = .ok r) ↔
      j' = j ∧ K.Untouched w j cs ∨ c.stamp.id = 0 ∧ (K.view u).stamp.version = 0 := by
  have hsound : c.stamp.Sound := hc.1 ▸ (hw.inv.fits j t ht).sound
  constructor
  · rintro ⟨r, hr⟩
    have hck := AvlSet.check_of_locate hr
    by_cases h0 : c.stamp.id = 0
    · have hv := ((Stamp.check_eq_ok_iff _ _).1 hck).2
      exact Or.inr ⟨h0, by rw [← hv]; exact hsound.1 h0⟩
    · obtain ⟨hj, hun, -⟩ := K.untouched_of_check cs hw ht hc h0 hu hck
      exact Or.inl ⟨hj, hun⟩
  · rintro (⟨rfl, hun⟩ | ⟨h0, hv⟩)
    · -- untouched: the same stamp and links as when the cursor was handed out
      obtain ⟨u₀, hu₀, -, hkeep, -⟩ := K.run_evolves ht cs
      rw [hu] at hu₀
      cases hu₀
      obtain ⟨hs, hl⟩ := hkeep hun
      refine AvlSet.locate_of_check (by rw [hs, ← hc.1]; exact Stamp.check_self _) fun n hn => ?_
      rw [Tree.slots_eq_of_links_eq hl]
      exact hc.2 n hn
    · have hck : c.stamp.check (K.view u).stamp = .ok () :=
        (Stamp.check_eq_ok_iff _ _).2 ⟨Or.inl h0, by rw [hv]; exact hsound.1 h0⟩
      exact ⟨none, AvlSet.locate_sentinel_of_check hck (K.isSentinel_of_id_eq_zero hw.inv ht hc h0)⟩

/-- Once the check passes, a cursor on a node finds the links it was made on and is located at
the path its node had when the cursor was handed out. -/
theorem locate_node_of_check_run (hw : K.Reachable w) (ht : w.objs[j]? = some t)
    (hc : (K.view t).Issues c) (hu : (K.run w cs).objs[j']? = some u) {n : Nat}
    (hpos : c.position = .node n) (hck : c.stamp.check (K.view u).stamp = .ok ()) :
    (K.view u).root.links = (K.view t).root.links ∧
      ∃ p, (K.view t).root.pathTo? n = some p ∧ (K.view u).locate c = .ok (some p) := by
  have h0 : c.stamp.id ≠ 0 := fun h0 => by
    have hs := K.isSentinel_of_id_eq_zero hw.inv ht hc h0
    rw [hpos] at hs
    cases hs
  obtain ⟨-, -, hl⟩ := K.untouched_of_check cs hw ht hc h0 hu hck
  obtain ⟨p, hp⟩ := Tree.pathTo?_of_mem (hc.2 n hpos)
  refine ⟨hl, p, hp, AvlSet.locate_node_of_check hck hpos ?_⟩
  rw [Tree.pathTo?_eq_of_links_eq hl, hp]

end Check

/-- What the cursor checks of a session satisfy, for a cursor `c` that collection `j` of a
reachable session hands out and any collection `j'` after any run. -/
structure ChecksSound : Prop where
  sound : ∀ {w : World σ} {i : Nat} {x : σ}, K.Reachable w → w.objs[i]? = some x →
    (K.view x).stamp.Sound
  locate_ok_iff : ∀ {w : World σ} {j : Nat} {t : σ} {c : Cursor} {cs : List (Command Ω Μ)}
    {j' : Nat} {u : σ}, K.Reachable w → w.objs[j]? = some t → (K.view t).Issues c →
    (K.run w cs).objs[j']? = some u →
    ((∃ r, (K.view u).locate c = .ok r) ↔
      j' = j ∧ K.Untouched w j cs ∨ c.stamp.id = 0 ∧ (K.view u).stamp.version = 0)
  isSentinel : ∀ {w : World σ} {j : Nat} {t : σ} {c : Cursor}, K.Reachable w →
    w.objs[j]? = some t → (K.view t).Issues c → c.stamp.id = 0 → c.position.isSentinel
  locate_node : ∀ {w : World σ} {j : Nat} {t : σ} {c : Cursor} {cs : List (Command Ω Μ)}
    {j' : Nat} {u : σ} {n : Nat}, K.Reachable w → w.objs[j]? = some t →
    (K.view t).Issues c → (K.run w cs).objs[j']? = some u → c.position = .node n →
    c.stamp.check (K.view u).stamp = .ok () →
    (K.view u).root.links = (K.view t).root.links ∧
      ∃ p, (K.view t).root.pathTo? n = some p ∧ (K.view u).locate c = .ok (some p)

theorem checksSound : K.ChecksSound where
  sound hw hx := (hw.inv.fits _ _ hx).sound
  locate_ok_iff hw ht hc hu := K.locate_ok_iff _ hw ht hc hu
  isSentinel hw ht hc h0 := K.isSentinel_of_id_eq_zero hw.inv ht hc h0
  locate_node hw ht hc hu hpos hck := K.locate_node_of_check_run _ hw ht hc hu hpos hck

/-! ## Two kinds of collection in one session -/

variable {σ₂ β₂ Ω₂ Μ₂ : Type}

/-- Two kinds of collection kept in one session and seen through their frames; an operation of
one kind leaves a collection of the other as it is. -/
def sum (K₂ : Keeper σ₂ β₂ Ω₂ Μ₂) : Keeper (σ ⊕ σ₂) Unit (Ω ⊕ Ω₂) (Μ ⊕ Μ₂) where
  view := Sum.elim (fun x => (K.view x).frame) (fun x => (K₂.view x).frame)
  copy x fresh := Sum.map (K.copy · fresh) (K₂.copy · fresh) x
  make fresh := Sum.map (K.make fresh) (K₂.make fresh)
  apply fresh x op := match x, op with
    | .inl x, .inl op => .inl (K.apply fresh x op)
    | .inr x, .inr op => .inr (K₂.apply fresh x op)
    | x, _ => x
  clears x op := match x, op with
    | .inl x, .inl op => K.clears x op
    | .inr x, .inr op => K₂.clears x op
    | _, _ => false
  view_copy x fresh := by
    cases x with
    | inl x => exact ⟨(K.view_copy x fresh).1, congrArg Tree.links (K.view_copy x fresh).2⟩
    | inr x => exact ⟨(K₂.view_copy x fresh).1, congrArg Tree.links (K₂.view_copy x fresh).2⟩
  view_make fresh m := by
    cases m with
    | inl m =>
      obtain ⟨k, hs, hr⟩ := K.view_make fresh m
      exact ⟨k, hs, fun hk => by simp [hr hk]⟩
    | inr m =>
      obtain ⟨k, hs, hr⟩ := K₂.view_make fresh m
      exact ⟨k, hs, fun hk => by simp [hr hk]⟩
  view_apply fresh x op := by
    cases x <;> cases op
    · exact (K.view_apply fresh _ _).frame
    · exact AvlSet.Evolves.of_keep rfl rfl
    · exact AvlSet.Evolves.of_keep rfl rfl
    · exact (K₂.view_apply fresh _ _).frame

end Keeper

end AvlCollections
