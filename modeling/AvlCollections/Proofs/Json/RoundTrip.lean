import AvlCollections.Proofs.Json.Reading
import AvlCollections.Proofs.Set.SortedList
import AvlCollections.Proofs.MultiMap.SortedPairs

/-! # Sets and maps read back from JSON

Reading a set folds `AvlSet.readStep` over the elements, and reading a map folds
`MultiMap.readStep` over the members (`ofJson_arrayText`, `ofJson_objectText`). Here the folds
are solved: from a
set or a map that the operations could have built, the elements or members are all taken
exactly when they are pairwise inequivalent, and inequivalent to what is stored (for maps,
with no empty list of values); the result then holds them in order, and otherwise the first
refused one gives the error. The text that `toJson` writes is made of texts that lawful codecs
read back, in ascending order, so it is read back as the collection it came from; two
ascending lists with the same members being equal.
-/

namespace AvlCollections

open Json

variable {α : Type} {cmp : α → α → Ordering}

/-- Two lists with the same members, ascending in the same view, are equal. -/
theorem Ascending.eq_of_perm [Std.OrientedCmp cmp] {β : Type} {f : β → α} {xs ys : List β}
    (hx : Ascending cmp (xs.map f)) (hy : Ascending cmp (ys.map f)) (h : xs.Perm ys) : xs = ys :=
  h.eq_of_pairwise (fun a b _ _ hab hba => absurd (Std.OrientedCmp.gt_of_lt hab) (by simp [hba]))
    (List.pairwise_map.1 hx) (List.pairwise_map.1 hy)

theorem Ascending.pairwise_ne {xs : List α} (h : Ascending cmp xs) :
    xs.Pairwise (cmp · · ≠ .eq) :=
  h.imp fun hab => by simp [hab]

namespace AvlSet

variable {s : AvlSet α}

theorem readStep_of_forall_ne [Std.TransCmp s.cmp] (hv : s.Valid) {x : α}
    (hx : ∀ y ∈ s.toList, s.cmp x y ≠ .eq) (fresh : Nat) :
    readStep fresh s x = .ok (s.add x fresh).2 ∧ (s.add x fresh).2.toList.Perm (x :: s.toList) := by
  obtain ⟨hlist, c, hok, -⟩ := add_of_forall_ne hv hx fresh
  refine ⟨?_, hlist ▸ List.perm_orderedInsert _ _ _⟩
  rw [readStep, show s.add x fresh = (.ok c, (s.add x fresh).2) from Prod.ext hok rfl]

theorem readStep_of_equiv [Std.TransCmp s.cmp] (hv : s.Valid) (hp : s.policy = .reject) {x y : α}
    (hy : y ∈ s.toList) (e : s.cmp x y = .eq) (fresh : Nat) :
    readStep fresh s x = .error (.data Error.duplicateKey.message) := by
  rw [readStep, add_of_equiv_reject hv hy e hp fresh]

section
variable [Std.TransCmp cmp]

/-- Elements pairwise inequivalent, and to those of the set, are all read into it. -/
theorem foldlM_readStep_ok (h : Reachable cmp s) (hp : s.policy = .reject) {xs : List α}
    (hx : (s.toList ++ xs).Pairwise (cmp · · ≠ .eq)) (fresh : Nat) :
    ∃ s', xs.foldlM (readStep fresh) s = .ok s' ∧ Reachable cmp s' ∧
      s'.toList.Perm (s.toList ++ xs) := by
  induction xs generalizing s with
  | nil => exact ⟨s, rfl, h, by simp⟩
  | cons x xs ih =>
    have hc := h.cmp_eq
    have : Std.TransCmp s.cmp := hc ▸ inferInstance
    have hnew : ∀ y ∈ s.toList, s.cmp x y ≠ .eq := fun y hy e =>
      (List.pairwise_append.1 hx).2.2 y hy x List.mem_cons_self
        (Std.OrientedCmp.eq_symm (hc ▸ e))
    obtain ⟨hstep, hperm⟩ := readStep_of_forall_ne h.valid hnew fresh
    have hperm' : ((s.add x fresh).2.toList ++ xs).Perm (s.toList ++ x :: xs) :=
      (hperm.append_right xs).trans List.perm_middle.symm
    have symm : ∀ {a b : α}, cmp a b ≠ .eq → cmp b a ≠ .eq :=
      fun hab hba => hab (Std.OrientedCmp.eq_symm hba)
    obtain ⟨s', hs', hr', hperm''⟩ := ih (h.add x fresh) ((add_snd_cmp_policy s x fresh).2.trans hp)
      ((hperm'.pairwise_iff symm).2 hx)
    refine ⟨s', ?_, hr', hperm''.trans hperm'⟩
    rw [List.foldlM_cons, hstep]
    exact hs'

/-- Elements of which two are equivalent, or one to an element of the set, are refused as
duplicates. -/
theorem foldlM_readStep_error (h : Reachable cmp s) (hp : s.policy = .reject) {xs : List α}
    (hx : ¬(s.toList ++ xs).Pairwise (cmp · · ≠ .eq)) (fresh : Nat) :
    xs.foldlM (readStep fresh) s = .error (.data Error.duplicateKey.message) := by
  induction xs generalizing s with
  | nil =>
    have hasc : Ascending cmp s.toList := h.cmp_eq ▸ h.valid.ascending
    exact absurd (by simpa using hasc.pairwise_ne) hx
  | cons x xs ih =>
    have hc := h.cmp_eq
    have : Std.TransCmp s.cmp := hc ▸ inferInstance
    by_cases hdup : ∃ y ∈ s.toList, s.cmp x y = .eq
    · obtain ⟨y, hy, e⟩ := hdup
      rw [List.foldlM_cons, readStep_of_equiv h.valid hp hy e fresh]
      rfl
    · have hnew : ∀ y ∈ s.toList, s.cmp x y ≠ .eq := fun y hy e => hdup ⟨y, hy, e⟩
      obtain ⟨hstep, hperm⟩ := readStep_of_forall_ne h.valid hnew fresh
      have hperm' : ((s.add x fresh).2.toList ++ xs).Perm (s.toList ++ x :: xs) :=
        (hperm.append_right xs).trans List.perm_middle.symm
      have symm : ∀ {a b : α}, cmp a b ≠ .eq → cmp b a ≠ .eq :=
        fun hab hba => hab (Std.OrientedCmp.eq_symm hba)
      rw [List.foldlM_cons, hstep]
      exact ih (h.add x fresh) ((add_snd_cmp_policy s x fresh).2.trans hp)
        (fun hx' => hx ((hperm'.pairwise_iff symm).1 hx'))

end

/-- What reading the elements `xs` in turn into an empty set ordered by `cmp` gives: when no
two are equivalent, a set of them in ascending order that the operations could have built, and
otherwise the duplicate error. -/
def ReadsSet (cmp : α → α → Ordering) (xs : List α) : Except ReadError (AvlSet α) → Prop
  | .ok s => xs.Pairwise (cmp · · ≠ .eq) ∧ s.toList.Perm xs ∧ Ascending cmp s.toList ∧
      Reachable cmp s
  | .error e => ¬xs.Pairwise (cmp · · ≠ .eq) ∧ e = .data Error.duplicateKey.message

/-- A sequence of texts that read as `xs` is read as the set of `xs`, or refused for a
duplicate. -/
theorem readsSet_ofJson [Codec α] [Std.TransCmp cmp] {xs : List α} {chunks : List (List Char)}
    (hs : List.Forall₂ (ReadsAs Codec.read) xs chunks) {pre post : List Char}
    (hpre : ∀ c ∈ pre, isBlank c = true) (hpost : ∀ c ∈ post, isBlank c = true) (fresh : Nat) :
    ReadsSet cmp xs (ofJson cmp fresh (String.ofList (pre ++ arrayText chunks ++ post))) := by
  rw [ofJson_arrayText hs hpre hpost]
  have h0 : Reachable cmp (empty cmp 0) := .empty 0
  have hnil : (empty cmp 0).toList ++ xs = xs := rfl
  by_cases hx : xs.Pairwise (cmp · · ≠ .eq)
  · obtain ⟨s, hs, hr, hperm⟩ := foldlM_readStep_ok h0 rfl (hnil ▸ hx) fresh
    rw [hs]
    exact ⟨hx, hnil ▸ hperm, hr.cmp_eq ▸ hr.valid.ascending, hr⟩
  · rw [foldlM_readStep_error h0 rfl (hnil ▸ hx) fresh]
    exact ⟨hx, rfl⟩

theorem toList_toJson [Codec α] (s : AvlSet α) :
    s.toJson.toList = arrayText (s.toList.map fun x => (Codec.write x).toList) := by
  simp [toJson, arrayText, String.toList_intercalate, Function.comp_def]

/-- A set that the operations built is read back from its text, element for element. -/
theorem ofJson_toJson [Codec α] [Codec.Lawful α] [Std.TransCmp cmp] {t : AvlSet α}
    (h : Reachable cmp t) (fresh : Nat) :
    ∃ t', ofJson cmp fresh t.toJson = .ok t' ∧ t'.toList = t.toList ∧ Reachable cmp t' := by
  have hs : List.Forall₂ (ReadsAs Codec.read) t.toList
      (t.toList.map fun x => (Codec.write x).toList) :=
    List.forall₂_map_right_iff.2 (List.forall₂_same.2 fun x _ => Codec.Lawful.reads_write x)
  have hasc : Ascending cmp t.toList := h.cmp_eq ▸ h.valid.ascending
  have hread : ReadsSet cmp t.toList (ofJson cmp fresh (String.ofList ([] ++ arrayText
      (t.toList.map fun x => (Codec.write x).toList) ++ []))) :=
    readsSet_ofJson hs (by simp) (by simp) fresh
  rw [List.nil_append, List.append_nil, ← toList_toJson, String.ofList_toList] at hread
  cases hr : ofJson cmp fresh t.toJson with
  | error e =>
    rw [hr] at hread
    exact absurd hasc.pairwise_ne hread.1
  | ok t' =>
    rw [hr] at hread
    obtain ⟨-, hperm, hasc', hr'⟩ := hread
    exact ⟨t', rfl,
      Ascending.eq_of_perm (f := id) (by simpa using hasc') (by simpa using hasc) hperm, hr'⟩

end AvlSet

namespace Entry

variable {κ ν : Type}

theorem pair_injective : Function.Injective (pair : Entry κ ν → κ × List ν) := by
  rintro ⟨k, vs, h⟩ ⟨k', vs', h'⟩ he
  simp only [pair, Prod.mk.injEq] at he
  obtain ⟨rfl, rfl⟩ := he
  rfl

end Entry

namespace MultiMap

variable {κ ν : Type} {keyCmp : κ → κ → Ordering} {m : MultiMap κ ν}

theorem insertEntry_of_forall_ne [Std.TransCmp m.keyCmp] (hv : m.Valid) {e : Entry κ ν}
    (he : ∀ y ∈ m.toList, m.keyCmp e.key y.key ≠ .eq) (fresh : Nat) :
    ∃ m', m.insertEntry e fresh = some m' ∧ m'.Valid ∧ m'.keyCmp = m.keyCmp ∧
      m'.pairs.Perm (e.pair :: m.pairs) := by
  have : Std.TransCmp m.entries.cmp := inferInstanceAs (Std.TransCmp (Entry.byKey m.keyCmp))
  obtain ⟨slot, s, hp⟩ := AvlSet.place_added_of_forall_ne hv he fresh
  obtain ⟨hlist, -⟩ := AvlSet.toList_place_added hv hp
  refine ⟨m.withEntries s, by simp [insertEntry, hp], hv.place hp, rfl, ?_⟩
  rw [pairs, toList_withEntries, hlist]
  exact (List.perm_orderedInsert _ _ _).map Entry.pair

theorem insertEntry_of_equiv [Std.TransCmp m.keyCmp] (hv : m.Valid) {e y : Entry κ ν}
    (hy : y ∈ m.toList) (h : m.keyCmp e.key y.key = .eq) (fresh : Nat) :
    m.insertEntry e fresh = none := by
  have : Std.TransCmp m.entries.cmp := inferInstanceAs (Std.TransCmp (Entry.byKey m.keyCmp))
  cases hp : m.entries.place e fresh with
  | added slot s => exact absurd h ((AvlSet.toList_place_added hv hp).2 y hy)
  | found slot p => simp [insertEntry, hp]

theorem readStep_nil (fresh : Nat) (m : MultiMap κ ν) (k : κ) :
    readStep fresh m (k, []) = .error (.data emptyValuesMessage) := by
  simp [readStep, Entry.ofValues?]

theorem readStep_of_forall_ne [Std.TransCmp m.keyCmp] (hv : m.Valid) {k : κ} {vs : List ν}
    (hvs : vs ≠ []) (hk : ∀ y ∈ m.toList, m.keyCmp k y.key ≠ .eq) (fresh : Nat) :
    ∃ m', readStep fresh m (k, vs) = .ok m' ∧ m'.Valid ∧ m'.keyCmp = m.keyCmp ∧
      m'.pairs.Perm ((k, vs) :: m.pairs) := by
  obtain ⟨m', hins, hv', hc, hperm⟩ := insertEntry_of_forall_ne hv (e := ⟨k, vs, hvs⟩) hk fresh
  exact ⟨m', by simp [readStep, Entry.ofValues?, hvs, hins], hv', hc, hperm⟩

theorem readStep_of_equiv [Std.TransCmp m.keyCmp] (hv : m.Valid) {k : κ} {vs : List ν}
    (hvs : vs ≠ []) {y : Entry κ ν} (hy : y ∈ m.toList) (h : m.keyCmp k y.key = .eq)
    (fresh : Nat) : readStep fresh m (k, vs) = .error (.data "duplicate key") := by
  have hins := insertEntry_of_equiv hv (e := ⟨k, vs, hvs⟩) hy h fresh
  simp [readStep, Entry.ofValues?, hvs, hins]

/-- The keys of the pairs are pairwise inequivalent and each list of values is a list of
some. -/
def Admits (keyCmp : κ → κ → Ordering) (kvs : KeyValues κ ν) : Prop :=
  (kvs.map Prod.fst).Pairwise (keyCmp · · ≠ .eq) ∧ ∀ kv ∈ kvs, kv.2 ≠ []

section Fold

variable [Std.TransCmp keyCmp]

theorem Admits.perm {kvs kvs' : KeyValues κ ν} (h : kvs.Perm kvs') :
    Admits keyCmp kvs ↔ Admits keyCmp kvs' := by
  have symm : ∀ {a b : κ}, keyCmp a b ≠ .eq → keyCmp b a ≠ .eq :=
    fun hab hba => hab (Std.OrientedCmp.eq_symm hba)
  rw [Admits, Admits, (h.map Prod.fst).pairwise_iff symm]
  exact and_congr_right' ⟨fun hne kv hkv => hne kv (h.mem_iff.2 hkv),
    fun hne kv hkv => hne kv (h.mem_iff.1 hkv)⟩

theorem Valid.admits (hv : m.Valid) : Admits m.keyCmp m.pairs := by
  refine ⟨?_, fun kv hkv => ?_⟩
  · rw [map_fst_pairs]
    exact (ascending_keys hv).pairwise_ne
  · obtain ⟨e, -, rfl⟩ := List.mem_map.1 hkv
    exact e.nonempty

theorem Admits.forall_ne {k : κ} {vs : List ν} {kvs : KeyValues κ ν}
    (h : Admits keyCmp (m.pairs ++ (k, vs) :: kvs)) : ∀ y ∈ m.toList, keyCmp k y.key ≠ .eq := by
  intro y hy e
  have hkeys := h.1
  rw [List.map_append, List.pairwise_append, map_fst_pairs] at hkeys
  exact hkeys.2.2 y.key (List.mem_map_of_mem hy) k (by simp) (Std.OrientedCmp.eq_symm e)

/-- Members whose keys are inequivalent, to each other and to those of the map, and whose
lists of values are not empty, are all read into the map. -/
theorem foldlM_readStep_ok (hc : m.keyCmp = keyCmp) (hv : m.Valid) {kvs : KeyValues κ ν}
    (h : Admits keyCmp (m.pairs ++ kvs)) (fresh : Nat) :
    ∃ m', kvs.foldlM (readStep fresh) m = .ok m' ∧ m'.Valid ∧ m'.keyCmp = keyCmp ∧
      m'.pairs.Perm (m.pairs ++ kvs) := by
  induction kvs generalizing m with
  | nil => exact ⟨m, rfl, hv, hc, by simp⟩
  | cons kv kvs ih =>
    obtain ⟨k, vs⟩ := kv
    have : Std.TransCmp m.keyCmp := hc ▸ inferInstance
    obtain ⟨m1, hstep, hv1, hc1, hperm⟩ :=
      readStep_of_forall_ne hv (h.2 (k, vs) (by simp)) (hc ▸ h.forall_ne) fresh
    have hperm' : (m1.pairs ++ kvs).Perm (m.pairs ++ (k, vs) :: kvs) :=
      (hperm.append_right kvs).trans List.perm_middle.symm
    obtain ⟨m', hfold, hv', hc', hperm''⟩ :=
      ih (hc1.trans hc) hv1 ((Admits.perm hperm').2 h)
    refine ⟨m', ?_, hv', hc', hperm''.trans hperm'⟩
    rw [List.foldlM_cons, hstep]
    exact hfold

/-- Otherwise the first refused member ends the reading: its list of values is empty, or its
key is taken. -/
theorem foldlM_readStep_error (hc : m.keyCmp = keyCmp) (hv : m.Valid) {kvs : KeyValues κ ν}
    (h : ¬Admits keyCmp (m.pairs ++ kvs)) (fresh : Nat) :
    kvs.foldlM (readStep fresh) m = .error (.data emptyValuesMessage) ∨
      kvs.foldlM (readStep fresh) m = .error (.data "duplicate key") := by
  induction kvs generalizing m with
  | nil => exact absurd (by simpa [hc] using hv.admits) h
  | cons kv kvs ih =>
    obtain ⟨k, vs⟩ := kv
    have : Std.TransCmp m.keyCmp := hc ▸ inferInstance
    rw [List.foldlM_cons]
    by_cases hvs : vs = []
    · subst hvs
      rw [readStep_nil]
      exact .inl rfl
    by_cases hdup : ∃ y ∈ m.toList, m.keyCmp k y.key = .eq
    · obtain ⟨y, hy, e⟩ := hdup
      rw [readStep_of_equiv hv hvs hy e]
      exact .inr rfl
    have hk : ∀ y ∈ m.toList, m.keyCmp k y.key ≠ .eq := fun y hy e => hdup ⟨y, hy, e⟩
    obtain ⟨m1, hstep, hv1, hc1, hperm⟩ := readStep_of_forall_ne hv hvs hk fresh
    have hperm' : (m1.pairs ++ kvs).Perm (m.pairs ++ (k, vs) :: kvs) :=
      (hperm.append_right kvs).trans List.perm_middle.symm
    rw [hstep]
    exact ih (hc1.trans hc) hv1 (fun h' => h ((Admits.perm hperm').1 h'))

end Fold

/-- What reading the members `kvs` in turn into an empty map ordered by `keyCmp` gives: when
their keys are pairwise inequivalent and no list of values is empty, a map of them in key
order that behaves as its pairs; otherwise the error of the first member refused. -/
def ReadsMap [BEq ν] (keyCmp : κ → κ → Ordering) (kvs : KeyValues κ ν) :
    Except ReadError (MultiMap κ ν) → Prop
  | .ok m => Admits keyCmp kvs ∧ m.keyCmp = keyCmp ∧ m.pairs.Perm kvs ∧ m.SortedPairs keyCmp
  | .error e => ¬Admits keyCmp kvs ∧
      (e = .data emptyValuesMessage ∨ e = .data "duplicate key")

/-- An object of texts that read as keys and lists of values is read as the map of those
members, or refused at the first empty list of values or taken key. -/
theorem readsMap_ofJson [Codec κ] [Codec ν] [BEq ν] [Std.TransCmp keyCmp]
    {kvs : KeyValues κ ν} {members : List (List Char × List Char)}
    (hs : List.Forall₂ MemberReadsAs kvs members) {pre post : List Char}
    (hpre : ∀ c ∈ pre, isBlank c = true) (hpost : ∀ c ∈ post, isBlank c = true) (fresh : Nat) :
    ReadsMap keyCmp kvs
      (ofJson keyCmp fresh (String.ofList (pre ++ objectText members ++ post))) := by
  rw [ofJson_objectText hs hpre hpost]
  have hnil : (empty keyCmp : MultiMap κ ν).pairs ++ kvs = kvs := rfl
  have hc0 : (empty keyCmp : MultiMap κ ν).keyCmp = keyCmp := rfl
  by_cases h : Admits keyCmp kvs
  · obtain ⟨m, hm, hv, hc, hperm⟩ := foldlM_readStep_ok hc0 (Valid.empty keyCmp) (hnil ▸ h) fresh
    have : Std.TransCmp m.keyCmp := hc ▸ inferInstance
    rw [hm]
    exact ⟨h, hc, hnil ▸ hperm, hc ▸ hv.sortedPairs⟩
  · rcases foldlM_readStep_error hc0 (Valid.empty keyCmp) (hnil ▸ h) fresh with he | he <;>
      rw [he]
    · exact ⟨h, .inl rfl⟩
    · exact ⟨h, .inr rfl⟩

theorem toList_toJson [Codec κ] [Codec ν] (m : MultiMap κ ν) :
    m.toJson.toList = objectText (m.toList.map fun e =>
      ((Codec.writeKey e.key).toList, arrayText (e.values.map fun v => (Codec.write v).toList))) := by
  simp [toJson, objectText, arrayText, String.toList_intercalate, Function.comp_def]

/-- A map that the operations built is read back from its text, entry for entry. -/
theorem ofJson_toJson [Codec κ] [Codec ν] [Codec.Lawful κ] [Codec.Lawful ν] [BEq ν]
    [Std.TransCmp keyCmp] (h : Reachable keyCmp m) (fresh : Nat) :
    ∃ m', ofJson keyCmp fresh m.toJson = .ok m' ∧ m'.toList = m.toList ∧
      m'.SortedPairs keyCmp := by
  have hs : List.Forall₂ MemberReadsAs m.pairs (m.toList.map fun e =>
      ((Codec.writeKey e.key).toList, arrayText (e.values.map fun v => (Codec.write v).toList))) := by
    rw [pairs, List.forall₂_map_left_iff, List.forall₂_map_right_iff]
    refine List.forall₂_same.2 fun e _ => ⟨Codec.Lawful.reads_writeKey e.key, ?_⟩
    have hvs :
        ValuesAs e.values ([] ++ arrayText (e.values.map fun v => (Codec.write v).toList) ++ []) :=
      valuesAs_arrayText
        (List.forall₂_map_right_iff.2 (List.forall₂_same.2 fun v _ => Codec.Lawful.reads_write v))
        (by simp) (by simp)
    simpa using hvs
  have hv := h.valid
  have hasc : Ascending keyCmp (m.pairs.map Prod.fst) := by
    rw [map_fst_pairs, ← h.keyCmp_eq]
    exact ascending_keys hv
  have hread : ReadsMap keyCmp m.pairs (ofJson keyCmp fresh (String.ofList ([] ++ objectText
      (m.toList.map fun e => ((Codec.writeKey e.key).toList,
        arrayText (e.values.map fun v => (Codec.write v).toList))) ++ []))) :=
    readsMap_ofJson hs (by simp) (by simp) fresh
  rw [List.nil_append, List.append_nil, ← toList_toJson, String.ofList_toList] at hread
  cases hr : (ofJson keyCmp fresh m.toJson : Except ReadError (MultiMap κ ν)) with
  | error e =>
    rw [hr] at hread
    refine absurd ⟨hasc.pairwise_ne, fun kv hkv => ?_⟩ hread.1
    obtain ⟨e, -, rfl⟩ := List.mem_map.1 hkv
    exact e.nonempty
  | ok m' =>
    rw [hr] at hread
    obtain ⟨-, -, hperm, hsp⟩ := hread
    have hpairs : m'.pairs = m.pairs := Ascending.eq_of_perm hsp.ascending hasc hperm
    exact ⟨m', rfl, (List.map_injective_iff.2 Entry.pair_injective) hpairs, hsp⟩

end MultiMap

namespace Json

/-- How sets and maps are written to JSON and read back: `α` is the type of the elements of
sets, `κ` and `ν` those of the keys and values of maps. -/
structure CollectionLaws (α κ ν : Type) [Codec α] [Codec κ] [Codec ν] [BEq ν] : Prop where
  /-- A set built by the operations is read back from its text, under its own order. -/
  set_round_trip : ∀ (cmp : α → α → Ordering) [Std.TransCmp cmp] (t : AvlSet α) (fresh : Nat),
    AvlSet.Reachable cmp t → ∃ t', AvlSet.ofJson cmp fresh t.toJson = .ok t' ∧
      t'.toList = t.toList ∧ AvlSet.Reachable cmp t'
  /-- A map built by the operations is read back from its text, under its own key order. -/
  map_round_trip : ∀ (keyCmp : κ → κ → Ordering) [Std.TransCmp keyCmp] (m : MultiMap κ ν)
    (fresh : Nat), MultiMap.Reachable keyCmp m → ∃ m', MultiMap.ofJson keyCmp fresh m.toJson =
      .ok m' ∧ m'.toList = m.toList ∧ m'.SortedPairs keyCmp
  /-- A sequence of element texts is read as the set of its elements, or refused when two are
  equivalent. -/
  set_read : ∀ (cmp : α → α → Ordering) [Std.TransCmp cmp] (xs : List α)
    (chunks : List (List Char)) (pre post : List Char) (fresh : Nat),
    List.Forall₂ (ReadsAs Codec.read) xs chunks → (∀ c ∈ pre, isBlank c = true) →
      (∀ c ∈ post, isBlank c = true) →
      AvlSet.ReadsSet cmp xs (AvlSet.ofJson cmp fresh (String.ofList (pre ++ arrayText chunks ++ post)))
  /-- An object of member texts is read as the map of its members, or refused when two keys
  are equivalent or a list of values is empty. -/
  map_read : ∀ (keyCmp : κ → κ → Ordering) [Std.TransCmp keyCmp] (kvs : KeyValues κ ν)
    (members : List (List Char × List Char)) (pre post : List Char) (fresh : Nat),
    List.Forall₂ MultiMap.MemberReadsAs kvs members → (∀ c ∈ pre, isBlank c = true) →
      (∀ c ∈ post, isBlank c = true) →
      MultiMap.ReadsMap keyCmp kvs
        (MultiMap.ofJson keyCmp fresh (String.ofList (pre ++ objectText members ++ post)))

/-- With codecs that read back what they write, sets and maps are read back from their
texts, and a text is read as a set or a map exactly when its elements or keys are pairwise
inequivalent and, for maps, no list of values is empty. -/
theorem collectionLaws_of_lawful {α κ ν : Type} [Codec α] [Codec κ] [Codec ν] [BEq ν]
    [Codec.Lawful α] [Codec.Lawful κ] [Codec.Lawful ν] : CollectionLaws α κ ν where
  set_round_trip _ _ _ fresh h := AvlSet.ofJson_toJson h fresh
  map_round_trip _ _ _ fresh h := MultiMap.ofJson_toJson h fresh
  set_read _ _ _ _ _ _ fresh hs hpre hpost := AvlSet.readsSet_ofJson hs hpre hpost fresh
  map_read _ _ _ _ _ _ fresh hs hpre hpost := MultiMap.readsMap_ofJson hs hpre hpost fresh

theorem collectionLaws_int64_string : CollectionLaws Int64 String Int64 :=
  collectionLaws_of_lawful

end Json

end AvlCollections
