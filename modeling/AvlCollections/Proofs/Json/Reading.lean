import AvlCollections.Proofs.Json.Codec
import Mathlib.Data.List.Forall2

/-! # Reading sequences and objects

The readers of sequences and objects, on texts made of element texts that read as values
(`ReadsAs`, `KeyReadsAs`): a sequence is read as a fold of its elements by the step that the
caller gives, and an object as a fold of its members into a map, the first refused element
or member ending the reading. The first element or member is read as if a comma stood
before it, so one induction over the comma-led rest covers both. `ofJson` of a set and of
a map is then the fold of `readStep` over the values read, from the empty collection.
-/

namespace AvlCollections

namespace Json

/-- The text of a sequence of element texts: the texts between brackets, separated by
commas. -/
def arrayText (chunks : List (List Char)) : List Char :=
  '[' :: (List.intercalate [','] chunks ++ [']'])

theorem intercalate_comma_cons (chunk : List Char) (chunks : List (List Char)) :
    List.intercalate [','] (chunk :: chunks) = chunk ++ chunks.flatMap (',' :: ·) := by
  induction chunks generalizing chunk with
  | nil => simp
  | cons c chunks ih => simp [List.intercalate_cons_cons, ih]

theorem length_le_length_flatMap_comma (chunks : List (List Char)) :
    chunks.length ≤ (chunks.flatMap (',' :: ·)).length := by
  induction chunks with
  | nil => simp
  | cons c chunks ih =>
    simp only [List.flatMap_cons, List.length_append, List.length_cons]
    omega

theorem length_le_length_intercalate (chunks : List (List Char)) :
    chunks.length ≤ (List.intercalate [','] chunks).length + 1 := by
  cases chunks with
  | nil => simp
  | cons c chunks =>
    have := length_le_length_flatMap_comma chunks
    simp only [intercalate_comma_cons, List.length_append, List.length_cons]
    omega

/-- After comma-led texts comes a comma or the given character. -/
theorem flatMap_comma_append (chunks : List (List Char)) (d : Char) (rest : List Char) :
    ∃ c r, chunks.flatMap (',' :: ·) ++ d :: rest = c :: r ∧ (c = ',' ∨ c = d) := by
  cases chunks with
  | nil => exact ⟨d, rest, rfl, .inr rfl⟩
  | cons chunk chunks =>
    exact ⟨',', chunk ++ (chunks.flatMap (',' :: ·) ++ d :: rest), by simp, .inl rfl⟩

/-! ## Sequences -/

theorem nextElement_close {cs r : List Char} (h : skipBlanks cs = ']' :: r) (first : Bool) :
    nextElement first cs = .ok (none, r) := by
  simp [nextElement, h]

theorem nextElement_comma {cs r : List Char} (h : skipBlanks cs = ',' :: r) {c : Char}
    {r' : List Char} (hr : skipBlanks r = c :: r') (hc : c ≠ ']') :
    nextElement false cs = .ok (some (c :: r'), []) := by
  simp [nextElement, h, hr]
  split <;> simp_all

theorem nextElement_first {cs r : List Char} {c : Char} (h : skipBlanks cs = c :: r)
    (hc : c ≠ ']') :
    nextElement true cs = .ok (some (c :: r), []) := by
  simp [nextElement, h]

variable {α β : Type} {elem : List Char → Scan α} {step : β → α → Except ReadError β}

/-- The first element of a sequence is read as if a comma stood before it. -/
theorem readElements_first {cs r : List Char} {c : Char} (hcs : skipBlanks cs = c :: r)
    (hc : c ≠ ']') (fuel : Nat) (acc : β) :
    readElements elem step fuel true acc cs =
      readElements elem step fuel false acc (',' :: cs) := by
  cases fuel with
  | zero => rfl
  | succ fuel =>
    rw [readElements, readElements, nextElement_first hcs hc,
      nextElement_comma (skipBlanks_of_isBlank_eq_false rfl _) hcs hc]

/-- The elements after the first, each after its comma, are read in turn and folded by `step`;
the first error of `step` ends the reading. -/
theorem readElements_flatMap {xs : List α} {chunks : List (List Char)}
    (hs : List.Forall₂ (ReadsAs elem) xs chunks) {fuel : Nat} (hf : chunks.length < fuel)
    {cs rest : List Char} (hcs : skipBlanks cs = chunks.flatMap (',' :: ·) ++ ']' :: rest)
    (acc : β) : readElements elem step fuel false acc cs = (xs.foldlM step acc).map (·, rest) := by
  induction hs generalizing fuel cs acc with
  | nil =>
    obtain ⟨fuel, rfl⟩ : ∃ f, fuel = f + 1 := ⟨fuel - 1, by omega⟩
    rw [readElements, nextElement_close hcs]
    rfl
  | @cons x chunk xs chunks hx hrest ih =>
    obtain ⟨fuel, rfl⟩ : ∃ f, fuel = f + 1 := ⟨fuel - 1, by omega⟩
    obtain ⟨c, r, hcr, hc⟩ := hx.1
    obtain ⟨d, rest', hT, hd⟩ := flatMap_comma_append chunks ']' rest
    obtain ⟨r', hread, hskip⟩ := hx.2 d rest' hd
    have hstart : skipBlanks (chunk ++ chunks.flatMap (',' :: ·) ++ ']' :: rest) =
        c :: (r ++ d :: rest') := by
      rw [List.append_assoc, skipBlanks_append hx.skipBlanks_ne_nil, hcr, hT, List.cons_append]
    simp only [List.flatMap_cons, List.cons_append, List.append_assoc] at hcs
    rw [hcr, List.cons_append] at hread
    rw [readElements, nextElement_comma hcs (by rwa [List.append_assoc] at hstart) hc]
    dsimp only
    rw [hread, List.foldlM_cons]
    dsimp only
    cases hstep : step acc x with
    | error e => rfl
    | ok acc' =>
      exact ih (by simp at hf; omega) (hskip.trans hT.symm) acc'

/-- The elements of a sequence are read in turn and folded by `step`, up to its closing
bracket; the first error of `step` ends the reading. -/
theorem readElements_intercalate {xs : List α} {chunks : List (List Char)}
    (hs : List.Forall₂ (ReadsAs elem) xs chunks) {fuel : Nat} (hf : chunks.length < fuel)
    (rest : List Char) (acc : β) :
    readElements elem step fuel true acc (List.intercalate [','] chunks ++ ']' :: rest) =
      (xs.foldlM step acc).map (·, rest) := by
  cases hs with
  | nil =>
    obtain ⟨fuel, rfl⟩ : ∃ f, fuel = f + 1 := ⟨fuel - 1, by omega⟩
    rw [List.intercalate_nil, List.nil_append, readElements,
      nextElement_close (skipBlanks_of_isBlank_eq_false rfl _)]
    rfl
  | @cons x chunk xs chunks hx hrest =>
    obtain ⟨c, r, hcr, hc⟩ := hx.1
    have hcs : skipBlanks (List.intercalate [','] (chunk :: chunks) ++ ']' :: rest) =
        c :: (r ++ chunks.flatMap (',' :: ·) ++ ']' :: rest) := by
      rw [intercalate_comma_cons, List.append_assoc, skipBlanks_append hx.skipBlanks_ne_nil, hcr]
      simp
    rw [readElements_first hcs hc]
    refine readElements_flatMap (.cons hx hrest) hf ?_ acc
    rw [skipBlanks_of_isBlank_eq_false rfl, intercalate_comma_cons]
    simp

theorem readSequence_arrayText {xs : List α} {chunks : List (List Char)}
    (hs : List.Forall₂ (ReadsAs elem) xs chunks) {pre : List Char}
    (hpre : ∀ c ∈ pre, isBlank c = true) (expected : String) (init : β) (tail : List Char) :
    readSequence expected elem step init (pre ++ arrayText chunks ++ tail) =
      (xs.foldlM step init).map (·, tail) := by
  have hf := length_le_length_intercalate chunks
  rw [readSequence, List.append_assoc, skipBlanks_blanks_append hpre, arrayText,
    List.cons_append, skipBlanks_of_isBlank_eq_false rfl]
  rw [List.append_assoc, List.singleton_append]
  exact readElements_intercalate hs (by simp; omega) tail init

theorem foldlM_cons_acc (xs acc : List α) :
    xs.foldlM (fun acc x => (.ok (x :: acc) : Except ReadError (List α))) acc =
      .ok (xs.reverse ++ acc) := by
  induction xs generalizing acc with
  | nil => rfl
  | cons x xs ih =>
    show List.foldlM (fun acc x => (.ok (x :: acc) : Except ReadError (List α))) (x :: acc) xs = _
    rw [ih]
    simp

/-- A list of values is read back from the texts of its elements in brackets. -/
theorem readList_arrayText [Codec α] {xs : List α} {chunks : List (List Char)}
    (hs : List.Forall₂ (ReadsAs Codec.read) xs chunks) {pre : List Char}
    (hpre : ∀ c ∈ pre, isBlank c = true) (tail : List Char) :
    readList (pre ++ arrayText chunks ++ tail) = .ok (xs, tail) := by
  rw [readList, readSequence_arrayText hs hpre, foldlM_cons_acc]
  simp [Except.map]

/-- `chunk` is a text of the list `vs` as the value of an object member: read in front of a
comma or a closing brace, it gives `vs` and stops before that character, after blanks at
most. -/
def ValuesAs [Codec α] (vs : List α) (chunk : List Char) : Prop :=
  ∀ d rest, (d = ',' ∨ d = '}') →
    ∃ r', readList (chunk ++ d :: rest) = .ok (vs, r') ∧ skipBlanks r' = d :: rest

theorem valuesAs_arrayText [Codec α] {xs : List α} {chunks : List (List Char)}
    (hs : List.Forall₂ (ReadsAs Codec.read) xs chunks) {pre post : List Char}
    (hpre : ∀ c ∈ pre, isBlank c = true) (hpost : ∀ c ∈ post, isBlank c = true) :
    ValuesAs xs (pre ++ arrayText chunks ++ post) := by
  intro d rest hd
  refine ⟨post ++ d :: rest, ?_, ?_⟩
  · rw [List.append_assoc (pre ++ arrayText chunks), readList_arrayText hs hpre]
  · rw [skipBlanks_blanks_append hpost]
    rcases hd with rfl | rfl <;> rfl

theorem skipBlanks_of_blanks {bs : List Char} (h : ∀ c ∈ bs, isBlank c = true) :
    skipBlanks bs = [] := by
  simpa [skipBlanks] using skipBlanks_blanks_append h []

theorem finish_map_blanks {γ : Type} (r : Except ReadError γ) {post : List Char}
    (hpost : ∀ c ∈ post, isBlank c = true) : finish (r.map (·, post)) = r := by
  cases r with
  | error e => rfl
  | ok x => simp [Except.map, finish, skipBlanks_of_blanks hpost]

/-- The text of an object of member texts: each a key text, a colon and a value text, between
braces and separated by commas. -/
def objectText (members : List (List Char × List Char)) : List Char :=
  '{' :: (List.intercalate [','] (members.map fun m => m.1 ++ ':' :: m.2) ++ ['}'])

end Json

namespace MultiMap

open Json

variable {κ ν : Type}

/-- The message for a key given an empty list of values. -/
def emptyValuesMessage : String :=
  "invalid length 0, expected at least one value per key"

/-- One member read into a map: the key with its values becomes a new entry; an empty list of
values and a key whose class is taken are refused. -/
def readStep (fresh : Nat) (m : MultiMap κ ν) (kv : κ × List ν) : Except ReadError (MultiMap κ ν) :=
  match Entry.ofValues? kv.1 kv.2 with
  | none => .error (.data emptyValuesMessage)
  | some e =>
    match m.insertEntry e fresh with
    | some m' => .ok m'
    | none => .error (.data "duplicate key")

variable [Codec κ] [Codec ν]

/-- `member` is a text of the key `kv.1` and the values `kv.2`. -/
def MemberReadsAs (kv : κ × List ν) (member : List Char × List Char) : Prop :=
  KeyReadsAs Codec.readKey kv.1 member.1 ∧ ValuesAs kv.2 member.2

theorem readMembers_first {cs r : List Char} {c : Char} (hcs : skipBlanks cs = c :: r)
    (hc : c ≠ '}') (fresh fuel : Nat) (m : MultiMap κ ν) :
    readMembers fresh fuel true m cs = readMembers fresh fuel false m (',' :: cs) := by
  cases fuel with
  | zero => rfl
  | succ fuel =>
    have hcomma : skipBlanks (',' :: cs) = ',' :: cs := skipBlanks_of_isBlank_eq_false rfl cs
    simp [readMembers, hcs, hcomma]

/-- The members after the first, each after its comma, are read in turn into the map; the
first refused member ends the reading. -/
theorem readMembers_flatMap {kvs : List (κ × List ν)} {members : List (List Char × List Char)}
    (hs : List.Forall₂ MemberReadsAs kvs members) {fuel : Nat} (hf : members.length < fuel)
    {cs rest : List Char}
    (hcs : skipBlanks cs = (members.map fun m => m.1 ++ ':' :: m.2).flatMap (',' :: ·) ++
      '}' :: rest)
    (fresh : Nat) (m : MultiMap κ ν) :
    readMembers fresh fuel false m cs = (kvs.foldlM (readStep fresh) m).map (·, rest) := by
  induction hs generalizing fuel cs m with
  | nil =>
    obtain ⟨fuel, rfl⟩ : ∃ f, fuel = f + 1 := ⟨fuel - 1, by omega⟩
    simp [readMembers, hcs]
    rfl
  | @cons kv member kvs members hkv hrest ih =>
    obtain ⟨fuel, rfl⟩ : ∃ f, fuel = f + 1 := ⟨fuel - 1, by omega⟩
    obtain ⟨⟨q, hq⟩, hkey⟩ := hkv.1
    obtain ⟨d, rest', hT, hd⟩ :=
      flatMap_comma_append (members.map fun m => m.1 ++ ':' :: m.2) '}' rest
    obtain ⟨r', hread, hskip⟩ := hkey (member.2 ++ d :: rest')
    obtain ⟨r'', hvalues, hskip'⟩ := hkv.2 d rest' (by rcases hd with rfl | rfl <;> simp)
    simp only [List.map_cons, List.flatMap_cons, List.cons_append, List.append_assoc, hT] at hcs
    have hstart : skipBlanks (member.1 ++ ':' :: (member.2 ++ d :: rest')) =
        '"' :: (q ++ ':' :: (member.2 ++ d :: rest')) := by
      rw [skipBlanks_append hkv.1.skipBlanks_ne_nil, hq, List.cons_append]
    rw [hq, List.cons_append] at hread
    simp [readMembers, hcs, hstart, hread, hskip, hvalues, List.foldlM_cons]
    -- the member is refused, or added before the rest is read
    unfold readStep
    cases Entry.ofValues? kv.1 kv.2 with
    | none => rfl
    | some e =>
      dsimp only
      cases m.insertEntry e fresh with
      | none => rfl
      | some m' => exact ih (by simp at hf; omega) (hskip'.trans hT.symm) m'

/-- The members of an object are read in turn into the map, up to its closing brace; the
first refused member ends the reading. -/
theorem readMembers_intercalate {kvs : List (κ × List ν)} {members : List (List Char × List Char)}
    (hs : List.Forall₂ MemberReadsAs kvs members) {fuel : Nat} (hf : members.length < fuel)
    (rest : List Char) (fresh : Nat) (m : MultiMap κ ν) :
    readMembers fresh fuel true m
        (List.intercalate [','] (members.map fun m => m.1 ++ ':' :: m.2) ++ '}' :: rest) =
      (kvs.foldlM (readStep fresh) m).map (·, rest) := by
  cases hs with
  | nil =>
    obtain ⟨fuel, rfl⟩ : ∃ f, fuel = f + 1 := ⟨fuel - 1, by omega⟩
    simp [readMembers, skipBlanks]
    rfl
  | @cons kv member kvs members hkv hrest =>
    obtain ⟨q, hq⟩ := hkv.1.1
    have hcs : skipBlanks (List.intercalate [','] ((member :: members).map fun m => m.1 ++ ':' :: m.2) ++
        '}' :: rest) = '"' :: (q ++ ':' :: member.2 ++
          (members.map fun m => m.1 ++ ':' :: m.2).flatMap (',' :: ·) ++ '}' :: rest) := by
      rw [List.map_cons, intercalate_comma_cons, List.append_assoc, List.append_assoc,
        skipBlanks_append hkv.1.skipBlanks_ne_nil, hq]
      simp
    rw [readMembers_first hcs (by decide)]
    refine readMembers_flatMap (.cons hkv hrest) hf ?_ fresh m
    rw [skipBlanks_of_isBlank_eq_false rfl, List.map_cons, intercalate_comma_cons]
    simp

/-- Reading the text of an object reads its members in turn into the empty map. -/
theorem ofJson_objectText {kvs : List (κ × List ν)} {members : List (List Char × List Char)}
    (hs : List.Forall₂ MemberReadsAs kvs members) {pre post : List Char}
    (hpre : ∀ c ∈ pre, isBlank c = true) (hpost : ∀ c ∈ post, isBlank c = true)
    (keyCmp : κ → κ → Ordering) (fresh : Nat) :
    ofJson keyCmp fresh (String.ofList (pre ++ objectText members ++ post)) =
      kvs.foldlM (readStep fresh) (empty keyCmp) := by
  have hf := length_le_length_intercalate (members.map fun m => m.1 ++ ':' :: m.2)
  rw [List.length_map] at hf
  rw [ofJson, String.toList_ofList, List.append_assoc, skipBlanks_blanks_append hpre, objectText,
    List.cons_append, skipBlanks_of_isBlank_eq_false rfl]
  show finish (readMembers fresh (_ + 1) true (empty keyCmp) _) = _
  rw [List.append_assoc, List.singleton_append,
    readMembers_intercalate hs (by simp; omega) post fresh, finish_map_blanks _ hpost]

end MultiMap

namespace AvlSet

open Json

variable {α : Type}

/-- One element read into a set: it is added, and refused when an equivalent one is
stored. -/
def readStep (fresh : Nat) (s : AvlSet α) (x : α) : Except ReadError (AvlSet α) :=
  match s.add x fresh with
  | (.ok _, s') => .ok s'
  | (.error e, _) => .error (.data e.message)

/-- Reading the text of a sequence reads its elements in turn into the empty set. -/
theorem ofJson_arrayText [Codec α] {xs : List α} {chunks : List (List Char)}
    (hs : List.Forall₂ (ReadsAs Codec.read) xs chunks) {pre post : List Char}
    (hpre : ∀ c ∈ pre, isBlank c = true) (hpost : ∀ c ∈ post, isBlank c = true)
    (cmp : α → α → Ordering) (fresh : Nat) :
    ofJson cmp fresh (String.ofList (pre ++ arrayText chunks ++ post)) =
      xs.foldlM (readStep fresh) (empty cmp 0) := by
  show finish (readSequence _ Codec.read (readStep fresh) _ _) = _
  rw [String.toList_ofList, readSequence_arrayText hs hpre, finish_map_blanks _ hpost]

end AvlSet

end AvlCollections
