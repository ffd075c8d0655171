import AvlCollections.Json.Collection
import Mathlib

/-! # Codecs that read back what they write

What the sequence and object readers need of an element codec: the text of a value, read in
front of the character that follows it in a sequence or an object, gives the value back and
stops before that character. `ReadsAs` and `KeyReadsAs` say this of any text, written by the
codec or not; `Codec.Lawful` asks it of the codec's own texts. Both codecs of the scripts are
lawful: a string's escapes are undone by the scanner, and an integer's decimal digits are read
back as the integer, the digit by digit accumulation never passing the 64-bit bound.
-/

namespace AvlCollections

namespace Json

/-! ## Blanks -/

theorem skipBlanks_of_isBlank_eq_false {c : Char} (h : isBlank c = false) (cs : List Char) :
    skipBlanks (c :: cs) = c :: cs := by
  simp [skipBlanks, h]

@[simp] theorem skipBlanks_skipBlanks (cs : List Char) :
    skipBlanks (skipBlanks cs) = skipBlanks cs := by
  induction cs with
  | nil => rfl
  | cons c cs ih =>
    cases h : isBlank c
    · rw [skipBlanks_of_isBlank_eq_false h, skipBlanks_of_isBlank_eq_false h]
    · simpa [skipBlanks, h] using ih

/-- Blanks are skipped inside the first part of a text, unless it holds nothing else. -/
theorem skipBlanks_append {cs : List Char} (h : skipBlanks cs ≠ []) (ds : List Char) :
    skipBlanks (cs ++ ds) = skipBlanks cs ++ ds := by
  induction cs with
  | nil => simp [skipBlanks] at h
  | cons c cs ih =>
    cases hc : isBlank c
    · simp [skipBlanks, hc]
    · simp only [skipBlanks, hc, if_true, List.cons_append] at h ⊢
      exact ih h

theorem skipBlanks_blanks_append {bs : List Char} (h : ∀ c ∈ bs, isBlank c = true)
    (cs : List Char) : skipBlanks (bs ++ cs) = skipBlanks cs := by
  induction bs with
  | nil => rfl
  | cons b bs ih =>
    simp only [List.mem_cons, forall_eq_or_imp] at h
    simp [skipBlanks, h.1, ih h.2]

theorem isBlank_eq_false_of_isDigit {c : Char} (h : isDigit c = true) : isBlank c = false := by
  cases hb : isBlank c
  · rfl
  · simp only [isBlank, Bool.or_eq_true, beq_iff_eq] at hb
    rcases hb with ((rfl | rfl) | rfl) | rfl <;> revert h <;> decide

/-! ## What a text reads as -/

variable {α : Type}

/-- `chunk` is a text of `x` as an element of a sequence read by `read`: after its blanks it
starts an element (it is not the closing bracket), and read in front of a comma or a closing
bracket it gives `x` and stops before that character, after blanks at most. -/
def ReadsAs (read : List Char → Scan α) (x : α) (chunk : List Char) : Prop :=
  (∃ c r, skipBlanks chunk = c :: r ∧ c ≠ ']') ∧
    ∀ d rest, (d = ',' ∨ d = ']') →
      ∃ r', read (skipBlanks chunk ++ d :: rest) = .ok (x, r') ∧ skipBlanks r' = d :: rest

/-- `chunk` is a text of `x` as an object key read by `readKey`: after its blanks it starts
with a quote, and read in front of a colon it gives `x` and stops before the colon, after
blanks at most. -/
def KeyReadsAs (readKey : List Char → Scan α) (x : α) (chunk : List Char) : Prop :=
  (∃ r, skipBlanks chunk = '"' :: r) ∧
    ∀ rest, ∃ r', readKey (skipBlanks chunk ++ ':' :: rest) = .ok (x, r') ∧
      skipBlanks r' = ':' :: rest

theorem ReadsAs.skipBlanks_ne_nil {read : List Char → Scan α} {x : α} {chunk : List Char}
    (h : ReadsAs read x chunk) : skipBlanks chunk ≠ [] := by
  obtain ⟨c, r, hc, -⟩ := h.1
  simp [hc]

theorem KeyReadsAs.skipBlanks_ne_nil {readKey : List Char → Scan α} {x : α} {chunk : List Char}
    (h : KeyReadsAs readKey x chunk) : skipBlanks chunk ≠ [] := by
  obtain ⟨r, hr⟩ := h.1
  simp [hr]

/-- A text that starts with neither a blank nor a closing bracket, and that `read` takes whole
in front of a comma or a closing bracket, reads as what `read` gives. -/
theorem readsAs_of_read {read : List Char → Scan α} {x : α} {c : Char} {r : List Char}
    (hb : isBlank c = false) (hc : c ≠ ']')
    (hr : ∀ d rest, (d = ',' ∨ d = ']') → read (c :: r ++ d :: rest) = .ok (x, d :: rest)) :
    ReadsAs read x (c :: r) := by
  rw [ReadsAs, skipBlanks_of_isBlank_eq_false hb]
  refine ⟨⟨c, r, rfl, hc⟩, fun d rest hd => ⟨d :: rest, hr d rest hd, ?_⟩⟩
  rcases hd with rfl | rfl <;> rfl

/-- A quoted text that `readKey` takes whole in front of a colon reads as what it gives. -/
theorem keyReadsAs_of_readKey {readKey : List Char → Scan α} {x : α} {r : List Char}
    (hr : ∀ rest, readKey ('"' :: r ++ ':' :: rest) = .ok (x, ':' :: rest)) :
    KeyReadsAs readKey x ('"' :: r) := by
  rw [KeyReadsAs, skipBlanks_of_isBlank_eq_false rfl]
  exact ⟨⟨r, rfl⟩, fun rest => ⟨':' :: rest, hr rest, rfl⟩⟩

/-- A codec whose texts read back as the values they were written from. -/
class Codec.Lawful (α : Type) [Codec α] : Prop where
  /-- The text of a value reads as that value in a sequence. -/
  reads_write : ∀ x : α, ReadsAs Codec.read x (Codec.write x).toList
  /-- The key text of a value reads as that value before a colon. -/
  reads_writeKey : ∀ x : α, KeyReadsAs Codec.readKey x (Codec.writeKey x).toList

/-! ## Strings -/

theorem hexValue_hexDigit : ∀ n, n < 16 → hexValue (hexDigit n) = some n := by
  decide

theorem scanStringFrom_plain {c : Char} (hq : c ≠ '"') (hb : c ≠ '\\') (acc rest : List Char) :
    scanStringFrom acc (c :: rest) =
      if c.toNat < 0x20 then .error .grammar else scanStringFrom (c :: acc) rest := by
  rw [scanStringFrom.eq_def]
  split <;> simp_all

/-- The scanner undoes the escape of one character. -/
theorem scanStringFrom_escapeChar (acc : List Char) (c : Char) (rest : List Char) :
    scanStringFrom acc (escapeChar c ++ rest) = scanStringFrom (c :: acc) rest := by
  unfold escapeChar
  split_ifs with hq hb h08 ht hn h0c hr hc
  · simp [eq_of_beq hq, scanStringFrom]
  · simp [eq_of_beq hb, scanStringFrom]
  · simp [eq_of_beq h08, scanStringFrom]
  · simp [eq_of_beq ht, scanStringFrom]
  · simp [eq_of_beq hn, scanStringFrom]
  · simp [eq_of_beq h0c, scanStringFrom]
  · simp [eq_of_beq hr, scanStringFrom]
  · -- a control character without a short escape: `\u00` and two hexadecimal digits
    have hi : hexValue (hexDigit (c.toNat / 16)) = some (c.toNat / 16) :=
      hexValue_hexDigit _ (by omega)
    have lo : hexValue (hexDigit (c.toNat % 16)) = some (c.toNat % 16) :=
      hexValue_hexDigit _ (by omega)
    have zero : hexValue '0' = some 0 := rfl
    have hn : hex4 '0' '0' (hexDigit (c.toNat / 16)) (hexDigit (c.toNat % 16)) = some c.toNat := by
      simp only [hex4, hi, lo, zero]
      show some (((0 * 16 + 0) * 16 + c.toNat / 16) * 16 + c.toNat % 16) = some c.toNat
      congr 1
      omega
    simp only [List.cons_append, List.nil_append]
    rw [scanStringFrom, hn]
    dsimp only
    rw [if_neg (by omega), if_neg (by omega), Char.ofNat_toNat]
  · simp only [beq_iff_eq] at hq hb
    rw [List.singleton_append, scanStringFrom_plain hq hb, if_neg hc]

theorem scanStringFrom_escaped (acc cs rest : List Char) :
    scanStringFrom acc (cs.flatMap escapeChar ++ '"' :: rest) =
      .ok (String.ofList (acc.reverse ++ cs), rest) := by
  induction cs generalizing acc with
  | nil => simp [scanStringFrom]
  | cons c cs ih => simp [List.append_assoc, scanStringFrom_escapeChar, ih]

theorem toList_quote (s : String) :
    (quote s).toList = '"' :: (s.toList.flatMap escapeChar ++ ['"']) := by
  simp [quote]

/-- A quoted string is read back whole, whatever follows it. -/
theorem scanString_quote (s : String) (rest : List Char) :
    scanString ((quote s).toList.tail ++ rest) = .ok (s, rest) := by
  simp [toList_quote, scanString, scanStringFrom_escaped]

theorem readString_quote (s : String) (rest : List Char) :
    readString ((quote s).toList ++ rest) = .ok (s, rest) := by
  rw [toList_quote, List.cons_append, readString, skipBlanks_of_isBlank_eq_false rfl]
  simpa [toList_quote] using scanString_quote s rest

theorem readStringKey_quote (s : String) (rest : List Char) :
    readStringKey ((quote s).toList ++ rest) = .ok (s, rest) := by
  rw [toList_quote, List.cons_append, readStringKey]
  simpa [toList_quote] using scanString_quote s rest

instance : Codec.Lawful String where
  reads_write s := by
    show ReadsAs readString s (quote s).toList
    rw [toList_quote]
    exact readsAs_of_read rfl (by decide) fun d rest _ => by
      rw [← toList_quote, readString_quote]
  reads_writeKey s := by
    show KeyReadsAs readStringKey s (quote s).toList
    rw [toList_quote]
    exact keyReadsAs_of_readKey fun rest => by rw [← toList_quote, readStringKey_quote]

/-! ## Integers -/

/-- Whether the text of a number may stop in front of `c`. -/
def endsNumber (c : Char) : Bool :=
  !isDigit c && c != '.' && c != 'e' && c != 'E'

theorem isDigit_eq (c : Char) : isDigit c = c.isDigit := by
  simp only [isDigit, Char.isDigit, Char.le_def]

theorem digitChar_spec : ∀ d, d < 10 →
    isDigit (Nat.digitChar d) = true ∧ digitValue (Nat.digitChar d) = d := by
  decide

theorem isDigit_of_mem_toDigits {n : Nat} {c : Char} (h : c ∈ Nat.toDigits 10 n) :
    isDigit c = true :=
  isDigit_eq c ▸ Nat.isDigit_of_mem_toDigits (by decide) (by decide) h

theorem toList_toString_int (n : Int) :
    (toString n).toList =
      if 0 ≤ n then Nat.toDigits 10 n.toNat else '-' :: Nat.toDigits 10 (-n).toNat := by
  rw [Int.toString_eq_repr, Int.repr_eq_if]
  split <;> simp [Nat.repr]

theorem scanUnsigned_of_digit {c : Char} (hc : c ≠ '0') (hd : isDigit c = true) (p : Bool)
    (cs : List Char) : scanUnsigned p (c :: cs) = integerDigits p (digitValue c) cs := by
  rw [scanUnsigned.eq_def]
  split <;> simp_all

theorem integerDigits_of_digit {c : Char} (hd : isDigit c = true) (p : Bool) (s : Nat)
    (hs : s * 10 + digitValue c ≤ u64Max) (cs : List Char) :
    integerDigits p s (c :: cs) = integerDigits p (s * 10 + digitValue c) cs := by
  simp [integerDigits, hd, Nat.not_lt.2 hs]

theorem afterInteger_of_endsNumber {c : Char} (hc : endsNumber c = true) (p : Bool) (s : Nat)
    (cs : List Char) :
    afterInteger p s (c :: cs) = (afterInteger.integer p s).map (·, c :: cs) := by
  simp only [endsNumber, Bool.and_eq_true, Bool.not_eq_true', bne_iff_ne, ne_eq] at hc
  rw [afterInteger.eq_def]
  split <;> simp_all

theorem integerDigits_of_endsNumber {c : Char} (hc : endsNumber c = true) (p : Bool) (s : Nat)
    (cs : List Char) :
    integerDigits p s (c :: cs) = (afterInteger.integer p s).map (·, c :: cs) := by
  have hd : isDigit c = false := by simp_all [endsNumber]
  rw [integerDigits, if_neg (by simp [hd]), afterInteger_of_endsNumber hc]

/-- The digits of a positive number are read back as that number. -/
theorem scanUnsigned_toDigits (p : Bool) {n : Nat} (h0 : 0 < n) (hn : n ≤ u64Max)
    (cs : List Char) : scanUnsigned p (Nat.toDigits 10 n ++ cs) = integerDigits p n cs := by
  -- the digits of `n` are those of `n / 10` and then the last one
  induction n using Nat.strongRecOn generalizing cs with
  | _ n ih =>
    by_cases hlt : n < 10
    · obtain ⟨hd, hv⟩ := digitChar_spec n hlt
      rw [Nat.toDigits_of_lt_base hlt, List.singleton_append,
        scanUnsigned_of_digit (by simp; omega) hd, hv]
    · obtain ⟨hd, hv⟩ := digitChar_spec (n % 10) (Nat.mod_lt n (by omega))
      have hsplit : n / 10 * 10 + digitValue (Nat.digitChar (n % 10)) = n := by omega
      rw [Nat.toDigits_of_base_le (by omega) (by omega), List.append_assoc, List.singleton_append,
        ih (n / 10) (by omega) (by omega) (by omega),
        integerDigits_of_digit hd p _ (by omega), hsplit]

theorem scanUnsigned_toDigits_endsNumber (p : Bool) {n : Nat} (hn : n ≤ u64Max) {c : Char}
    (hc : endsNumber c = true) (cs : List Char) :
    scanUnsigned p (Nat.toDigits 10 n ++ c :: cs) =
      (afterInteger.integer p n).map (·, c :: cs) := by
  rcases Nat.eq_zero_or_pos n with rfl | h0
  · have hd : isDigit c = false := by simp_all [endsNumber]
    simp only [Nat.toDigits_zero, List.singleton_append, scanUnsigned, hd, Bool.false_eq_true,
      if_false, afterInteger_of_endsNumber hc]
  · rw [scanUnsigned_toDigits p h0 hn, integerDigits_of_endsNumber hc]

theorem scanNumber_of_ne {c : Char} (h : c ≠ '-') (cs : List Char) :
    scanNumber (c :: cs) = scanUnsigned true (c :: cs) := by
  rw [scanNumber.eq_def]
  split <;> simp_all

/-- A text that starts a number is read as the number that `scanNumber` finds there. -/
theorem readInt64_of_scanNumber {c : Char} {cs rest : List Char} {n : Number}
    (hc : c = '-' ∨ isDigit c = true) (h : scanNumber (c :: cs) = .ok (n, rest)) :
    readInt64 (c :: cs) = n.toInt64.map (·, rest) := by
  have hb : isBlank c = false := by
    rcases hc with rfl | hc
    · rfl
    · exact isBlank_eq_false_of_isDigit hc
  have hs : (c == '-' || isDigit c) = true := by
    rcases hc with rfl | hc
    · rfl
    · simp [hc]
  rw [readInt64, skipBlanks_of_isBlank_eq_false hb]
  simp only [hs, if_true, h]

theorem toInt64_unsigned {n : Nat} (h : n < 2 ^ 63) :
    (Number.unsigned n).toInt64 = .ok (Int64.ofInt n) := by
  rw [Number.toInt64, Nat.pow_eq, if_pos h]

/-- The decimal text of an integer is read back as that integer. -/
theorem readInt64_toString (x : Int64) {c : Char} (hc : endsNumber c = true) (cs : List Char) :
    readInt64 ((toString x.toInt).toList ++ c :: cs) = .ok (x, c :: cs) := by
  have lo := Int64.le_toInt x
  have hi := Int64.toInt_lt x
  rw [toList_toString_int]
  split
  · next h =>
    obtain ⟨d, ds, hds⟩ :=
      List.exists_cons_of_ne_nil (Nat.toDigits_ne_nil (n := x.toInt.toNat) (b := 10))
    have hd : isDigit d = true := isDigit_of_mem_toDigits (hds ▸ List.mem_cons_self)
    have hscan : scanNumber (d :: (ds ++ c :: cs)) = .ok (.unsigned x.toInt.toNat, c :: cs) := by
      have hm : d ≠ '-' := by rintro rfl; simp [isDigit] at hd
      rw [scanNumber_of_ne hm, ← List.cons_append, ← hds,
        scanUnsigned_toDigits_endsNumber true (by rw [u64Max, Nat.pow_eq]; omega) hc]
      rfl
    rw [hds, List.cons_append, readInt64_of_scanNumber (.inr hd) hscan,
      toInt64_unsigned (by omega), Int.toNat_of_nonneg h, Int64.ofInt_toInt]
    rfl
  · next h =>
    -- a negative integer is `-` and the digits of its magnitude, at most `2^63`
    have hscan : scanNumber ('-' :: (Nat.toDigits 10 (-x.toInt).toNat ++ c :: cs)) =
        .ok (.signed x.toInt, c :: cs) := by
      have hx : -(((-x.toInt).toNat : Nat) : Int) = x.toInt := by omega
      rw [scanNumber, scanUnsigned_toDigits_endsNumber false (by rw [u64Max, Nat.pow_eq]; omega) hc,
        afterInteger.integer, if_neg Bool.false_ne_true, Nat.pow_eq, if_neg (by omega), hx]
      rfl
    rw [List.cons_append, readInt64_of_scanNumber (.inl rfl) hscan, Number.toInt64,
      Int64.ofInt_toInt]
    rfl

/-- The text of an integer starts with a minus sign or a digit, and holds nothing else. -/
theorem mem_toString_int {n : Int} {c : Char} (h : c ∈ (toString n).toList) :
    c = '-' ∨ isDigit c = true := by
  rw [toList_toString_int] at h
  split at h
  · exact .inr (isDigit_of_mem_toDigits h)
  · rcases List.mem_cons.1 h with rfl | h
    · exact .inl rfl
    · exact .inr (isDigit_of_mem_toDigits h)

theorem exists_toString_int (n : Int) :
    ∃ c r, (toString n).toList = c :: r ∧ (c = '-' ∨ isDigit c = true) := by
  obtain ⟨c, r, hcr⟩ : ∃ c r, (toString n).toList = c :: r := by
    rw [toList_toString_int]
    split
    · exact List.exists_cons_of_ne_nil Nat.toDigits_ne_nil
    · exact ⟨_, _, rfl⟩
  exact ⟨c, r, hcr, mem_toString_int (hcr ▸ List.mem_cons_self)⟩

theorem le_toNat_of_isDigit {c : Char} (h : isDigit c = true) : 48 ≤ c.toNat := by
  simp only [isDigit, Bool.and_eq_true, decide_eq_true_eq, Char.le_def] at h
  have := h.1
  simp [UInt32.le_iff_toNat_le] at this
  exact this

/-- A printable character other than the quote and the backslash stands for itself. -/
theorem escapeChar_of_plain {c : Char} (h : 0x20 ≤ c.toNat) (hq : c ≠ '"') (hb : c ≠ '\\') :
    escapeChar c = [c] := by
  have small : ∀ d : Char, d.toNat < 0x20 → c ≠ d := by
    rintro d hd rfl
    omega
  unfold escapeChar
  simp [hq, hb, small '\x08' (by decide), small '\t' (by decide), small '\n' (by decide),
    small '\x0c' (by decide), small '\r' (by decide), Nat.not_lt.2 h]

theorem flatMap_escapeChar_of_plain {cs : List Char} (h : ∀ c ∈ cs, escapeChar c = [c]) :
    cs.flatMap escapeChar = cs := by
  induction cs with
  | nil => rfl
  | cons c cs ih => simp [h c (by simp), ih fun d hd => h d (by simp [hd])]

theorem escapeChar_of_toString_int {n : Int} {c : Char} (h : c ∈ (toString n).toList) :
    escapeChar c = [c] := by
  rcases mem_toString_int h with rfl | hd
  · rfl
  · have hc := le_toNat_of_isDigit hd
    refine escapeChar_of_plain (by omega) ?_ ?_
    · rintro rfl; revert hd; decide
    · rintro rfl; revert hd; decide

theorem toList_quote_toString_int (n : Int) :
    (quote (toString n)).toList = '"' :: ((toString n).toList ++ ['"']) := by
  rw [toList_quote, flatMap_escapeChar_of_plain fun c hc => escapeChar_of_toString_int hc]

theorem readInt64Key_quote (x : Int64) (rest : List Char) :
    readInt64Key ((quote (toString x.toInt)).toList ++ rest) = .ok (x, rest) := by
  obtain ⟨c, r, hcr, hc⟩ := exists_toString_int x.toInt
  have hs : (c == '-' || isDigit c) = true := by
    rcases hc with rfl | hc
    · rfl
    · simp [hc]
  have hread := readInt64_toString x (c := '"') rfl rest
  rw [hcr, List.cons_append] at hread
  rw [toList_quote_toString_int, hcr]
  simp only [List.cons_append, List.append_assoc, List.nil_append]
  rw [readInt64Key, if_pos hs, hread]
  rfl

instance : Codec.Lawful Int64 where
  reads_write x := by
    show ReadsAs readInt64 x (toString x.toInt).toList
    obtain ⟨c, r, hcr, hc⟩ := exists_toString_int x.toInt
    have hb : isBlank c = false := by
      rcases hc with rfl | hc
      · rfl
      · exact isBlank_eq_false_of_isDigit hc
    rw [hcr]
    refine readsAs_of_read hb (by rcases hc with rfl | hc; decide; rintro rfl; simp [isDigit] at hc)
      fun d rest hd => ?_
    rw [← hcr]
    exact readInt64_toString x (by rcases hd with rfl | rfl <;> rfl) rest
  reads_writeKey x := by
    show KeyReadsAs readInt64Key x (quote (toString x.toInt)).toList
    rw [toList_quote_toString_int]
    exact keyReadsAs_of_readKey fun rest => by
      rw [← toList_quote_toString_int, readInt64Key_quote]

end Json

end AvlCollections
