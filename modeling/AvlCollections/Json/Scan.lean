import AvlCollections.Decimal.Binary64

/-! # Scanning JSON text

The lexical layer of the JSON reader, on lists of characters: blanks, literal words, strings
with their escapes, and numbers. A number without fraction or exponent is an integer when it
fits: a non-negative one below `2^64`, or a negative one not below `-2^63`. Anything else is a
binary64 number: its significand is rounded first and then multiplied or divided once by the
rounded power of ten (by `10^308` repeatedly past the table's end); digits beyond the
significand's range only raise the exponent; an infinite result is an error, and so is a huge
positive exponent on a non-zero significand, while a huge negative one gives zero.
Every failure here is a syntax error.
-/

namespace AvlCollections

namespace Json

open Decimal

/-- Why reading failed: the text is not JSON, or its data do not fit what was asked for. -/
inductive ReadError where
  /-- The text breaks the JSON grammar, or a number is out of range. -/
  | grammar
  /-- The text is JSON but holds the wrong data; the message says how. -/
  | data (message : String)
  deriving Repr, DecidableEq, Inhabited

/-- A scan: a result and the text after it, or an error. -/
abbrev Scan (α : Type) := Except ReadError (α × List Char)

/-- A number as the reader classifies it. -/
inductive Number where
  /-- A non-negative integer below `2^64`. -/
  | unsigned (n : Nat)
  /-- A negative integer not below `-2^63`. -/
  | signed (n : Int)
  /-- Any other number. -/
  | float (x : Binary64)
  deriving Repr, DecidableEq, Inhabited

/-- The largest unsigned 64-bit integer. -/
def u64Max : Nat := Nat.pow 2 64 - 1

/-- The largest signed 32-bit integer, the bound of exponents. -/
def i32Max : Int := Int.pow 2 31 - 1

/-- JSON's four blanks. -/
def isBlank (c : Char) : Bool :=
  c == ' ' || c == '\n' || c == '\t' || c == '\r'

/-- The text after its leading blanks. -/
def skipBlanks : List Char → List Char
  | c :: cs => if isBlank c then skipBlanks cs else c :: cs
  | [] => []

/-- Whether `c` is a decimal digit. -/
def isDigit (c : Char) : Bool :=
  '0' ≤ c && c ≤ '9'

/-- The value of a decimal digit. -/
def digitValue (c : Char) : Nat :=
  c.toNat - '0'.toNat

/-- The text after the digits at its front. -/
def skipDigits : List Char → List Char
  | c :: cs => if isDigit c then skipDigits cs else c :: cs
  | [] => []

/-- Reads the letters `word` (the rest of a literal whose first letter was read). -/
def expectWord : List Char → List Char → Except ReadError (List Char)
  | [], cs => .ok cs
  | w :: ws, c :: cs => if w == c then expectWord ws cs else .error .grammar
  | _ :: _, [] => .error .grammar

/-- The value of a hexadecimal digit. -/
def hexValue (c : Char) : Option Nat :=
  if '0' ≤ c ∧ c ≤ '9' then some (c.toNat - '0'.toNat)
  else if 'a' ≤ c ∧ c ≤ 'f' then some (c.toNat - 'a'.toNat + 10)
  else if 'A' ≤ c ∧ c ≤ 'F' then some (c.toNat - 'A'.toNat + 10)
  else none

/-- The value of four hexadecimal digits. -/
def hex4 (a b c d : Char) : Option Nat := do
  let a ← hexValue a
  let b ← hexValue b
  let c ← hexValue c
  let d ← hexValue d
  pure (((a * 16 + b) * 16 + c) * 16 + d)

/-- Reads the rest of a string whose opening quote was read; `acc` holds the characters
read so far, last first. Escapes name one character, a `\u` escape of a high surrogate must
be followed by one of a low surrogate, and control characters must be escaped. -/
def scanStringFrom (acc : List Char) : List Char → Scan String
  | [] => .error .grammar
  | '"' :: rest => .ok (String.ofList acc.reverse, rest)
  | '\\' :: '"' :: rest => scanStringFrom ('"' :: acc) rest
  | '\\' :: '\\' :: rest => scanStringFrom ('\\' :: acc) rest
  | '\\' :: '/' :: rest => scanStringFrom ('/' :: acc) rest
  | '\\' :: 'b' :: rest => scanStringFrom ('\x08' :: acc) rest
  | '\\' :: 'f' :: rest => scanStringFrom ('\x0c' :: acc) rest
  | '\\' :: 'n' :: rest => scanStringFrom ('\n' :: acc) rest
  | '\\' :: 'r' :: rest => scanStringFrom ('\r' :: acc) rest
  | '\\' :: 't' :: rest => scanStringFrom ('\t' :: acc) rest
  | '\\' :: 'u' :: a :: b :: c :: d :: rest =>
    match hex4 a b c d with
    | none => .error .grammar
    | some n =>
      if 0xDC00 ≤ n ∧ n ≤ 0xDFFF then .error .grammar
      else if 0xD800 ≤ n ∧ n ≤ 0xDBFF then
        match rest with
        | '\\' :: 'u' :: a' :: b' :: c' :: d' :: rest' =>
          match hex4 a' b' c' d' with
          | some n' =>
            if 0xDC00 ≤ n' ∧ n' ≤ 0xDFFF then
              let code := (n - 0xD800) * 1024 + (n' - 0xDC00) + 0x10000
              scanStringFrom (Char.ofNat code :: acc) rest'
            else .error .grammar
          | none => .error .grammar
        | _ => .error .grammar
      else scanStringFrom (Char.ofNat n :: acc) rest
  | '\\' :: _ => .error .grammar
  | c :: rest => if c.toNat < 0x20 then .error .grammar else scanStringFrom (c :: acc) rest

/-- Reads the rest of a string whose opening quote was read. -/
def scanString (cs : List Char) : Scan String :=
  scanStringFrom [] cs

/-- `10^308`, the largest power of ten in binary64. -/
def pow10Max : Binary64 :=
  match Binary64.pow10 308 with
  | .finite x => x
  | .overflow => default

/-- The binary64 value of `±significand * 10^exponent`: the significand rounded, then one
rounded multiplication or division by a power of ten. -/
def fromParts (positive : Bool) (significand : Nat) (exponent : Int) : Except ReadError Binary64 :=
  match Binary64.ofNat significand with
  | .overflow => .error .grammar
  | .finite f => (scale 8 f exponent).map fun r => if positive then r else r.neg
where
  /-- Applies `10^e` to `f`, dividing by `10^308` while `-e` is past the table. -/
  scale : Nat → Binary64 → Int → Except ReadError Binary64
    | 0, f, _ => .ok f
    | fuel + 1, f, e =>
      if e.natAbs ≤ 308 then
        match Binary64.pow10 e.natAbs with
        | .overflow => .error .grammar
        | .finite p =>
          match (if 0 ≤ e then f.mul p else f.div p) with
          | .finite r => .ok r
          | .overflow => .error .grammar
      else if f.isZero then .ok f
      else if 0 ≤ e then .error .grammar
      else
        match f.div pow10Max with
        | .finite r => scale fuel r (e + 308)
        | .overflow => .error .grammar

/-- Saturates to the signed 32-bit range. -/
def saturate (e : Int) : Int :=
  max (min e i32Max) (-i32Max - 1)

/-- After an exponent too large to hold: an error for a non-zero significand and a positive
exponent, and zero otherwise. -/
def exponentOverflow (positive zeroSignificand positiveExponent : Bool) (cs : List Char) :
    Scan Binary64 :=
  if !zeroSignificand && positiveExponent then .error .grammar
  else .ok (⟨!positive, 0, Binary64.minExponent⟩, skipDigits cs)

/-- Reads the digits of an exponent, `exp` so far. -/
def exponentDigits (positive : Bool) (significand : Nat) (start : Int) (positiveExponent : Bool)
    (exp : Nat) : List Char → Scan Binary64
  | c :: cs =>
    if isDigit c then
      let exp' := exp * 10 + digitValue c
      if (exp' : Int) > i32Max then exponentOverflow positive (significand == 0) positiveExponent cs
      else exponentDigits positive significand start positiveExponent exp' cs
    else
      let final := saturate (if positiveExponent then start + exp else start - exp)
      (fromParts positive significand final).map (·, c :: cs)
  | [] =>
    let final := saturate (if positiveExponent then start + exp else start - exp)
    (fromParts positive significand final).map (·, [])

/-- Reads an exponent after its letter `e` or `E`. -/
def exponentPart (positive : Bool) (significand : Nat) (start : Int) (cs : List Char) :
    Scan Binary64 :=
  let (positiveExponent, cs) :=
    match cs with
    | '+' :: rest => (true, rest)
    | '-' :: rest => (false, rest)
    | _ => (true, cs)
  match cs with
  | c :: rest =>
    if isDigit c then exponentDigits positive significand start positiveExponent (digitValue c) rest
    else .error .grammar
  | [] => .error .grammar

/-- The end of a number whose significand is full: the digits left are dropped. -/
def significandFull (positive : Bool) (significand : Nat) (exponent : Int) (cs : List Char) :
    Scan Binary64 :=
  match skipDigits cs with
  | c :: rest =>
    if c == 'e' || c == 'E' then exponentPart positive significand exponent rest
    else (fromParts positive significand exponent).map (·, c :: rest)
  | [] => (fromParts positive significand exponent).map (·, [])

/-- Reads the digits after a decimal point; `after` of them have been read. -/
def fractionDigits (positive : Bool) (significand : Nat) (before : Int) (after : Nat) :
    List Char → Scan Binary64
  | c :: cs =>
    if isDigit c then
      let s := significand * 10 + digitValue c
      if s > u64Max then significandFull positive significand (before - after) (c :: cs)
      else fractionDigits positive s before (after + 1) cs
    else if after = 0 then .error .grammar
    else if c == 'e' || c == 'E' then exponentPart positive significand (before - after) cs
    else (fromParts positive significand (before - after)).map (·, c :: cs)
  | [] =>
    if after = 0 then .error .grammar
    else (fromParts positive significand (before - after)).map (·, [])

/-- Reads the digits of an integer part past the significand's range; each one raises the
exponent. -/
def longInteger (positive : Bool) (significand : Nat) (exponent : Int) : List Char → Scan Binary64
  | c :: cs =>
    if isDigit c then longInteger positive significand (exponent + 1) cs
    else if c == '.' then fractionDigits positive significand exponent 0 cs
    else if c == 'e' || c == 'E' then exponentPart positive significand exponent cs
    else (fromParts positive significand exponent).map (·, c :: cs)
  | [] => (fromParts positive significand exponent).map (·, [])

/-- The number whose integer part `significand` has been read: a fraction or an exponent
makes it a binary64 number, and otherwise it is an integer if it fits. -/
def afterInteger (positive : Bool) (significand : Nat) (cs : List Char) : Scan Number :=
  match cs with
  | '.' :: rest => (fractionDigits positive significand 0 0 rest).map fun (x, r) => (.float x, r)
  | c :: rest =>
    if c == 'e' || c == 'E' then
      (exponentPart positive significand 0 rest).map fun (x, r) => (.float x, r)
    else integer.map (·, cs)
  | [] => integer.map (·, [])
where
  /-- The integer, or the binary64 number for a negative zero or one below `-2^63`. -/
  integer : Except ReadError Number :=
    if positive then .ok (.unsigned significand)
    else if significand = 0 ∨ significand > Nat.pow 2 63 then
      match Binary64.ofNat significand with
      | .finite x => .ok (.float x.neg)
      | .overflow => .error .grammar
    else .ok (.signed (-(significand : Int)))

/-- Reads the digits of an integer part; `significand` so far. -/
def integerDigits (positive : Bool) (significand : Nat) : List Char → Scan Number
  | c :: cs =>
    if isDigit c then
      let s := significand * 10 + digitValue c
      if s > u64Max then
        (longInteger positive significand 0 (c :: cs)).map fun (x, r) => (.float x, r)
      else integerDigits positive s cs
    else afterInteger positive significand (c :: cs)
  | [] => afterInteger positive significand []

/-- Reads a number after its optional minus sign: one leading zero at most. -/
def scanUnsigned (positive : Bool) : List Char → Scan Number
  | '0' :: cs =>
    match cs with
    | c :: _ => if isDigit c then .error .grammar else afterInteger positive 0 cs
    | [] => afterInteger positive 0 []
  | c :: cs =>
    if isDigit c then integerDigits positive (digitValue c) cs else .error .grammar
  | [] => .error .grammar

/-- Reads a number that starts with a digit or a minus sign. -/
def scanNumber : List Char → Scan Number
  | '-' :: cs => scanUnsigned false cs
  | cs => scanUnsigned true cs

end Json

end AvlCollections
