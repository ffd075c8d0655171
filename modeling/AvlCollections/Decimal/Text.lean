import AvlCollections.Decimal.Shortest

/-! # Laying out decimals

A `FloatFormat` fixes where a decimal is written positionally and where with an exponent.
The point position of `digits * 10^exponent` is the number of its digits plus the exponent,
so that the number is `0.digits * 10^point`.
-/

namespace AvlCollections

namespace Decimal

/-- The decisions of a text format for numbers. -/
structure FloatFormat where
  /-- The largest point position written positionally. -/
  maxPoint : Int
  /-- Point positions above this one (and up to `maxPoint`) are written positionally. -/
  minPoint : Int
  /-- What follows the digits of an integer written positionally. -/
  integerSuffix : String
  /-- The text of zero, after the sign. -/
  zero : String
  /-- The mark before the exponent. -/
  mark : String
  /-- Whether an exponent that is not negative is written with a plus sign. -/
  plusSign : Bool := false

/-- `n` zeros. -/
def zeros (n : Nat) : String :=
  String.ofList (List.replicate n '0')

namespace FloatFormat

/-- The text of `d`, which has no trailing zero, with a minus sign when `negative`.
An integer below the largest positional point is written with its zeros and the integer
suffix; a point inside the digits is written there; a point at or a little before the first
digit gets leading zeros; everything else is `d.ddd`, the mark and the exponent, with no
point after a single digit, and a plus sign before an exponent that is not negative when the
format asks for one. -/
def render (f : FloatFormat) (negative : Bool) (d : Dec) : String :=
  let sign := if negative then "-" else ""
  if d.digits = 0 then sign ++ f.zero
  else
    let ds := toString d.digits
    let len : Int := ds.length
    let point := len + d.exponent
    let body :=
      if 0 ≤ d.exponent ∧ point ≤ f.maxPoint then
        ds ++ zeros d.exponent.toNat ++ f.integerSuffix
      else if 0 < point ∧ point ≤ f.maxPoint then
        String.ofList (ds.toList.take point.toNat) ++ "." ++
          String.ofList (ds.toList.drop point.toNat)
      else if f.minPoint < point ∧ point ≤ 0 then
        "0." ++ zeros (-point).toNat ++ ds
      else
        let rest := String.ofList (ds.toList.drop 1)
        let lead := String.ofList (ds.toList.take 1)
        let exponent := point - 1
        let exponentSign := if f.plusSign ∧ 0 ≤ exponent then "+" else ""
        (if rest.isEmpty then lead else lead ++ "." ++ rest) ++ f.mark ++ exponentSign ++
          toString exponent
    sign ++ body

end FloatFormat

/-- The shortest text of a binary64 number in format `f`. -/
def Binary64.toText (f : FloatFormat) (x : Binary64) : String :=
  f.render x.negative x.shortest

end Decimal

end AvlCollections
