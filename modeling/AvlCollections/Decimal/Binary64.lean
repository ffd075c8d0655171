/-! # Binary64 numbers

Finite IEEE 754 double-precision numbers, held as a sign, a significand and a binary
exponent, and the one rounding that every operation here performs: an exact non-negative
rational is rounded to the nearest such number, a tie going to the even significand, and a
result beyond the largest finite number is an overflow. Products and quotients are computed
exactly and rounded once, which is what binary64 multiplication and division are.
-/

namespace AvlCollections

namespace Decimal

/-- A finite binary64 number `(-1)^negative * significand * 2^exponent`. Rounding produces
significands below `2^53` and exponents of at least `-1074`; a significand below `2^52`
occurs only with the exponent `-1074` (a subnormal number). -/
structure Binary64 where
  /-- The sign; zero has one too. -/
  negative : Bool
  /-- The significand. -/
  significand : Nat
  /-- The binary exponent. -/
  exponent : Int
  deriving Repr, DecidableEq, Inhabited

/-- The result of a rounding: a finite number, or a magnitude too large for binary64. -/
inductive Rounded where
  /-- A finite number. -/
  | finite (x : Binary64)
  /-- The magnitude is beyond the largest finite number. -/
  | overflow
  deriving Repr, DecidableEq, Inhabited

namespace Binary64

/-- `2^52`, the smallest significand of a normal number. -/
def minNormal : Nat := Nat.pow 2 52

/-- The smallest exponent. -/
def minExponent : Int := -1074

/-- The largest exponent of a finite number. -/
def maxExponent : Int := 971

/-- `a / b * 2^k` as a quotient of naturals. -/
def scaled (a b : Nat) (k : Int) : Nat × Nat :=
  (a * Nat.pow 2 k.toNat, b * Nat.pow 2 (-k).toNat)

/-- The floor of the binary logarithm of `a / b`, for `a` and `b` positive. -/
def floorLog2 (a b : Nat) : Int :=
  let k : Int := (Nat.log2 a : Int) - Nat.log2 b
  let (n, d) := scaled 1 1 k
  if a * d < b * n then k - 1 else k

/-- Rounds `a / b` to the nearest binary64 number with sign `negative`, ties to even. -/
def round (negative : Bool) (a b : Nat) : Rounded :=
  if a = 0 ∨ b = 0 then .finite ⟨negative, 0, minExponent⟩
  else
    let e := max (floorLog2 a b - 52) minExponent
    let (n, d) := scaled a b (-e)
    let q := n / d
    let r := n % d
    let q := if 2 * r > d ∨ (2 * r = d ∧ q % 2 = 1) then q + 1 else q
    let (q, e) := if q = Nat.pow 2 53 then (minNormal, e + 1) else (q, e)
    if e > maxExponent then .overflow else .finite ⟨negative, q, e⟩

/-- The binary64 number nearest to a natural number. -/
def ofNat (n : Nat) : Rounded :=
  round false n 1

/-- The number with the opposite sign. -/
def neg (x : Binary64) : Binary64 :=
  { x with negative := !x.negative }

/-- Whether the number is zero, of either sign. -/
def isZero (x : Binary64) : Bool :=
  x.significand == 0

/-- The rounded product. -/
def mul (x y : Binary64) : Rounded :=
  let (a, b) := scaled (x.significand * y.significand) 1 (x.exponent + y.exponent)
  round (x.negative != y.negative) a b

/-- The rounded quotient; `y` must not be zero. -/
def div (x y : Binary64) : Rounded :=
  let (a, b) := scaled x.significand y.significand (x.exponent - y.exponent)
  round (x.negative != y.negative) a b

/-- The binary64 number nearest to `10^k`. -/
def pow10 (k : Nat) : Rounded :=
  ofNat (Nat.pow 10 k)

end Binary64

end Decimal

end AvlCollections
