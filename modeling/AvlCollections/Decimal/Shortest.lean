import AvlCollections.Decimal.Binary64

/-! # Shortest decimal digits

The reals that round to a binary64 number form an interval that reaches halfway to each
neighbour, both ends included exactly when the significand is even; below a power of two the
neighbour beneath is half as far as the one above. Of the decimals in that interval,
`shortest` takes one with the fewest significant digits, and of those the nearest to the
number (an exact tie goes to the even last digit). The search is exact arithmetic on
naturals: for one digit, then two, and so on, it tests the number's two neighbours on the
grid of that many digits.
-/

namespace AvlCollections

namespace Decimal

/-- A decimal `digits * 10^exponent`. -/
structure Dec where
  /-- The significant digits. -/
  digits : Nat
  /-- The decimal exponent. -/
  exponent : Int
  deriving Repr, DecidableEq, Inhabited

/-- Moves trailing zeros of the digits into the exponent. -/
def Dec.trim (d : Dec) : Dec :=
  go 400 d
where
  /-- Strips at most `fuel` zeros. -/
  go : Nat → Dec → Dec
    | 0, d => d
    | fuel + 1, d =>
      if d.digits ≠ 0 ∧ d.digits % 10 = 0 then go fuel ⟨d.digits / 10, d.exponent + 1⟩ else d

/-- Compares `a * 10^i` with `n * 2^j` exactly. -/
def compareScaled (a : Nat) (i : Int) (n : Nat) (j : Int) : Ordering :=
  compare (a * Nat.pow 10 i.toNat * Nat.pow 2 (-j).toNat)
    (n * Nat.pow 2 j.toNat * Nat.pow 10 (-i).toNat)

namespace Binary64

/-- Whether the neighbour below is half as far away as the neighbour above. -/
def narrowBelow (x : Binary64) : Bool :=
  x.significand == minNormal && x.exponent > minExponent

/-- Whether the decimal `d` rounds to the magnitude of `x`. -/
def readsBack (x : Binary64) (d : Dec) : Bool :=
  let m := x.significand
  let lo := if x.narrowBelow then 4 * m - 1 else 4 * m - 2
  let hi := 4 * m + 2
  let closed := m % 2 == 0
  let cl := compareScaled d.digits d.exponent lo (x.exponent - 2)
  let ch := compareScaled d.digits d.exponent hi (x.exponent - 2)
  (cl == .gt || (closed && cl == .eq)) && (ch == .lt || (closed && ch == .eq))

/-- The magnitude as a quotient of naturals. -/
def ratio (x : Binary64) : Nat × Nat :=
  scaled x.significand 1 x.exponent

/-- The least `k` with `a / b < 10^k`, for `a` positive, searching upward from the
given `k` within `fuel` steps. -/
def scaleFrom (a b : Nat) : Nat → Int → Int
  | 0, k => k
  | fuel + 1, k =>
    let (n, d) := if 0 ≤ k then (Nat.pow 10 k.toNat, 1) else (1, Nat.pow 10 (-k).toNat)
    if a * d < b * n then k else scaleFrom a b fuel (k + 1)

/-- The least `k` with `a / b < 10^k`, for `a` and `b` positive: the search starts just
below the estimate from the binary logarithm. -/
def decimalScale (a b : Nat) : Int :=
  scaleFrom a b 8 (floorLog2 a b * 30103 / 100000 - 2)

/-- The two decimals with `n` significant digits next to the magnitude of `x`, below (or
at) and above it, where `10^k` is the least power of ten above the magnitude. -/
def neighbours (x : Binary64) (k : Int) (n : Nat) : Dec × Dec :=
  let p := k - n
  let (a, b) := x.ratio
  let (num, den) := if 0 ≤ p then (a, b * Nat.pow 10 p.toNat) else (a * Nat.pow 10 (-p).toNat, b)
  let c := num / den
  (⟨c, p⟩, ⟨c + 1, p⟩)

/-- Of two decimals on one grid around the magnitude of `x`, the nearer; a tie goes to the
even digits. -/
def nearer (x : Binary64) (lo hi : Dec) : Dec :=
  -- compare twice the magnitude with lo + hi, both on the grid of `lo`
  match compareScaled (lo.digits + hi.digits) lo.exponent (2 * x.significand) x.exponent with
  | .lt => hi
  | .gt => lo
  | .eq => if lo.digits % 2 == 0 then lo else hi

/-- The first grid, from `n` digits on, on which a neighbour of `x` reads back. -/
def search (x : Binary64) (k : Int) : Nat → Nat → Option Dec
  | 0, _ => none
  | fuel + 1, n =>
    let (lo, hi) := x.neighbours k n
    match x.readsBack lo, x.readsBack hi with
    | true, true => some (x.nearer lo hi)
    | true, false => some lo
    | false, true => some hi
    | false, false => x.search k fuel (n + 1)

/-- The exact decimal value of the magnitude of `x`. -/
def exact (x : Binary64) : Dec :=
  if 0 ≤ x.exponent then ⟨x.significand * Nat.pow 2 x.exponent.toNat, 0⟩
  else ⟨x.significand * Nat.pow 5 (-x.exponent).toNat, x.exponent⟩

/-- The shortest decimal that reads back as the magnitude of `x`, nearest of those; its
digits have no trailing zero. Zero gives the digits 0. -/
def shortest (x : Binary64) : Dec :=
  if x.significand = 0 then ⟨0, 0⟩
  else
    let (a, b) := x.ratio
    let k := decimalScale a b
    Dec.trim ((x.search k 17 1).getD x.exact)

end Binary64

end Decimal

end AvlCollections
