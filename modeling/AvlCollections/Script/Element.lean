import AvlCollections.Json.Collection
import AvlCollections.Order

/-! # Elements of scripts

A script works on sets and maps of signed 64-bit integers or of texts. For each kind this
module says how an element is taken from a step, given back in an answer, shown in a shape
(integers in decimal, texts as they are), which default value it has and how a value is added
to (wrapping for integers, appending for texts).
-/

namespace AvlCollections

namespace Script

open Json

/-- The least signed 64-bit integer. -/
def int64Min : Int := -(Int.pow 2 63)

/-- What a script needs of an element type. -/
class Element (α : Type) extends Codec α, NamedOrders α where
  /-- The element given in a step, if the value has the right kind. -/
  decode : Value → Option α
  /-- The element as an answer. -/
  encode : α → Value
  /-- The element as it is shown in shapes and entries. -/
  display : α → String
  /-- The element in a debug listing, for the kinds that have one. -/
  debug? : Option (α → String)
  /-- The default value. -/
  zero : α
  /-- Adds `b` to `a`. -/
  plus : α → α → α

instance : Element Int64 where
  decode
    | .int n => if int64Min ≤ n ∧ n < Int.pow 2 63 then some (Int64.ofInt n) else none
    | _ => none
  encode x := .int x.toInt
  display x := toString x.toInt
  debug? := some fun x => toString x.toInt
  zero := 0
  plus a b := a + b

instance : Element String where
  decode
    | .str s => some s
    | _ => none
  encode s := .str s
  display s := s
  debug? := none
  zero := ""
  plus a b := a ++ b

end Script

end AvlCollections
