import AvlCollections.Text.Lowercase

/-! # Named orders

Four orders that a collection can be built with. `natural` is the usual order (numeric for
integers, by code point for text) and `reverse` its converse. `fold` ignores a difference
that does not matter for the kind of element: the sign of an integer (it compares magnitudes,
so `-5` and `5` are equivalent and the least integer is the largest) or the case of a
letter. `alt` orders integers downward and texts by their length in UTF-8 bytes.
-/

namespace AvlCollections

/-- The name of an order. -/
inductive OrderName where
  /-- The usual order. -/
  | natural
  /-- The converse of the usual order. -/
  | reverse
  /-- The usual order on magnitudes, or on lower-case forms. -/
  | fold
  /-- Downward for integers, by byte length for texts. -/
  | alt
  deriving Repr, DecidableEq, Inhabited

/-- The orders that an element type provides. -/
class NamedOrders (α : Type) where
  /-- The usual order. -/
  natural : α → α → Ordering
  /-- The order that ignores an unimportant difference. -/
  fold : α → α → Ordering
  /-- The alternative order. -/
  alt : α → α → Ordering

namespace OrderName

/-- The order of this name. -/
def cmp {α : Type} [NamedOrders α] : OrderName → α → α → Ordering
  | natural => NamedOrders.natural
  | reverse => fun a b => NamedOrders.natural b a
  | fold => NamedOrders.fold
  | alt => NamedOrders.alt

/-- The order named by a word. -/
def ofString? : String → Option OrderName
  | "natural" => some natural
  | "reverse" => some reverse
  | "fold" => some fold
  | "alt" => some alt
  | _ => none

end OrderName

instance : NamedOrders Int64 where
  natural a b := compare a.toInt b.toInt
  fold a b := compare a.toInt.natAbs b.toInt.natAbs
  alt a b := compare b.toInt a.toInt

instance : NamedOrders String where
  natural a b := compare a b
  fold a b := compare (Text.lower a) (Text.lower b)
  alt a b := compare a.utf8ByteSize b.utf8ByteSize

end AvlCollections
