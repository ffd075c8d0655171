/-! # Map entries

An entry holds a key and the non-empty list of values stored under it, oldest first. Its
value is the newest one.
-/

namespace AvlCollections

/-- A key with a non-empty list of values, oldest first. -/
structure Entry (κ ν : Type) where
  /-- The key. -/
  key : κ
  /-- The values, oldest first. -/
  values : List ν
  /-- An entry always holds a value. -/
  nonempty : values ≠ []

namespace Entry

variable {κ ν : Type}

/-- The entry of one value. -/
def single (k : κ) (v : ν) : Entry κ ν :=
  ⟨k, [v], List.cons_ne_nil v []⟩

/-- The entry of a list of values, if the list is not empty. -/
def ofValues? (k : κ) (vs : List ν) : Option (Entry κ ν) :=
  if h : vs = [] then none else some ⟨k, vs, h⟩

/-- Entries are ordered by their keys. -/
def byKey (cmp : κ → κ → Ordering) (a b : Entry κ ν) : Ordering :=
  cmp a.key b.key

/-- The newest value. -/
def value (e : Entry κ ν) : ν :=
  e.values.getLast e.nonempty

/-- Applies `f` to the newest value. -/
def modifyValue (f : ν → ν) (e : Entry κ ν) : Entry κ ν :=
  ⟨e.key, e.values.dropLast ++ [f e.value], by simp⟩

/-- The entry with the values of `other` in place of its own; the key is kept. -/
def takeValues (other e : Entry κ ν) : Entry κ ν :=
  ⟨e.key, other.values, other.nonempty⟩

/-- The entry with the values of `other` added after its own; the key is kept. -/
def appendValues (other e : Entry κ ν) : Entry κ ν :=
  ⟨e.key, e.values ++ other.values, by simp [e.nonempty]⟩

/-- The values that differ from `v`, and how many were dropped. -/
def dropValue [BEq ν] (v : ν) (e : Entry κ ν) : List ν × Nat :=
  let kept := e.values.filter (· != v)
  (kept, e.values.length - kept.length)

/-- The text `key:[v1,v2]`. -/
def render (key : κ → String) (value : ν → String) (e : Entry κ ν) : String :=
  key e.key ++ ":[" ++ ",".intercalate (e.values.map value) ++ "]"

end Entry

end AvlCollections
