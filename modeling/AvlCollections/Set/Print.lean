import AvlCollections.Set.Navigate

/-! # Writing a set's shape with a cursor

The shape text is written by one cursor that starts on the top node and moves only along
links: at each node it reads the element, goes down to the left child when there is one,
writes that subtree and climbs back up, and then does the same on the right. A cursor error
anywhere on the way becomes a formatting error, `none` here. The walk goes at most as many
levels deep as the set has elements, which no tree's depth exceeds.
-/

namespace AvlCollections

namespace AvlSet

variable {α : Type}

/-- Visits the child on side `d` of the cursor's node: when there is one, moves down to it,
writes its subtree with `write` and climbs back up; otherwise writes nothing and stays. -/
def visitChild (s : AvlSet α) (write : Cursor → Option (String × Cursor)) (d : Dir)
    (c : Cursor) : Option (String × Cursor) := do
  match ← (s.follow c (.child d)).toOption with
  | (true, c) =>
    let (text, c) ← write c
    let (_, c) ← (s.follow c .parent).toOption
    pure (text, c)
  | (false, c) => pure ("", c)

/-- Writes the subtree under the cursor as `(element,left,right)`, going at most `depth` levels
deep, and returns the cursor where the walk leaves it. -/
def writeSubtree (s : AvlSet α) (render : α → String) : Nat → Cursor → Option (String × Cursor)
  | 0, _ => none
  | depth + 1, c => do
    let v ← (s.elementAt c).toOption
    let (left, c) ← s.visitChild (s.writeSubtree render depth) .left c
    let (right, c) ← s.visitChild (s.writeSubtree render depth) .right c
    pure ("(" ++ render v ++ "," ++ left ++ "," ++ right ++ ")", c)

/-- The shape text written by a cursor from the top node; the empty set writes nothing. -/
def shapeText (s : AvlSet α) (render : α → String) : Option String :=
  match s.top? with
  | some c => (s.writeSubtree render s.len c).map (·.1)
  | none => some ""

end AvlSet

end AvlCollections
