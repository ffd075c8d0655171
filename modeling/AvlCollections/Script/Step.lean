import AvlCollections.Script.Element
import AvlCollections.Set.Navigate
import AvlCollections.Set.Iter

/-! # Steps of a script

A script is a JSON object whose steps act on named collections and named cursors. This module
holds what all scripts share: reading the fields of a step, the answers that describe errors
and cursors, the state of a session, and the steps that work on cursors.

A step whose fields are missing or of the wrong kind, or whose names are unknown, makes the
whole script malformed. A step that reads an empty cursor slot answers `no_cursor` and the
session goes on.
-/

namespace AvlCollections

namespace Script

open Json

/-- A script that cannot be run: a field is missing or has the wrong kind, or a name is
unknown. -/
structure Malformed where
  deriving Repr, Inhabited

/-- A result, or the verdict that the script is malformed. -/
abbrev Checked (α : Type) := Except Malformed α

/-- Fails with `Malformed` when there is no value. -/
def need {α : Type} : Option α → Checked α
  | some x => .ok x
  | none => .error {}

/-- Values named by strings; a later value replaces an earlier one of the same name. -/
abbrev Named (σ : Type) := List (String × σ)

namespace Named

variable {σ : Type}

/-- The value of a name. -/
def get? (xs : Named σ) (name : String) : Option σ :=
  (xs.find? (·.1 == name)).map (·.2)

/-- Gives `name` the value `x`. -/
def set (xs : Named σ) (name : String) (x : σ) : Named σ :=
  if xs.any (·.1 == name) then xs.map fun p => if p.1 == name then (name, x) else p
  else xs ++ [(name, x)]

/-- Forgets the value of `name`. -/
def erase (xs : Named σ) (name : String) : Named σ :=
  xs.filter (·.1 != name)

end Named

/-! ## Fields of a step -/

/-- An optional field: absent gives `none`, and a value `f` rejects, `null` among them, makes
the script malformed. -/
def optional {α : Type} (step : Value) (key : String) (f : Value → Option α) : Checked (Option α) :=
  match step.field? key with
  | none => .ok none
  | some v => (need (f v)).map some

/-- A field read leniently: its value if `f` accepts it, and `none` when it is absent or of
another kind. -/
def lenient {α : Type} (step : Value) (key : String) (f : Value → Option α) : Option α :=
  (step.field? key).bind f

/-- A required field. -/
def required {α : Type} (step : Value) (key : String) (f : Value → Option α) : Checked α :=
  match step.field? key with
  | some v => need (f v)
  | none => .error {}

/-- A string. -/
def asString : Value → Option String
  | .str s => some s
  | _ => none

/-- A boolean. -/
def asBool : Value → Option Bool
  | .bool b => some b
  | _ => none

/-- A non-negative integer below `2^64`. -/
def asCount : Value → Option Nat
  | .int n => if 0 ≤ n ∧ n < Int.pow 2 64 then some n.toNat else none
  | _ => none

/-- An array, each item read by `f`. -/
def asList {α : Type} (f : Value → Option α) : Value → Option (List α)
  | .arr items => items.mapM f
  | _ => none

/-- A pair written as an array of two items. -/
def asPair {α β : Type} (f : Value → Option α) (g : Value → Option β) : Value → Option (α × β)
  | .arr [a, b] => do pure (← f a, ← g b)
  | _ => none

/-- An order name. -/
def asOrder (v : Value) : Option OrderName :=
  (asString v).bind OrderName.ofString?

/-- A duplicate policy. -/
def asPolicy : Value → Option Policy
  | .str "reject" => some .reject
  | .str "replace" => some .replace
  | _ => none

/-- The largest capacity a script may ask for. -/
def maxCapacity : Nat := 1000000

/-- A capacity: a count up to `maxCapacity`. -/
def asCapacity (v : Value) : Option Nat :=
  (asCount v).bind fun n => if n ≤ maxCapacity then some n else none

/-! ## Answers -/

/-- The name of a cursor fault in answers. -/
def Fault.name : Fault → String
  | .stale => "Stale"
  | .sentinel => "Sentinel"
  | .detached => "Detached"

/-- An error as an answer: its kind, its message and, for cursors, the fault. -/
def errorValue : Error → Value
  | .indexOutOfRange =>
    .obj [("error", .str "IndexOutOfRange"), ("message", .str Error.indexOutOfRange.message)]
  | .duplicateKey =>
    .obj [("error", .str "DuplicateKey"), ("message", .str Error.duplicateKey.message)]
  | .invalidIterator f =>
    .obj [("error", .str "InvalidIterator"), ("fault", .str (Fault.name f)),
      ("message", .str (Error.invalidIterator f).message)]

/-- A cursor fault as an answer. -/
def faultValue (f : Fault) : Value :=
  errorValue (.invalidIterator f)

/-- The answer of a step that read an empty cursor slot. -/
def noCursor : Value :=
  .obj [("error", .str "no_cursor")]

/-- The answer `{"ok": v}`. -/
def okValue (v : Value) : Value :=
  .obj [("ok", v)]

/-- A cursor as an answer: `"end"`, `"pre_begin"`, `{"at": element}`, or the error of
reading its element. -/
def describe {β : Type} (s : AvlSet β) (encode : β → Value) (c : Cursor) : Value :=
  match c.position with
  | .pastEnd => .str "end"
  | .preBegin => .str "pre_begin"
  | .node _ =>
    match s.elementAt c with
    | .ok x => .obj [("at", encode x)]
    | .error f => faultValue f

/-! ## Sessions -/

/-- The state of a running script: its collections, its cursors and the next identity. -/
structure Session (σ : Type) where
  /-- The collections by name. -/
  slots : Named σ
  /-- The cursors by name, shared by all collections. -/
  cursors : Named Cursor := []
  /-- An identity no collection has taken yet. -/
  nextId : Nat := 1

namespace Session

variable {σ : Type}

/-- The collection named `name`; a missing one makes the script malformed. -/
def slot (st : Session σ) (name : String) : Checked σ :=
  need (st.slots.get? name)

/-- Gives the collection `name` the value `x`. -/
def put (st : Session σ) (name : String) (x : σ) : Session σ :=
  { st with slots := st.slots.set name x }

/-- Sets or empties a cursor slot. -/
def putCursor (st : Session σ) (name : String) : Option Cursor → Session σ
  | some c => { st with cursors := st.cursors.set name c }
  | none => { st with cursors := st.cursors.erase name }

/-- The session after a step: the next identity is a new one. -/
def advance (st : Session σ) : Session σ :=
  { st with nextId := st.nextId + 1 }

end Session

/-! ## Cursor steps -/

/-- The link a step name follows. -/
def linkOf : String → Option Link
  | "left" => some (.child .left)
  | "right" => some (.child .right)
  | "up" => some .parent
  | _ => none

/-- The link a `can_` step name asks about. -/
def canLinkOf : String → Option Link
  | "can_left" => some (.child .left)
  | "can_right" => some (.child .right)
  | "can_up" => some .parent
  | _ => none

/-- Moves a cursor up to `n` times with `move`; returns the descriptions after each
successful move, the fault that stopped it (if any) and where the cursor ended. -/
def walk {β : Type} (s : AvlSet β) (encode : β → Value) (move : Cursor → Except Fault Cursor) :
    Nat → Cursor → List Value → List Value × Option Value × Cursor
  | 0, c, seen => (seen.reverse, none, c)
  | n + 1, c, seen =>
    match move c with
    | .ok c' => walk s encode move n c' (describe s encode c' :: seen)
    | .error f => (seen.reverse, some (faultValue f), c)

/-- Runs a step that only reads and moves cursors on the set `s`, if `op` names one; returns
its answer and the new cursors. -/
def cursorStep {β : Type} (s : AvlSet β) (encode : β → Value) (op : String) (step : Value)
    (cursors : Named Cursor) : Option (Checked (Value × Named Cursor)) :=
  let desc := describe s encode
  -- a step that reads the cursor in slot `c`
  let reading (f : String → Cursor → Value × Named Cursor) : Checked (Value × Named Cursor) := do
    let name ← required step "c" asString
    match cursors.get? name with
    | some c => pure (f name c)
    | none => pure (noCursor, cursors)
  -- a step that puts a new cursor in slot `c`
  let placing (c? : Option Cursor) : Checked (Value × Named Cursor) := do
    let name ← required step "c" asString
    match c? with
    | some c => pure (desc c, cursors.set name c)
    | none => pure (.null, cursors.erase name)
  match op with
  | "begin" => some (placing (some s.first))
  | "end" => some (placing (some s.pastEnd))
  | "rbegin" => some (placing (some s.last))
  | "rend" => some (placing (some s.preBegin))
  | "root" => some (placing s.top?)
  | "copy" => some do
    match cursors.get? (← required step "from" asString) with
    | some c => pure (.null, cursors.set (← required step "c" asString) c)
    | none => pure (noCursor, cursors)
  | "cur_get" => some (reading fun _ c =>
    match s.elementAt c with
    | .ok x => (encode x, cursors)
    | .error f => (faultValue f, cursors))
  | "next" | "prev" => some (reading fun name c =>
    match (if op == "next" then s.next c else s.prev c) with
    | .ok c' => (.obj [("pos", desc c')], cursors.set name c')
    | .error f => (faultValue f, cursors))
  | "left" | "right" | "up" => some (reading fun name c =>
    match s.follow c ((linkOf op).getD .parent) with
    | .ok (moved, c') => (.obj [("moved", .bool moved), ("pos", desc c')], cursors.set name c')
    | .error f => (faultValue f, cursors))
  | "can_left" | "can_right" | "can_up" => some (reading fun _ c =>
    (.bool (s.hasLink c ((canLinkOf op).getD .parent)), cursors))
  | "is_end" => some (reading fun _ c => (.bool (c.position == .pastEnd), cursors))
  | "is_pre_begin" => some (reading fun _ c => (.bool (c.position == .preBegin), cursors))
  | "is_sentinel" => some (reading fun _ c => (.bool c.position.isSentinel, cursors))
  | "valid" => some (reading fun _ c => (.bool (s.accepts c), cursors))
  | "cur_eq" => some do
    match cursors.get? (← required step "c" asString) with
    | none => pure (noCursor, cursors)
    | some c =>
      match cursors.get? (← required step "d" asString) with
      | some d => pure (.bool (c.sameAs d), cursors)
      | none => pure (noCursor, cursors)
  | "walk" => some do
    let back := lenient step "back" asBool
    let limit := lenient step "max" asCount
    reading fun name c =>
      let move := if back.getD false then s.prev else s.next
      let (seen, stop, c') := walk s encode move (limit.getD 10000) c []
      (.obj [("seen", .arr seen), ("stop", Value.ofOption stop)], cursors.set name c')
  | _ => none

/-! ## Iteration steps -/

/-- The answers of a pattern of iterator calls on one iterator: `f` and `b` take an element
from the front or the back, `l` and `s` give the number left, `L` the last element left and
`n` how many are left to count. An unknown letter makes the script malformed. -/
def iterMix {β : Type} (encode : β → Value) : Iter β → List Char → Checked (List Value)
  | _, [] => .ok []
  | it, c :: cs =>
    let andThen (v : Value) (it' : Iter β) : Checked (List Value) :=
      (iterMix encode it' cs).map (v :: ·)
    match c with
    | 'f' => let (x, it') := it.next; andThen (Value.ofOption (x.map encode)) it'
    | 'b' => let (x, it') := it.nextBack; andThen (Value.ofOption (x.map encode)) it'
    | 'l' => andThen (.int it.len) it
    | 's' => andThen (.int it.remaining) it
    | 'L' => andThen (Value.ofOption (it.last.map encode)) it
    | 'n' => andThen (.int it.count) it
    | _ => .error {}

end Script

end AvlCollections
