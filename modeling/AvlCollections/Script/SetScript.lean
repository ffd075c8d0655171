import AvlCollections.Script.Step
import AvlCollections.Set.Print

/-! # Scripts on sets

A set script starts with one set, `main`, built from the script's order, policy and
capacity, and runs its steps in order; each step names a set with `t` (default `main`). The
answer lists one answer per step and describes `main` at the end. A step that changes a set
answers its result together with the set's size, height and, up to 40 elements, its shape.
-/

namespace AvlCollections

namespace Script

open Json

variable {α : Type} [Element α] [BEq α]

/-- Elements as an answer. -/
def elements (xs : List α) : Value :=
  .arr (xs.map Element.encode)

/-- The shape text of a set, written by the cursor walk; a formatting error would leave it
empty, and no set that the operations build meets one. -/
def setShape (s : AvlSet α) : String :=
  (s.shapeText Element.display).getD ""

/-- The answer of a step that changed a set: its result `r`, the size, the height and, up to
40 elements, the shape. -/
def changedSet (r : Value) (s : AvlSet α) : Value :=
  .obj ([("r", r), ("len", .int s.len), ("height", .int s.height)] ++
    if s.len ≤ 40 then [("shape", .str (setShape s))] else [])

/-- The final description of a set. -/
def setSummary (s : AvlSet α) : Value :=
  .obj [("len", .int s.len), ("height", .int s.height), ("shape", .str (setShape s)),
    ("items", elements s.toList)]

/-- An empty set with the given order, policy and capacity. -/
def emptySet (order : OrderName) (policy : Policy) (capacity : Nat) : AvlSet α :=
  (AvlSet.empty order.cmp capacity).withPolicy policy

/-- The policy as an answer. -/
def Policy.name : Policy → String
  | .reject => "reject"
  | .replace => "replace"

/-- The debug listing of a set, `{1, 2, 3}`; sets of texts have none. -/
def setDebug (s : AvlSet α) : Checked String := do
  let shown ← need (Element.debug? (α := α))
  pure ("\x7b" ++ ", ".intercalate (s.toList.map shown) ++ "\x7d")

/-- Runs a step that queries or changes the set `s` named `name`. -/
def setStepOn (st : Session (AvlSet α)) (name : String) (s : AvlSet α) (op : String)
    (step : Value) : Checked (Value × Session (AvlSet α)) := do
  let fresh := st.nextId
  let encode : α → Value := Element.encode
  let elem (key : String) : Checked α := required step key Element.decode
  let changed (r : Value) (s' : AvlSet α) : Value × Session (AvlSet α) :=
    (changedSet r s', st.put name s')
  match cursorStep s encode op step st.cursors with
  | some r =>
    let (v, cursors) ← r
    pure (v, { st with cursors })
  | none =>
  match op with
  | "add" =>
    let (r, s') := s.add (← elem "v") fresh
    match r with
    | .ok cur =>
      let st' := match ← optional step "c" asString with
        | some c => (st.put name s').putCursor c (some cur)
        | none => st.put name s'
      pure (changedSet (okValue (describe s' encode cur)) s', st')
    | .error e => pure (changed (errorValue e) s')
  | "remove" =>
    let x ← elem "v"
    let (r, s') := s.remove x fresh
    pure (changed (Value.ofOption (r.map encode)) s')
  | "remove_by" =>
    let x ← elem "v"
    let (r, s') := s.removeBy (s.cmp x) fresh
    pure (changed (Value.ofOption (r.map encode)) s')
  | "remove_at" =>
    let c ← required step "c" asString
    match st.cursors.get? c with
    | none => pure (noCursor, st)
    | some cur =>
      let (r, s') := s.removeAt cur fresh
      let answer := match r with
        | .ok x => okValue (encode x)
        | .error e => errorValue e
      pure (changed answer s')
  | "clear" => pure (changed .null (s.clear fresh))
  | "extend" =>
    let xs ← required step "vs" (asList Element.decode)
    pure (changed .null (s.extend xs fresh))
  | "collect" =>
    let xs ← required step "vs" (asList Element.decode)
    pure (changed .null (AvlSet.ofList OrderName.natural.cmp xs fresh))
  | "eq" =>
    let other ← st.slot (← required step "u" asString)
    pure (.bool (s.toList == other.toList), st)
  | "contains" => pure (.bool (s.contains (← elem "v")), st)
  | "get" => pure (Value.ofOption ((s.get (← elem "v")).map encode), st)
  | "search" =>
    let x ← elem "v"
    let c ← required step "c" asString
    match s.search x with
    | some cur => pure (describe s encode cur, st.putCursor c (some cur))
    | none => pure (.null, st.putCursor c none)
  | "min" => pure (Value.ofOption (s.min?.map encode), st)
  | "max" => pure (Value.ofOption (s.max?.map encode), st)
  | "len" => pure (.int s.len, st)
  | "is_empty" => pure (.bool s.isEmpty, st)
  | "height" => pure (.int s.height, st)
  | "shape" => pure (.str (setShape s), st)
  | "items" | "sorted_vec" | "into_vec" => pure (elements s.iter.rest, st)
  | "items_rev" => pure (elements s.iter.restBack, st)
  | "into_vec_rev" =>
    let it := s.iter
    let (lastOne, it') := it.nextBack
    pure (.obj [("len", .int it.len),
      ("items", .arr (Value.ofOption (lastOne.map encode) :: it'.restBack.map encode))], st)
  | "iter_mix" =>
    let pattern ← required step "pattern" asString
    pure (.arr (← iterMix encode s.iter pattern.toList), st)
  | "debug" => pure (.str (← setDebug s), st)
  | "policy" => pure (.str (Policy.name s.policy), st)
  | "set_policy" =>
    let policy := (← optional step "policy" asPolicy).getD .reject
    pure (.null, st.put name (s.withPolicy policy))
  | "to_json" => pure (.str s.toJson, st)
  | "capacity_ge" =>
    let n ← required step "n" asCapacity
    pure (.bool (decide (n ≤ s.capacity)), st)
  | _ => .error {}

/-- Runs one step of a set script. -/
def setStep (st : Session (AvlSet α)) (step : Value) : Checked (Value × Session (AvlSet α)) := do
  let op ← required step "op" asString
  let name := (← optional step "t" asString).getD "main"
  match op with
  | "new" =>
    let order := (← optional step "order" asOrder).getD .natural
    let policy := (← optional step "policy" asPolicy).getD .reject
    let capacity := (← optional step "capacity" asCapacity).getD 0
    pure (.null, (st.put name (emptySet order policy capacity)).advance)
  | "clone" =>
    let source ← st.slot (← required step "from" asString)
    let copy := source.copy st.nextId
    pure (.str (setShape copy), (st.put name copy).advance)
  | _ =>
    let s ← st.slot name
    let (v, st') ← setStepOn st name s op step
    pure (v, st'.advance)

/-- Runs steps in order; the answers, and the session after them. -/
def runSetSteps (st : Session (AvlSet α)) : List Value → Checked (List Value × Session (AvlSet α))
  | [] => .ok ([], st)
  | step :: steps => do
    let (v, st') ← setStep st step
    let (vs, st'') ← runSetSteps st' steps
    pure (v :: vs, st'')

/-- Runs a set script: its order, policy, capacity and steps. -/
def runSetScript (input : Value) : Checked Value := do
  let order := (← optional input "order" asOrder).getD .natural
  let policy := (← optional input "policy" asPolicy).getD .reject
  let capacity := (← optional input "capacity" asCapacity).getD 0
  let steps ← required input "steps" (asList some)
  let start : Session (AvlSet α) := { slots := [("main", emptySet order policy capacity)] }
  let (answers, st) ← runSetSteps start steps
  let main ← st.slot "main"
  pure (.obj [("steps", .arr answers), ("final", setSummary main)])

end Script

end AvlCollections
