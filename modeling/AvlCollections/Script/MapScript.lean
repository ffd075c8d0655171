import AvlCollections.Script.SetScript

/-! # Scripts on maps

A map script starts with one map, `main`, built from the script's order, and runs its steps
in order; each step names a map with `m` (default `main`), a key with `k` and a value with
`v`. The answer lists one answer per step and describes `main` at the end. A step that
changes a map answers its result together with the number of entries, the number of values
and, up to 40 entries, the shape. Cursor steps work on the map's entries.
-/

namespace AvlCollections

namespace Script

open Json

variable {κ ν : Type} [Element κ] [Element ν] [BEq κ] [BEq ν]

/-- An entry as an answer: `{"key": k, "values": [v, ...]}`. -/
def entryValue (e : Entry κ ν) : Value :=
  .obj [("key", Element.encode e.key), ("values", elements e.values)]

/-- The shape text of a map, written by the cursor walk over its entries, each entry written
`key:[v1,v2]`. -/
def mapShape (m : MultiMap κ ν) : String :=
  (m.entries.shapeText (Entry.render Element.display Element.display)).getD ""

/-- The answer of a step that changed a map: its result `r`, the number of entries and of
values and, up to 40 entries, the shape. -/
def changedMap (r : Value) (m : MultiMap κ ν) : Value :=
  .obj ([("r", r), ("len", .int m.len), ("value_count", .int m.valueCount)] ++
    if m.len ≤ 40 then [("shape", .str (mapShape m))] else [])

/-- The final description of a map. -/
def mapSummary (m : MultiMap κ ν) : Value :=
  .obj [("len", .int m.len), ("value_count", .int m.valueCount), ("shape", .str (mapShape m)),
    ("pages", .arr (m.toList.map entryValue))]

/-- The debug listing of a map, `{1: [122], 2: [120, 121]}`; only maps of integers have one. -/
def mapDebug (m : MultiMap κ ν) : Checked String := do
  let key ← need (Element.debug? (α := κ))
  let value ← need (Element.debug? (α := ν))
  pure ("\x7b" ++ ", ".intercalate (m.toList.map fun e =>
    key e.key ++ ": [" ++ ", ".intercalate (e.values.map value) ++ "]") ++ "\x7d")

/-- Whether two maps hold equal keys with equal values, in the same order. -/
def sameEntries (a b : MultiMap κ ν) : Bool :=
  a.toList.length == b.toList.length &&
    (a.toList.zip b.toList).all fun (x, y) => x.key == y.key && x.values == y.values

/-- The answer of `index` on a missing key. -/
def missingKeyPanic : Value :=
  .obj [("error", .str "panic"), ("message", .str "no entry found for key")]

/-- Runs a step that queries or changes the map `m` named `name`. -/
def mapStepOn (st : Session (MultiMap κ ν)) (name : String) (m : MultiMap κ ν) (op : String)
    (step : Value) : Checked (Value × Session (MultiMap κ ν)) := do
  let fresh := st.nextId
  let key : Checked κ := required step "k" Element.decode
  let value : Checked ν := required step "v" Element.decode
  let pairs : Checked (List (κ × ν)) :=
    required step "pairs" (asList (asPair Element.decode Element.decode))
  let encodeV : ν → Value := Element.encode
  let changed (r : Value) (m' : MultiMap κ ν) : Value × Session (MultiMap κ ν) :=
    (changedMap r m', st.put name m')
  match cursorStep m.entries entryValue op step st.cursors with
  | some r =>
    let (v, cursors) ← r
    pure (v, { st with cursors })
  | none =>
  match op with
  | "insert" =>
    let (old, m') := m.insert (← key) (← value) fresh
    pure (changed (Value.ofOption (old.map elements)) m')
  | "insert_multi" =>
    pure (changed .null (m.insertMulti (← key) (← value) fresh))
  | "default" =>
    let (x, m') := m.alterOrInsert (← key) Element.zero id fresh
    pure (changed (encodeV x) m')
  | "default_add" =>
    let v ← value
    let (x, m') := m.alterOrInsert (← key) Element.zero (fun x => Element.plus x v) fresh
    pure (changed (encodeV x) m')
  | "set" =>
    match m.locate (← key) with
    | some p => pure (changed .null (m.setValueAt p (← value)))
    | none => pure (changed (errorValue .indexOutOfRange) m)
  | "get_mut_set" =>
    match m.locate (← key) with
    | some p => pure (changed (.bool true) (m.setValueAt p (← value)))
    | none => pure (changed (.bool false) m)
  | "remove_at" =>
    match st.cursors.get? (← required step "c" asString) with
    | none => pure (noCursor, st)
    | some _ => .error {}
  | "remove" =>
    let (old, m') := m.remove (← key) fresh
    pure (changed (Value.ofOption (old.map elements)) m')
  | "remove_value" =>
    let (n, m') := m.removeValue (← key) (← value) fresh
    pure (changed (.int n) m')
  | "clear" => pure (changed .null (m.clear fresh))
  | "extend" => pure (changed .null (m.extend (← pairs) fresh))
  | "collect" => pure (changed .null (MultiMap.ofList OrderName.natural.cmp (← pairs) fresh))
  | "eq" =>
    let other ← st.slot (← required step "u" asString)
    pure (.bool (sameEntries m other), st)
  | "at" =>
    match m.lookup (← key) with
    | .ok v => pure (encodeV v, st)
    | .error e => pure (errorValue e, st)
  | "get" => pure (Value.ofOption ((m.get? (← key)).map encodeV), st)
  | "values" => pure (Value.ofOption ((m.values? (← key)).map elements), st)
  | "page" => pure (Value.ofOption ((m.entry? (← key)).map entryValue), st)
  | "contains" => pure (.bool (m.containsKey (← key)), st)
  | "index" =>
    match m.get? (← key) with
    | some v => pure (encodeV v, st)
    | none => pure (missingKeyPanic, st)
  | "len" => pure (.int m.len, st)
  | "is_empty" => pure (.bool m.isEmpty, st)
  | "value_count" => pure (.int m.valueCount, st)
  | "keys" => pure (elements (m.entries.iter.rest.map (·.key)), st)
  | "keys_rev" => pure (elements (m.entries.iter.restBack.map (·.key)), st)
  | "keys_len" => pure (.int m.entries.iter.len, st)
  | "keys_last" => pure (Value.ofOption (m.entries.iter.last.map fun e => Element.encode e.key), st)
  | "pages" => pure (.arr (m.entries.iter.rest.map entryValue), st)
  | "into_pages" =>
    pure (.arr (m.toList.map fun e => .arr [Element.encode e.key, elements e.values]), st)
  | "first" => pure (Value.ofOption (m.first?.map entryValue), st)
  | "last" => pure (Value.ofOption (m.last?.map entryValue), st)
  | "shape" => pure (.str (mapShape m), st)
  | "height" => pure (.int m.root.height, st)
  | "debug" => pure (.str (← mapDebug m), st)
  | "to_json" => pure (.str m.toJson, st)
  | _ => .error {}

/-- Runs one step of a map script. -/
def mapStep (st : Session (MultiMap κ ν)) (step : Value) :
    Checked (Value × Session (MultiMap κ ν)) := do
  let op ← required step "op" asString
  let name := (← optional step "m" asString).getD "main"
  match op with
  | "new" =>
    let order := (← optional step "order" asOrder).getD .natural
    pure (.null, (st.put name (MultiMap.empty order.cmp)).advance)
  | "clone" =>
    let source ← st.slot (← required step "from" asString)
    let copy := source.copy st.nextId
    pure (.str (mapShape copy), (st.put name copy).advance)
  | _ =>
    let m ← st.slot name
    let (v, st') ← mapStepOn st name m op step
    pure (v, st'.advance)

/-- Runs steps in order; the answers, and the session after them. -/
def runMapSteps (st : Session (MultiMap κ ν)) :
    List Value → Checked (List Value × Session (MultiMap κ ν))
  | [] => .ok ([], st)
  | step :: steps => do
    let (v, st') ← mapStep st step
    let (vs, st'') ← runMapSteps st' steps
    pure (v :: vs, st'')

/-- Runs a map script: its order and steps. -/
def runMapScript (input : Value) : Checked Value := do
  let order := (← optional input "order" asOrder).getD .natural
  let steps ← required input "steps" (asList some)
  let start : Session (MultiMap κ ν) := { slots := [("main", MultiMap.empty order.cmp)] }
  let (answers, st) ← runMapSteps start steps
  let main ← st.slot "main"
  pure (.obj [("steps", .arr answers), ("final", mapSummary main)])

end Script

end AvlCollections
