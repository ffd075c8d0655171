import AvlCollections.Script.MapScript
import AvlCollections.Json.Parse

/-! # Running scripts

A script is one JSON object. Its `op` is `tree` or `map` for a session of steps, or
`tree_from_json` or `map_from_json` to read a set or a map from the JSON text `text`.
Elements, keys and values are integers (`int`, the default) or texts (`str`). A malformed
script answers `{"error":"bad_input"}` as a whole.
-/

namespace AvlCollections

namespace Script

open Json

/-- The kinds of elements a script can hold. -/
inductive Kind where
  /-- Signed 64-bit integers. -/
  | int
  /-- Texts. -/
  | str
  deriving Repr, DecidableEq, Inhabited

/-- A kind of elements. -/
def asKind : Value → Option Kind
  | .str "int" => some .int
  | .str "str" => some .str
  | _ => none

/-- The kind in field `key`, `int` when absent. -/
def kindOf (input : Value) (key : String) : Checked Kind :=
  (optional input key asKind).map (·.getD .int)

/-- A failed reading as an answer: `json_syntax` for text that is not JSON, or the message
of a data error. -/
def readFailure : ReadError → Value
  | .grammar => .obj [("error", .str "json_syntax")]
  | .data message => .obj [("error", .str "serde"), ("message", .str message)]

/-- The order of a reading: only the natural order and its reverse. -/
def readingOrder (input : Value) : Checked OrderName := do
  match (← optional input "order" asOrder).getD .natural with
  | .natural => pure .natural
  | .reverse => pure .reverse
  | _ => .error {}

/-- Reads a set from `text` and describes it. -/
def readSetScript (α : Type) [Element α] [BEq α] (input : Value) : Checked Value := do
  let order ← readingOrder input
  let text ← required input "text" asString
  match AvlSet.ofJson (order.cmp (α := α)) 1 text with
  | .ok s =>
    pure (.obj [("items", elements s.toList), ("len", .int s.len), ("height", .int s.height),
      ("shape", .str (setShape s)), ("json", .str s.toJson)])
  | .error e => pure (readFailure e)

/-- Reads a map from `text` and describes it. -/
def readMapScript (κ ν : Type) [Element κ] [Element ν] [BEq κ] [BEq ν] (input : Value) :
    Checked Value := do
  let order ← readingOrder input
  let text ← required input "text" asString
  match MultiMap.ofJson (ν := ν) (order.cmp (α := κ)) 1 text with
  | .ok m =>
    pure (.obj [("pages", .arr (m.toList.map entryValue)), ("len", .int m.len),
      ("value_count", .int m.valueCount), ("shape", .str (mapShape m)),
      ("json", .str m.toJson)])
  | .error e => pure (readFailure e)

/-- Runs a map script with keys of kind `k` and values of kind `v`. -/
def runMapOf (k v : Kind) (input : Value) (reading : Bool) : Checked Value :=
  match k, v, reading with
  | .int, .int, false => runMapScript (κ := Int64) (ν := Int64) input
  | .int, .str, false => runMapScript (κ := Int64) (ν := String) input
  | .str, .int, false => runMapScript (κ := String) (ν := Int64) input
  | .str, .str, false => runMapScript (κ := String) (ν := String) input
  | .int, .int, true => readMapScript Int64 Int64 input
  | .int, .str, true => readMapScript Int64 String input
  | .str, .int, true => readMapScript String Int64 input
  | .str, .str, true => readMapScript String String input

/-- Runs a script. -/
def run (input : Value) : Checked Value := do
  match ← required input "op" asString with
  | "tree" =>
    match ← kindOf input "elem" with
    | .int => runSetScript (α := Int64) input
    | .str => runSetScript (α := String) input
  | "tree_from_json" =>
    match ← kindOf input "elem" with
    | .int => readSetScript Int64 input
    | .str => readSetScript String input
  | "map" => runMapOf (← kindOf input "key") (← kindOf input "val") input false
  | "map_from_json" => runMapOf (← kindOf input "key") (← kindOf input "val") input true
  | _ => .error {}

/-- The answer to a script; a malformed one answers `bad_input`. -/
def answer (input : Value) : Value :=
  match run input with
  | .ok v => v
  | .error _ => .obj [("error", .str "bad_input")]

/-- The answer to a script given as JSON text, as JSON text. -/
def respond (line : String) : String :=
  match Json.parse line with
  | .ok input => (answer input).write
  | .error _ => (Value.obj [("error", .str "bad_input")]).write

end Script

end AvlCollections
