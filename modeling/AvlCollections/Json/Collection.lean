import AvlCollections.Json.Scan
import AvlCollections.Json.Value
import AvlCollections.MultiMap.Basic
import AvlCollections.Text.Quoted

/-! # Sets and maps as JSON

A set is written as the array of its elements in order, and a map as an object from each key
to the array of its values; a key is written as a JSON string, an integer key in decimal.

Reading is streaming: the first fault met in the text decides the answer. A value of the
wrong kind is described the way the reader found it (`null`, ``boolean `true` ``,
``integer `5` ``, ``floating point `1.5` ``, `string "x"`, `sequence`, `map`) next to what
was expected; a fault inside the value that is being described is a syntax error. Reading a
set refuses a repeated element, and reading a map refuses a repeated key and an empty list of
values. Only blanks may follow the value.
-/

namespace AvlCollections

namespace Json

open Decimal

/-- How a value of type `α` is read from and written to JSON text. -/
class Codec (α : Type) where
  /-- Reads a value after optional blanks. -/
  read : List Char → Scan α
  /-- Reads an object key, starting at its opening quote. -/
  readKey : List Char → Scan α
  /-- The JSON text of a value. -/
  write : α → String
  /-- The JSON text of a value as an object key. -/
  writeKey : α → String

/-- The message for a value of the wrong kind. -/
def invalidType (found expected : String) : ReadError :=
  .data ("invalid type: " ++ found ++ ", expected " ++ expected)

/-- How numbers with a fraction or an exponent are written in messages: as in JSON text,
but with a plus sign before an exponent that is not negative (`1e+17`, `1.5e-7`). -/
def messageFloatFormat : FloatFormat :=
  { floatFormat with plusSign := true }

/-- How the reader describes a number. -/
def Number.describe : Number → String
  | .unsigned n => "integer `" ++ toString n ++ "`"
  | .signed n => "integer `" ++ toString n ++ "`"
  | .float x => "floating point `" ++ x.toText messageFloatFormat ++ "`"

/-- The error for the value at the front of `cs` (after blanks) where a value described by
`expected` was wanted. -/
def unexpected (expected : String) (cs : List Char) : ReadError :=
  match cs with
  | 'n' :: r =>
    match expectWord ['u', 'l', 'l'] r with
    | .ok _ => invalidType "null" expected
    | .error e => e
  | 't' :: r =>
    match expectWord ['r', 'u', 'e'] r with
    | .ok _ => invalidType "boolean `true`" expected
    | .error e => e
  | 'f' :: r =>
    match expectWord ['a', 'l', 's', 'e'] r with
    | .ok _ => invalidType "boolean `false`" expected
    | .error e => e
  | '"' :: r =>
    match scanString r with
    | .ok (s, _) => invalidType ("string " ++ Text.quoted s) expected
    | .error e => e
  | '[' :: _ => invalidType "sequence" expected
  | '{' :: _ => invalidType "map" expected
  | c :: r =>
    if c == '-' || isDigit c then
      match scanNumber (c :: r) with
      | .ok (n, _) => invalidType n.describe expected
      | .error e => e
    else .grammar
  | [] => .grammar

/-- Accepts a number as a signed 64-bit integer. -/
def Number.toInt64 : Number → Except ReadError Int64
  | .unsigned n =>
    if n < Nat.pow 2 63 then .ok (Int64.ofInt n)
    else .error (.data ("invalid value: integer `" ++ toString n ++ "`, expected i64"))
  | .signed n => .ok (Int64.ofInt n)
  | n@(.float _) => .error (invalidType n.describe "i64")

/-- Reads a signed 64-bit integer after optional blanks. -/
def readInt64 (cs : List Char) : Scan Int64 :=
  match skipBlanks cs with
  | c :: r =>
    if c == '-' || isDigit c then
      match scanNumber (c :: r) with
      | .ok (n, rest) => n.toInt64.map (·, rest)
      | .error e => .error e
    else .error (unexpected "i64" (c :: r))
  | [] => .error .grammar

/-- Reads a string after optional blanks. -/
def readString (cs : List Char) : Scan String :=
  match skipBlanks cs with
  | '"' :: r => scanString r
  | [] => .error .grammar
  | cs' => .error (unexpected "a string" cs')

/-- Reads an integer key: a quote, a number that starts at once, and a quote. -/
def readInt64Key : List Char → Scan Int64
  | '"' :: c :: r =>
    if c == '-' || isDigit c then
      match readInt64 (c :: r) with
      | .ok (x, '"' :: rest) => .ok (x, rest)
      | .ok _ => .error .grammar
      | .error e => .error e
    else .error .grammar
  | _ => .error .grammar

/-- Reads a string key. -/
def readStringKey : List Char → Scan String
  | '"' :: r => scanString r
  | _ => .error .grammar

instance : Codec Int64 where
  read := readInt64
  readKey := readInt64Key
  write x := toString x.toInt
  writeKey x := quote (toString x.toInt)

instance : Codec String where
  read := readString
  readKey := readStringKey
  write := quote
  writeKey := quote

/-- The position of the next element of a sequence, or `none` at its closing bracket (which
is consumed). The first element needs no comma; a comma must not be followed by the bracket. -/
def nextElement (first : Bool) (cs : List Char) :
    Except ReadError (Option (List Char) × List Char) :=
  match skipBlanks cs with
  | [] => .error .grammar
  | ']' :: r => .ok (none, r)
  | c :: r =>
    if first then .ok (some (c :: r), [])
    else if c == ',' then
      match skipBlanks r with
      | ']' :: _ => .error .grammar
      | [] => .error .grammar
      | r' => .ok (some r', [])
    else .error .grammar

/-- Reads the elements of a sequence after its opening bracket, folding them into `acc` with
`step`; at most `fuel` elements. -/
def readElements {α β : Type} (elem : List Char → Scan α) (step : β → α → Except ReadError β) :
    Nat → Bool → β → List Char → Scan β
  | 0, _, _, _ => .error .grammar
  | fuel + 1, first, acc, cs =>
    match nextElement first cs with
    | .error e => .error e
    | .ok (none, rest) => .ok (acc, rest)
    | .ok (some start, _) =>
      match elem start with
      | .error e => .error e
      | .ok (x, rest) =>
        match step acc x with
        | .error e => .error e
        | .ok acc' => readElements elem step fuel false acc' rest

/-- Reads a sequence after optional blanks, folding its elements into `init`; `expected`
describes it in messages. -/
def readSequence {α β : Type} (expected : String) (elem : List Char → Scan α)
    (step : β → α → Except ReadError β) (init : β) (cs : List Char) : Scan β :=
  match skipBlanks cs with
  | '[' :: r => readElements elem step (r.length + 1) true init r
  | [] => .error .grammar
  | cs' => .error (unexpected expected cs')

/-- Reads a list of values. -/
def readList {α : Type} [Codec α] (cs : List Char) : Scan (List α) :=
  (readSequence "a sequence" Codec.read (fun acc x => .ok (x :: acc)) [] cs).map
    fun (xs, rest) => (xs.reverse, rest)

/-- Requires that only blanks follow. -/
def finish {α : Type} : Scan α → Except ReadError α
  | .ok (x, rest) => if (skipBlanks rest).isEmpty then .ok x else .error .grammar
  | .error e => .error e

end Json

open Json

namespace AvlSet

variable {α : Type}

/-- The JSON text of a set: the array of its elements in order. -/
def toJson [Codec α] (s : AvlSet α) : String :=
  "[" ++ ",".intercalate (s.toList.map Codec.write) ++ "]"

/-- Reads a set ordered by `cmp` from an array of pairwise inequivalent elements, added in
the order of the text; `fresh` is the identity the set takes. -/
def ofJson [Codec α] (cmp : α → α → Ordering) (fresh : Nat) (text : String) :
    Except ReadError (AvlSet α) :=
  let add (s : AvlSet α) (x : α) : Except ReadError (AvlSet α) :=
    match s.add x fresh with
    | (.ok _, s') => .ok s'
    | (.error e, _) => .error (.data e.message)
  finish (readSequence "a sequence of distinct elements" Codec.read add (AvlSet.empty cmp 0)
    text.toList)

end AvlSet

namespace MultiMap

variable {κ ν : Type}

/-- The JSON text of a map: an object from each key to the array of its values. -/
def toJson [Codec κ] [Codec ν] (m : MultiMap κ ν) : String :=
  "\x7b" ++ ",".intercalate (m.toList.map fun e =>
    Codec.writeKey e.key ++ ":[" ++ ",".intercalate (e.values.map Codec.write) ++ "]") ++ "\x7d"

/-- Reads the members of an object after its opening brace into `m`; at most `fuel`
members. -/
def readMembers [Codec κ] [Codec ν] (fresh : Nat) :
    Nat → Bool → MultiMap κ ν → List Char → Scan (MultiMap κ ν)
  | 0, _, _, _ => .error .grammar
  | fuel + 1, first, m, cs =>
    match skipBlanks cs with
    | [] => .error .grammar
    | '}' :: r => .ok (m, r)
    | c :: r =>
      if !first && c != ',' then .error .grammar
      else
        match (if first then c :: r else skipBlanks r) with
        | k@('"' :: _) =>
          match Codec.readKey k with
          | .error e => .error e
          | .ok (key, afterKey) =>
            match skipBlanks afterKey with
            | ':' :: afterColon =>
              match readList afterColon with
              | .error e => .error e
              | .ok (values, rest) =>
                match Entry.ofValues? key values with
                | none => .error (.data "invalid length 0, expected at least one value per key")
                | some e =>
                  match m.insertEntry e fresh with
                  | some m' => readMembers fresh fuel false m' rest
                  | none => .error (.data "duplicate key")
            | _ => .error .grammar
        | _ => .error .grammar

/-- Reads a map ordered by `keyCmp` from an object whose keys are pairwise inequivalent and
whose value lists are not empty, entered in the order of the text; `fresh` is the identity
the map takes. -/
def ofJson [Codec κ] [Codec ν] (keyCmp : κ → κ → Ordering) (fresh : Nat) (text : String) :
    Except ReadError (MultiMap κ ν) :=
  let cs := skipBlanks text.toList
  match cs with
  | '{' :: r => finish (readMembers fresh (r.length + 1) true (MultiMap.empty keyCmp) r)
  | [] => .error .grammar
  | _ => .error (unexpected "a map from keys to non-empty lists of values" cs)

end MultiMap

end AvlCollections
