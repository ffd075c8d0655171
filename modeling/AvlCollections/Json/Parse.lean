import AvlCollections.Json.Scan
import AvlCollections.Json.Value

/-! # Reading JSON documents

`parse` reads a whole text as one JSON value with blanks around it. Arrays and objects nest at
most 127 deep, and a 128th level is refused; object members keep their order, repeated keys
included. Integers that fit (non-negative below `2^64`, negative from `-2^63`) are
`Value.int`; other numbers are `Value.float`.
-/

namespace AvlCollections

namespace Json

/-- The value of a scanned number. -/
def Number.toValue : Number → Value
  | .unsigned n => .int n
  | .signed n => .int n
  | .float x => .float x

mutual

/-- Reads one value after optional blanks, with `depth` more levels of nesting allowed.
Every call spends one unit of `fuel`. -/
def parseValue : Nat → Nat → List Char → Scan Value
  | 0, _, _ => .error .grammar
  | fuel + 1, depth, cs =>
    match skipBlanks cs with
    | [] => .error .grammar
    | 'n' :: r => (expectWord ['u', 'l', 'l'] r).map (.null, ·)
    | 't' :: r => (expectWord ['r', 'u', 'e'] r).map (.bool true, ·)
    | 'f' :: r => (expectWord ['a', 'l', 's', 'e'] r).map (.bool false, ·)
    | '"' :: r => (scanString r).map fun (s, r') => (.str s, r')
    | '[' :: r =>
      if depth = 0 then .error .grammar
      else (parseItems fuel (depth - 1) true [] r).map fun (vs, r') => (.arr vs, r')
    | '{' :: r =>
      if depth = 0 then .error .grammar
      else (parseMembers fuel (depth - 1) true [] r).map fun (ms, r') => (.obj ms, r')
    | c :: r =>
      if c == '-' || isDigit c then (scanNumber (c :: r)).map fun (n, r') => (n.toValue, r')
      else .error .grammar

/-- Reads the rest of an array up to and including its closing bracket; `acc` holds the
items read so far, last first. -/
def parseItems : Nat → Nat → Bool → List Value → List Char → Scan (List Value)
  | 0, _, _, _, _ => .error .grammar
  | fuel + 1, depth, first, acc, cs =>
    match skipBlanks cs with
    | [] => .error .grammar
    | ']' :: r => .ok (acc.reverse, r)
    | c :: r =>
      let next : Except ReadError (List Char) :=
        if first then .ok (c :: r)
        else if c == ',' then
          match skipBlanks r with
          | ']' :: _ => .error .grammar
          | [] => .error .grammar
          | r' => .ok r'
        else .error .grammar
      match next with
      | .error e => .error e
      | .ok start =>
        match parseValue fuel depth start with
        | .error e => .error e
        | .ok (v, rest) => parseItems fuel depth false (v :: acc) rest

/-- Reads the rest of an object up to and including its closing brace; `acc` holds the
members read so far, last first. -/
def parseMembers : Nat → Nat → Bool → List (String × Value) → List Char →
    Scan (List (String × Value))
  | 0, _, _, _, _ => .error .grammar
  | fuel + 1, depth, first, acc, cs =>
    match skipBlanks cs with
    | [] => .error .grammar
    | '}' :: r => .ok (acc.reverse, r)
    | c :: r =>
      let key : List Char :=
        if first then c :: r else if c == ',' then skipBlanks r else []
      if !first && c != ',' then .error .grammar
      else
        match key with
        | '"' :: k =>
          match scanString k with
          | .error e => .error e
          | .ok (name, afterKey) =>
            match skipBlanks afterKey with
            | ':' :: afterColon =>
              match parseValue fuel depth afterColon with
              | .error e => .error e
              | .ok (v, rest) => parseMembers fuel depth false ((name, v) :: acc) rest
            | _ => .error .grammar
        | _ => .error .grammar

end

/-- Reads a whole text as one JSON value; only blanks may follow it. -/
def parse (text : String) : Except ReadError Value :=
  let cs := text.toList
  match parseValue (2 * cs.length + 4) 127 cs with
  | .error e => .error e
  | .ok (v, rest) => if (skipBlanks rest).isEmpty then .ok v else .error .grammar

end Json

end AvlCollections
