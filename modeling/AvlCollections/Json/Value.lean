import AvlCollections.Decimal.Text

/-! # JSON values and their text

A `Value` is a JSON document. Writing is compact: no blanks, object members in the order
given. In a string, the quote and the backslash are escaped, the control characters with a
short escape (`\b \t \n \f \r`) use it, the other control characters are written `\u00xx` in
lower-case hexadecimal, and every other character stands as it is.
-/

namespace AvlCollections

namespace Json

open Decimal

/-- A JSON document. -/
inductive Value where
  /-- `null`. -/
  | null
  /-- `true` or `false`. -/
  | bool (b : Bool)
  /-- An integer. -/
  | int (n : Int)
  /-- A number with a fraction or an exponent, or an integer out of range. -/
  | float (x : Binary64)
  /-- A string. -/
  | str (s : String)
  /-- An array. -/
  | arr (items : List Value)
  /-- An object: its members in order. -/
  | obj (members : List (String × Value))
  deriving Inhabited

/-- How numbers with a fraction or an exponent are written: positionally for point
positions from -4 to 16, with `.0` after an integer, and otherwise with the mark `e`. -/
def floatFormat : FloatFormat :=
  { maxPoint := 16, minPoint := -5, integerSuffix := ".0", zero := "0.0", mark := "e" }

/-- The lower-case hexadecimal digit of `n`, for `n` below 16. -/
def hexDigit (n : Nat) : Char :=
  if n < 10 then Char.ofNat ('0'.toNat + n) else Char.ofNat ('a'.toNat + n - 10)

/-- The escaped form of one character inside a string. -/
def escapeChar (c : Char) : List Char :=
  if c == '"' then ['\\', '"']
  else if c == '\\' then ['\\', '\\']
  else if c == '\x08' then ['\\', 'b']
  else if c == '\t' then ['\\', 't']
  else if c == '\n' then ['\\', 'n']
  else if c == '\x0c' then ['\\', 'f']
  else if c == '\r' then ['\\', 'r']
  else if c.toNat < 0x20 then
    ['\\', 'u', '0', '0', hexDigit (c.toNat / 16), hexDigit (c.toNat % 16)]
  else [c]

/-- A string as a JSON string, quotes included. -/
def quote (s : String) : String :=
  String.ofList ('"' :: (s.toList.flatMap escapeChar ++ ['"']))

namespace Value

mutual

/-- The compact text of a value. -/
def write : Value → String
  | null => "null"
  | bool b => if b then "true" else "false"
  | int n => toString n
  | float x => x.toText floatFormat
  | str s => quote s
  | arr items => "[" ++ writeItems items ++ "]"
  | obj members => "\x7b" ++ writeMembers members ++ "\x7d"

/-- The texts of array items, separated by commas. -/
def writeItems : List Value → String
  | [] => ""
  | [v] => v.write
  | v :: vs => v.write ++ "," ++ writeItems vs

/-- The texts of object members, separated by commas. -/
def writeMembers : List (String × Value) → String
  | [] => ""
  | [(k, v)] => quote k ++ ":" ++ v.write
  | (k, v) :: ms => quote k ++ ":" ++ v.write ++ "," ++ writeMembers ms

end

/-- The member `key` of an object; of repeated members, the last. -/
def field? (v : Value) (key : String) : Option Value :=
  match v with
  | obj members => (members.reverse.find? (·.1 == key)).map (·.2)
  | _ => none

/-- An optional `null`: `none` is written as `null`. -/
def ofOption (v : Option Value) : Value :=
  v.getD null

end Value

end Json

end AvlCollections
