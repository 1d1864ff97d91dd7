import ActorLinks.Record.Value
import ActorLinks.Text.Digit

/-! # Writing JSON

Two blanks to a level and one item to a line; empty containers are closed at once.
-/
namespace ActorLinks.Json

def escape (c : Char) : List Char :=
  match c with
  | '"' => ['\\', '"']
  | '\\' => ['\\', '\\']
  | '\x08' => ['\\', 'b']
  | '\x0c' => ['\\', 'f']
  | '\n' => ['\\', 'n']
  | '\r' => ['\\', 'r']
  | '\t' => ['\\', 't']
  | c =>
    if c.toNat < 0x20 then
      ['\\', 'u', '0', '0', Text.hexChar (c.toNat / 16), Text.hexChar (c.toNat % 16)]
    else [c]

def quote (s : String) : String := String.ofList (['"'] ++ s.toList.flatMap escape ++ ['"'])

def lineStart (depth : Nat) : String := "\n" ++ String.ofList (List.replicate (2 * depth) ' ')

mutual

def prettyAt (depth : Nat) : Value → String
  | .null | .unreadable => "null"
  | .bool b => if b then "true" else "false"
  | .int n => toString n
  | .scalar s => s
  | .text s => quote s
  | .list [] => "[]"
  | .list (v :: vs) =>
    "[" ++ lineStart (depth + 1) ++ prettyAt (depth + 1) v ++ prettyItems (depth + 1) vs
      ++ lineStart depth ++ "]"
  | .table [] => "\x7b\x7d"
  | .table ((k, v) :: fs) =>
    "\x7b" ++ lineStart (depth + 1) ++ quote k ++ ": " ++ prettyAt (depth + 1) v
      ++ prettyFields (depth + 1) fs ++ lineStart depth ++ "\x7d"

def prettyItems (depth : Nat) : List Value → String
  | [] => ""
  | v :: vs => "," ++ lineStart depth ++ prettyAt depth v ++ prettyItems depth vs

def prettyFields (depth : Nat) : List (String × Value) → String
  | [] => ""
  | (k, v) :: fs =>
    "," ++ lineStart depth ++ quote k ++ ": " ++ prettyAt depth v ++ prettyFields depth fs

end

def pretty (v : Value) : String := prettyAt 0 v

end ActorLinks.Json
