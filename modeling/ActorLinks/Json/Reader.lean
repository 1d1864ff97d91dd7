import ActorLinks.Json.Number

/-! # Reading JSON

A text is one value with blanks around it. Text that is not Unicode once its escapes are
resolved, and containers nested deeper than `depthLimit`, are `unreadable`: they do no harm where
nobody looks at them.
-/
namespace ActorLinks.Json

def depthLimit : Nat := 127

def isBlank (c : Char) : Bool := c = ' ' || c = '\n' || c = '\t' || c = '\r'

def skipBlanks (cs : List Char) : List Char := cs.dropWhile isBlank

/-- A character, or one half of a surrogate pair. -/
inductive CodeUnit where
  | char (c : Char)
  | high (n : Nat)
  | low (n : Nat)

def unitOf (n : Nat) : CodeUnit :=
  if 0xd800 ≤ n && n < 0xdc00 then .high (n - 0xd800)
  else if 0xdc00 ≤ n && n < 0xe000 then .low (n - 0xdc00)
  else .char (Char.ofNat n)

def shortEscape? : Char → Option Char
  | '"' => some '"'
  | '\\' => some '\\'
  | '/' => some '/'
  | 'b' => some '\x08'
  | 'f' => some '\x0c'
  | 'n' => some '\n'
  | 'r' => some '\r'
  | 't' => some '\t'
  | _ => none

/-- What stands before the closing quote, and what follows it. -/
def units : List Char → Option (List CodeUnit × List Char)
  | [] => none
  | '"' :: rest => some ([], rest)
  | '\\' :: 'u' :: a :: b :: c :: d :: rest => do
    let n ← Text.hexValue? [a, b, c, d]
    let (us, after) ← units rest
    return (unitOf n :: us, after)
  | '\\' :: c :: rest => do
    let e ← shortEscape? c
    let (us, after) ← units rest
    return (.char e :: us, after)
  | c :: rest => do
    if c.toNat < 0x20 then none
    else
      let (us, after) ← units rest
      return (.char c :: us, after)

/-- Halves that stand together are one character; one that stands alone is no text. -/
def joinUnits : List CodeUnit → Option (List Char)
  | [] => some []
  | .char c :: us => (joinUnits us).map (c :: ·)
  | .high h :: .low l :: us => (joinUnits us).map (Char.ofNat (0x10000 + 0x400 * h + l) :: ·)
  | .high _ :: _ | .low _ :: _ => none

/-- Reads on after an opening quote; the text is absent if it is not Unicode. -/
def stringBody (cs : List Char) : Option (Option String × List Char) :=
  (units cs).map fun (us, rest) => ((joinUnits us).map String.ofList, rest)

def afterWord? (word : String) (cs : List Char) : Option (List Char) :=
  if word.toList.isPrefixOf cs then some (cs.drop word.length) else none

def textValue : Option String → Value
  | some s => .text s
  | none => .unreadable

def limited (depth : Nat) (v : Value) : Value := if depthLimit < depth then .unreadable else v

/-- A key that is no text makes the whole table unreadable. -/
def tableValue (fields : List (Option String × Value)) : Value :=
  match fields.mapM fun f => f.1.map fun k => (k, f.2) with
  | some fs => .table fs
  | none => .unreadable

mutual

/-- `depth` counts the containers around the value. -/
def value? (fuel depth : Nat) (cs : List Char) : Option (Value × List Char) :=
  match fuel, cs with
  | 0, _ | _, [] => none
  | _, '"' :: rest => (stringBody rest).map fun (s, after) => (textValue s, after)
  | n + 1, '[' :: rest =>
    match skipBlanks rest with
    | ']' :: after => some (limited (depth + 1) (.list []), after)
    | body => (items? n (depth + 1) body).map fun (vs, after) =>
      (limited (depth + 1) (.list vs), after)
  | n + 1, '\x7b' :: rest =>
    match skipBlanks rest with
    | '\x7d' :: after => some (limited (depth + 1) (.table []), after)
    | body => (fields? n (depth + 1) body).map fun (fs, after) =>
      (limited (depth + 1) (tableValue fs), after)
  | _, 't' :: rest => (afterWord? "rue" rest).map fun after => (.bool true, after)
  | _, 'f' :: rest => (afterWord? "alse" rest).map fun after => (.bool false, after)
  | _, 'n' :: rest => (afterWord? "ull" rest).map fun after => (.null, after)
  | _, cs => number? cs

def items? (fuel depth : Nat) (cs : List Char) : Option (List Value × List Char) :=
  match fuel with
  | 0 => none
  | n + 1 => do
    let (v, after) ← value? n depth cs
    match skipBlanks after with
    | ']' :: rest => return ([v], rest)
    | ',' :: rest =>
      let (vs, rest) ← items? n depth (skipBlanks rest)
      return (v :: vs, rest)
    | _ => none

def fields? (fuel depth : Nat) (cs : List Char) :
    Option (List (Option String × Value) × List Char) :=
  match fuel, cs with
  | n + 1, '"' :: body => do
    let (key, after) ← stringBody body
    match skipBlanks after with
    | ':' :: rest =>
      let (v, after) ← value? n depth (skipBlanks rest)
      match skipBlanks after with
      | '\x7d' :: rest => return ([(key, v)], rest)
      | ',' :: rest =>
        let (fs, rest) ← fields? n depth (skipBlanks rest)
        return ((key, v) :: fs, rest)
      | _ => none
    | _ => none
  | _, _ => none

end

/-- Reads a whole text. -/
def read? (text : String) : Option Value := do
  let cs := skipBlanks text.toList
  let (v, rest) ← value? (cs.length + 1) 0 cs
  if (skipBlanks rest).isEmpty then return v else none

end ActorLinks.Json
