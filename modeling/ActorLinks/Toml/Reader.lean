import ActorLinks.Toml.Document
import ActorLinks.Toml.Quoted
import ActorLinks.Toml.Scalar

/-! # Reading TOML

A text is a list of statements, one to a line, of which a document is made and then a table.
Lists and inline tables nest, and keys are dotted, up to `depthLimit` deep.
-/
namespace ActorLinks.Toml

def depthLimit : Nat := 79

/-- Every line ends in a single break. -/
def joinBreaks : List Char → List Char
  | '\r' :: '\n' :: rest => '\n' :: joinBreaks rest
  | c :: rest => c :: joinBreaks rest
  | [] => []

def skipComment : List Char → List Char
  | '#' :: rest => rest.dropWhile isVisible
  | cs => cs

/-- Past the end of a line on which nothing else stands. -/
def lineEnd? (cs : List Char) : Option (List Char) :=
  match skipComment (skipBlanks cs) with
  | [] => some []
  | '\n' :: rest => some rest
  | _ => none

/-- Past blanks, comments and line breaks. -/
def skipLines : Nat → List Char → List Char
  | 0, cs => cs
  | n + 1, cs =>
    match skipComment (skipBlanks cs) with
    | '\n' :: rest => skipLines n rest
    | cs => cs

def expect? (c : Char) : List Char → Option (List Char)
  | [] => none
  | d :: rest => if d = c then some rest else none

/-- At most `limit` keys with points between them. -/
def keys? : Nat → List Char → Option (List String × List Char)
  | 0, _ => none
  | limit + 1, cs => do
    let (name, after) ← key? (skipBlanks cs)
    match skipBlanks after with
    | '.' :: rest => (keys? limit rest).map fun (names, r) => (name :: names, r)
    | rest => return ([name], rest)

def path? (cs : List Char) : Option (Path × List Char) := do
  let (names, rest) ← keys? depthLimit cs
  return (⟨names.dropLast, ← names.getLast?⟩, rest)

/-- A key, an equals sign and a value. -/
def assignment? (value? : List Char → Option (Value × List Char)) (cs : List Char) :
    Option (Assignment × List Char) := do
  let (path, after) ← path? cs
  let (v, rest) ← value? (skipBlanks (← expect? '=' after))
  return (⟨path, v⟩, rest)

section Containers
variable (value? : List Char → Option (Value × List Char))

/-- The items of a list up to its closing bracket; `count` bounds their number. -/
def items? : Nat → List Char → Option (List Value × List Char)
  | 0, _ => none
  | count + 1, cs =>
    match skipLines cs.length cs with
    | ']' :: rest => some ([], rest)
    | body => do
      let (v, after) ← value? body
      match skipLines after.length after with
      | ']' :: rest => return ([v], rest)
      | ',' :: rest => (items? count rest).map fun (vs, r) => (v :: vs, r)
      | _ => none

/-- The assignments of an inline table up to its closing brace. -/
def inlineAssignments? : Nat → List Char → Option (List Assignment × List Char)
  | 0, _ => none
  | count + 1, cs => do
    let (a, after) ← assignment? value? cs
    match skipBlanks after with
    | '\x7d' :: rest => return ([a], rest)
    | ',' :: rest => (inlineAssignments? count rest).map fun (as, r) => (a :: as, r)
    | _ => none

def inlineTable? (cs : List Char) : Option (Value × List Char) :=
  match skipBlanks cs with
  | '\x7d' :: rest => some (.table [], rest)
  | body => do
    let (as, rest) ← inlineAssignments? value? body.length body
    return (← inlineValue? as, rest)

end Containers

/-- A value in which lists and inline tables nest up to `depth` deep. -/
def value? (depth : Nat) (cs : List Char) : Option (Value × List Char) :=
  match cs, depth with
  | '"' :: _, _ | '\'' :: _, _ => (string? cs).map fun (s, r) => (.text s, r)
  | '[' :: rest, d + 1 =>
    (items? (value? d) (rest.length + 1) rest).map fun (vs, r) => (.list vs, r)
  | '\x7b' :: rest, d + 1 => inlineTable? (value? d) rest
  | _, _ => unquoted? cs

inductive Statement where
  | assign (a : Assignment)
  | header (path : Path) (isElement : Bool)

def statement? : List Char → Option (Statement × List Char)
  | '[' :: '[' :: cs => do
    let (path, after) ← path? cs
    return (.header path true, ← lineEnd? (← expect? ']' (← expect? ']' after)))
  | '[' :: cs => do
    let (path, after) ← path? cs
    return (.header path false, ← lineEnd? (← expect? ']' after))
  | cs => do
    let (a, after) ← assignment? (value? depthLimit) cs
    return (.assign a, ← lineEnd? after)

def statements? : Nat → List Char → Option (List Statement)
  | 0, _ => none
  | count + 1, cs =>
    match skipLines cs.length cs with
    | [] => some []
    | body => do
      let (s, rest) ← statement? body
      return s :: (← statements? count rest)

def Document.ofStatements : List Statement → Document
  | [] => ⟨[], []⟩
  | .assign a :: rest =>
    let d := ofStatements rest
    { d with assignments := a :: d.assignments }
  | .header path isElement :: rest =>
    let d := ofStatements rest
    ⟨[], ⟨path, isElement, d.assignments⟩ :: d.sections⟩

def document? (cs : List Char) : Option Document :=
  (statements? (cs.length + 1) cs).map Document.ofStatements

/-- A byte order mark may stand in front. -/
def read? (text : String) : Option Value := do
  let cs := match text.toList with
    | '\ufeff' :: rest => rest
    | cs => cs
  (← document? (joinBreaks cs)).toValue?

end ActorLinks.Toml
