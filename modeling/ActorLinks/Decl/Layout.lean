import ActorLinks.Decl.Type

/-! # Layout of declarations

A declaration is laid out as lines, each a text at a depth; only `Line.render` knows how wide a
unit of depth is. An empty line is written without any indentation.
-/
namespace ActorLinks

structure Line where
  depth : Nat
  text : String
  deriving DecidableEq, Repr

def blanks (n : Nat) : String := String.ofList (List.replicate n ' ')

namespace Line

def render (width : Nat) (l : Line) : String :=
  if l.text.isEmpty then "" else blanks (l.depth * width) ++ l.text

/-- Every line with a line end behind it. -/
def renderAll (width : Nat) (ls : List Line) : String :=
  String.join (ls.map fun l => l.render width ++ "\n")

theorem renderAll_append (width : Nat) (ls ls' : List Line) :
    renderAll width (ls ++ ls') = renderAll width ls ++ renderAll width ls' := by
  rw [renderAll, List.map_append, String.join_append]
  rfl

end Line

namespace Decl

def keywords (a : Accessibility) (ms : Modifiers) : String :=
  String.join ((a.keyword?.toList ++ ms.toList.map Modifier.keyword).map (· ++ " "))

def qualified (interface : Option String) (name : String) : String :=
  match interface with
  | some i => i ++ "." ++ name
  | none => name

def Parameter.text (p : Parameter) : String :=
  match p.default with
  | some d => p.typeName ++ " " ++ p.name ++ " = " ++ d
  | none => p.typeName ++ " " ++ p.name

def joinParameters (ps : List Parameter) : String := ", ".intercalate (ps.map Parameter.text)

/-- Each item but the last is followed by a comma. -/
def separated : List String → List String
  | [] => []
  | [s] => [s]
  | s :: rest => (s ++ ",") :: separated rest

def block (depth : Nat) (body : List String) : List Line :=
  ⟨depth, "\x7b"⟩ :: body.map (Line.mk (depth + 1)) ++ [⟨depth, "\x7d"⟩]

def Property.text (p : Property) : String :=
  let head := keywords p.accessibility p.modifiers ++ p.typeName ++ " "
    ++ qualified p.explicitInterface p.name
  match p.body with
  | .get => head ++ " \x7b get; \x7d"
  | .expression e => head ++ " => " ++ e ++ ";"

def Indexer.text (i : Indexer) : String :=
  keywords i.accessibility i.modifiers ++ i.typeName ++ " " ++ qualified i.explicitInterface "this"
    ++ "[" ++ joinParameters i.parameters ++ "] => " ++ i.expression ++ ";"

def Field.text (f : Field) : String :=
  let head := keywords f.accessibility f.modifiers ++ f.typeName ++ " " ++ f.name
  match f.initializer with
  | some e => head ++ " = " ++ e ++ ";"
  | none => head ++ ";"

/-- One parameter a line. -/
def parameterLines (depth : Nat) (ps : List Parameter) : List Line :=
  (separated (ps.map Parameter.text)).map (Line.mk depth)

def Method.head (m : Method) : String :=
  keywords m.accessibility m.modifiers ++ m.returnType ++ " " ++ qualified m.explicitInterface m.name

/-- The lines before the last line of the signature, and that line. Three parameters or more
stand on lines of their own. -/
def Method.signature (depth : Nat) (m : Method) : List Line × String :=
  if 2 < m.parameters.length then
    (⟨depth, m.head ++ "("⟩ :: parameterLines (depth + 1) m.parameters, ")")
  else ([], m.head ++ "(" ++ joinParameters m.parameters ++ ")")

def Method.lines (depth : Nat) (m : Method) : List Line :=
  let (before, last) := m.signature depth
  before ++ match m.body with
    | .declaration => [⟨depth, last ++ ";"⟩]
    | .expression e => [⟨depth, last ++ " => " ++ e ++ ";"⟩]
    | .block body => ⟨depth, last⟩ :: block depth body

def Constructor.head (c : Constructor) : String := keywords c.accessibility ∅ ++ c.name

/-- The call of the base constructor. -/
def Constructor.chain (c : Constructor) : String :=
  match c.baseArguments with
  | some arguments => " : base(" ++ ", ".intercalate arguments ++ ")"
  | none => ""

def Constructor.signature (depth : Nat) (c : Constructor) : List Line :=
  if c.parameters.isEmpty then [⟨depth, c.head ++ "()" ++ c.chain⟩]
  else ⟨depth, c.head ++ "("⟩ :: parameterLines (depth + 1) c.parameters
    ++ [⟨depth, ")" ++ c.chain⟩]

def Constructor.lines (depth : Nat) (c : Constructor) : List Line :=
  c.signature depth ++ block depth c.body

def Leaf.lines (depth : Nat) : Leaf → List Line
  | .comment text => [⟨depth, "// " ++ text⟩]
  | .property p => [⟨depth, p.text⟩]
  | .method m => m.lines depth
  | .indexer i => [⟨depth, i.text⟩]
  | .field f => [⟨depth, f.text⟩]
  | .constructor c => c.lines depth

end Decl

/-- Nested types and constructors stand apart from their neighbours. -/
def Member.standsApart : Member → Bool
  | leaf (.constructor _) | type _ => true
  | leaf _ => false

/-- Whether an empty line goes before the member; `before` tells of the preceding member, if there
is one, whether it stands apart. -/
def Member.isSpaced (before : Option Bool) (m : Member) : Bool :=
  match before with
  | some apart => apart || m.standsApart
  | none => false

def TypeDecl.head (d : TypeDecl) : String :=
  Decl.keywords d.accessibility d.modifiers ++ d.kind.keyword ++ " " ++ d.name

/-- Comments, head, bases and constraints: what is written before the opening brace. -/
def TypeDecl.header (depth : Nat) (d : TypeDecl) : List Line :=
  d.leadingComments.map (fun c => ⟨depth, "// " ++ c⟩)
    ++ (if d.bases.isEmpty then [⟨depth, d.head⟩]
      else ⟨depth, d.head ++ " :"⟩ :: (Decl.separated d.bases).map (Line.mk (depth + 1)))
    ++ d.constraints.map (Line.mk (depth + 1))

mutual

def TypeDecl.lines (depth : Nat) : TypeDecl → List Line
  | ⟨comments, access, modifiers, kind, name, bases, constraints, members⟩ =>
    TypeDecl.header depth ⟨comments, access, modifiers, kind, name, bases, constraints, []⟩
      ++ ⟨depth, "\x7b"⟩ :: memberLines (depth + 1) none members ++ [⟨depth, "\x7d"⟩]

def Member.lines (depth : Nat) : Member → List Line
  | .leaf l => l.lines depth
  | .type d => d.lines depth

def memberLines (depth : Nat) (before : Option Bool) : List Member → List Line
  | [] => []
  | m :: ms =>
    (if m.isSpaced before then [⟨depth, ""⟩] else [])
      ++ m.lines depth ++ memberLines depth (some m.standsApart) ms

end

/-- The text at four blanks a unit, without the last line end. -/
def TypeDecl.text (d : TypeDecl) : String :=
  "\n".intercalate ((d.lines 0).map (Line.render 4))

end ActorLinks
