import ActorLinks.Toml.Document
import ActorLinks.Toml.Quoted
import ActorLinks.Toml.Scalar

/-! # Writing TOML

A table writes its plain values first, and then its tables and lists of tables as sections of
their own. Nulls are left out, and so are headers of tables that hold nothing but tables.
-/
namespace ActorLinks.Toml

def isTable : Value → Bool
  | .table _ => true
  | _ => false

def isNull : Value → Bool
  | .null => true
  | _ => false

/-- Whether a value is written behind its key. -/
def isInline : Value → Bool
  | .null | .table _ => false
  | .list items => items.isEmpty || !items.all isTable
  | _ => true

def inlineFields (fields : List (String × Value)) : List Assignment :=
  (fields.filter fun f => isInline f.2).map fun f => ⟨⟨[], f.1⟩, f.2⟩

/-- A table without any content still needs a header. -/
def headerOf (path : Path) (fields : List (String × Value)) : List Section :=
  let as := inlineFields fields
  if !as.isEmpty || fields.all fun f => isNull f.2 then [⟨path, false, as⟩] else []

mutual

def fieldSections (parents : List String) (name : String) : Value → List Section
  | .table fields => headerOf ⟨parents, name⟩ fields ++ sectionsOf (parents ++ [name]) fields
  | .list items => if items.all isTable then elementSections parents name items else []
  | _ => []

def sectionsOf (parents : List String) : List (String × Value) → List Section
  | [] => []
  | (name, v) :: rest => fieldSections parents name v ++ sectionsOf parents rest

def elementSections (parents : List String) (name : String) : List Value → List Section
  | [] => []
  | .table fields :: rest =>
    ⟨⟨parents, name⟩, true, inlineFields fields⟩ :: sectionsOf (parents ++ [name]) fields
      ++ elementSections parents name rest
  | _ :: rest => elementSections parents name rest

end

def Document.ofFields (fields : List (String × Value)) : Document :=
  ⟨inlineFields fields, sectionsOf [] fields⟩

def keyText (name : String) : String := String.ofList (quoteKey name.toList)

def Path.text (p : Path) : String := ".".intercalate ((p.parents ++ [p.name]).map keyText)

mutual

def valueText : Value → String
  | .null | .unreadable => ""
  | .bool b => if b then "true" else "false"
  | .int n => toString n
  | .scalar s => s
  | .text s => String.ofList (quote s.toList)
  | .list [] => "[]"
  | .list (v :: vs) => "[" ++ valueText v ++ itemTexts vs ++ "]"
  | .table [] => "\x7b\x7d"
  | .table ((k, v) :: fs) =>
    "\x7b " ++ keyText k ++ " = " ++ valueText v ++ fieldTexts fs ++ " \x7d"

def itemTexts : List Value → String
  | [] => ""
  | v :: vs => ", " ++ valueText v ++ itemTexts vs

def fieldTexts : List (String × Value) → String
  | [] => ""
  | (k, v) :: fs => ", " ++ keyText k ++ " = " ++ valueText v ++ fieldTexts fs

end

def Assignment.text (a : Assignment) : String := a.path.text ++ " = " ++ valueText a.value ++ "\n"

def Section.text (s : Section) : String :=
  (if s.isElement then "[[" ++ s.path.text ++ "]]\n" else "[" ++ s.path.text ++ "]\n")
    ++ String.join (s.assignments.map Assignment.text)

/-- A blank line stands before every header that has something before it. -/
def Document.text (d : Document) : String :=
  let opening := d.assignments.map Assignment.text
  let blocks := (if opening.isEmpty then [] else [String.join opening])
    ++ d.sections.map Section.text
  "\n".intercalate blocks

mutual

/-- Whether every number of the value has a written form. -/
def isWritable : Value → Bool
  | .int n => inRange n
  | .list items => areWritable items
  | .table fields => areFieldsWritable fields
  | _ => true

def areWritable : List Value → Bool
  | [] => true
  | v :: vs => isWritable v && areWritable vs

def areFieldsWritable : List (String × Value) → Bool
  | [] => true
  | (_, v) :: fs => isWritable v && areFieldsWritable fs

end

/-- Only a table can be written as a document. -/
def write? : Value → Option String
  | .table fields =>
    if areFieldsWritable fields then some (Document.ofFields fields).text else none
  | _ => none

end ActorLinks.Toml
