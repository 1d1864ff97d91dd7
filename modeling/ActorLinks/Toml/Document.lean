import ActorLinks.Record.Value

/-! # Documents of TOML

A document is a list of assignments and a list of sections, each of which opens a table at a
path. Reading one as a table fails if a key is given twice, or if a table that is closed is
opened again: a header closes its table for other headers, and a dotted key its tables for all
headers.
-/
namespace ActorLinks.Toml

/-- The name of an entry behind the names of the tables around it. -/
structure Path where
  parents : List String
  name : String
  deriving DecidableEq, Inhabited

structure Assignment where
  path : Path
  value : Value

structure Section where
  path : Path
  /-- Whether the section is one more table in the list of tables at its path. -/
  isElement : Bool
  assignments : List Assignment

structure Document where
  assignments : List Assignment
  sections : List Section

mutual

inductive Item where
  | value (v : Value)
  | table (t : Table)
  | tables (ts : List Table)

/-- A table is implicit while only longer paths have named it, and dotted if those were keys. -/
structure Table where
  isImplicit : Bool
  isDotted : Bool
  fields : List (String × Item)

end

namespace Table

def empty : Table := ⟨false, false, []⟩

instance : Inhabited Table := ⟨empty⟩

def field? (t : Table) (name : String) : Option Item := t.fields.lookup name

def add (t : Table) (name : String) (item : Item) : Table :=
  { t with fields := t.fields ++ [(name, item)] }

def replace (t : Table) (name : String) (item : Item) : Table :=
  { t with fields := t.fields.map fun f => if f.1 == name then (name, item) else f }

def erase (t : Table) (name : String) : Table :=
  { t with fields := t.fields.filter fun f => f.1 != name }

/-- Changes the table at a path, of which missing parts are made. A list of tables stands for
its last one. -/
def within? (dotted : Bool) (f : Table → Option Table) : List String → Table → Option Table
  | [], t => f t
  | name :: names, t =>
    match t.field? name with
    | none => (within? dotted f names ⟨true, dotted, []⟩).map fun s => t.add name (.table s)
    | some (.table s) =>
      if dotted && !s.isImplicit then none
      else (within? dotted f names s).map fun s => t.replace name (.table s)
    | some (.tables ts) =>
      ts.getLast?.bind fun s =>
        (within? dotted f names s).map fun s => t.replace name (.tables (ts.dropLast ++ [s]))
    | some (.value _) => none

def assign? (t : Table) (a : Assignment) : Option Table :=
  t.within? true (fun s =>
    if s.isDotted == a.path.parents.isEmpty then none
    else match s.field? a.path.name with
      | none => some (s.add a.path.name (.value a.value))
      | some _ => none) a.path.parents

def assignAll? (t : Table) (as : List Assignment) : Option Table := as.foldlM assign? t

/-- A table that longer paths have named before its own header moves to the end. -/
def openTable? (name : String) (as : List Assignment) (t : Table) : Option Table :=
  match t.field? name with
  | none => (empty.assignAll? as).map fun s => t.add name (.table s)
  | some (.table s) =>
    if s.isImplicit && !s.isDotted then
      ({ s with isImplicit := false }.assignAll? as).map fun s =>
        (t.erase name).add name (.table s)
    else none
  | some _ => none

def openElement? (name : String) (as : List Assignment) (t : Table) : Option Table :=
  match t.field? name with
  | none => (empty.assignAll? as).map fun s => t.add name (.tables [s])
  | some (.tables ts) =>
    (empty.assignAll? as).map fun s => t.replace name (.tables (ts ++ [s]))
  | some _ => none

def addSection? (t : Table) (s : Section) : Option Table :=
  let change := if s.isElement then openElement? else openTable?
  t.within? false (change s.path.name s.assignments) s.path.parents

mutual

def toValue : Table → Value
  | ⟨_, _, fields⟩ => .table (fieldValues fields)

def fieldValues : List (String × Item) → List (String × Value)
  | [] => []
  | (name, item) :: rest => (name, itemValue item) :: fieldValues rest

def itemValue : Item → Value
  | .value v => v
  | .table t => t.toValue
  | .tables ts => .list (tableValues ts)

def tableValues : List Table → List Value
  | [] => []
  | t :: ts => t.toValue :: tableValues ts

end

end Table

/-- A table that is given by assignments only. -/
def inlineValue? (as : List Assignment) : Option Value :=
  (Table.empty.assignAll? as).map Table.toValue

namespace Document

def toTable? (d : Document) : Option Table := do
  d.sections.foldlM Table.addSection? (← Table.empty.assignAll? d.assignments)

def toValue? (d : Document) : Option Value := d.toTable?.map Table.toValue

end Document

end ActorLinks.Toml
