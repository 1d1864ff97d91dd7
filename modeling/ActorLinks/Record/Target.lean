import ActorLinks.Record.Reading
import ActorLinks.Schematic
import ActorLinks.Target

/-! # Records of targets and schematics -/
namespace ActorLinks

namespace Assembly

def all : List Assembly := [core, rest, gateway]

instance : Record Assembly where
  encode a := .text a.name
  decode r := r.choice? name all

end Assembly

namespace Target

def fieldNames : List String :=
  ["actor", "entity", "id", "model", "assembly", "core_actor", "core_entity"]

instance : Record Target where
  encode t := .table
    [("actor", encode t.actor), ("entity", encode t.entity), ("id", encode t.id),
      ("model", encode t.model), ("assembly", encode t.assembly),
      ("core_actor", encode t.declaredCoreActor), ("core_entity", encode t.declaredCoreEntity)]
  decode r v := do
    let f ← r.fields? fieldNames v
    return {
      actor := ← f.required "actor"
      entity := ← f.required "entity"
      id := ← f.required "id"
      model := ← f.required "model"
      assembly := ← f.defaulted .core "assembly"
      declaredCoreActor := ← f.defaulted none "core_actor"
      declaredCoreEntity := ← f.defaulted none "core_entity" }

end Target

namespace Schematic.Entry

def fieldNames : List String := ["symbol", "type_parameters", "constraint_clauses", "children"]

mutual

def toValue : Entry → Value
  | ⟨symbol, parameters, clauses, children⟩ => .table
    [("symbol", encode symbol), ("type_parameters", encode parameters),
      ("constraint_clauses", encode clauses), ("children", .list (toValues children))]

def toValues : List Entry → List Value
  | [] => []
  | e :: es => e.toValue :: toValues es

end

/-- The entry without its children. -/
def withoutChildren? (r : Reading) (v : Value) : Option Entry := do
  let f ← r.fields? fieldNames v
  return {
    symbol := ← f.required "symbol"
    typeParameters := ← f.defaulted [] "type_parameters"
    constraintClauses := ← f.defaulted [] "constraint_clauses" }

mutual

def ofValue? (r : Reading) : Value → Option Entry
  | .table fields => do
    let e ← withoutChildren? r (.table fields)
    return { e with children := ← childrenIn? r fields }
  | .list items => do
    let e ← withoutChildren? r (.list items)
    return { e with children := ← childrenAt? r 3 items }
  | _ => none

/-- The children named in a table, if there are any. -/
def childrenIn? (r : Reading) : List (String × Value) → Option (List Entry)
  | [] => some []
  | (name, v) :: rest => if name = "children" then itemsOf? r v else childrenIn? r rest

/-- The children given in a list, behind the first `skip` fields. -/
def childrenAt? (r : Reading) (skip : Nat) : List Value → Option (List Entry)
  | [] => some []
  | v :: vs =>
    match skip with
    | 0 => itemsOf? r v
    | n + 1 => childrenAt? r n vs

def itemsOf? (r : Reading) : Value → Option (List Entry)
  | .list vs => ofValues? r vs
  | _ => none

def ofValues? (r : Reading) : List Value → Option (List Entry)
  | [] => some []
  | v :: vs => do return (← ofValue? r v) :: (← ofValues? r vs)

end

instance : Record Entry where
  encode := toValue
  decode := ofValue?

end Schematic.Entry

namespace Schematic

instance : Record Schematic where
  encode s := .table [("root", encode s.root)]
  decode r v := do
    let f ← r.fields? ["root"] v
    return { root := ← f.required "root" }

end Schematic

end ActorLinks
