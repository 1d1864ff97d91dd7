import ActorLinks.Implementation
import ActorLinks.Record.Symbol

/-! # Records of declarations

Declarations have no defaults but for what may be absent. A member and a body are a choice with
their content.
-/
namespace ActorLinks

namespace Accessibility

def name : Accessibility → String
  | unspecified => "Unspecified"
  | publicAccess => "Public"
  | internalAccess => "Internal"
  | protectedAccess => "Protected"
  | privateProtectedAccess => "PrivateProtected"
  | privateAccess => "Private"

def all : List Accessibility :=
  [unspecified, publicAccess, internalAccess, protectedAccess, privateProtectedAccess,
    privateAccess]

instance : Record Accessibility where
  encode a := .text a.name
  decode r := r.choice? name all

end Accessibility

namespace Modifier

def name : Modifier → String
  | static => "Static"
  | readonly => "Readonly"
  | new => "New"
  | abstract => "Abstract"
  | sealed => "Sealed"
  | virtual => "Virtual"
  | override => "Override"
  | partialType => "Partial"

instance : Record Modifier where
  encode m := .text m.name
  decode r := r.choice? name all

end Modifier

instance : Record Modifiers where
  encode ms := encode ms.toList
  decode r v := (decode r v : Option (List Modifier)).map Modifiers.ofList

namespace Decl

instance : Record Parameter where
  encode p := .table
    [("type_name", encode p.typeName), ("name", encode p.name), ("default", encode p.default)]
  decode r v := do
    let f ← r.fields? ["type_name", "name", "default"] v
    return {
      typeName := ← f.required "type_name"
      name := ← f.required "name"
      default := ← f.optional "default" }

instance : Record PropertyBody where
  encode
    | .get => .text "Get"
    | .expression e => .table [("Expression", .text e)]
  decode r v := do
    match ← v.choiceOf? with
    | ("Get", content) => if r.isNothing content then some .get else none
    | ("Expression", .text e) => some (.expression e)
    | _ => none

instance : Record MethodBody where
  encode
    | .declaration => .text "Declaration"
    | .expression e => .table [("Expression", .text e)]
    | .block lines => .table [("Block", encode lines)]
  decode r v := do
    match ← v.choiceOf? with
    | ("Declaration", content) => if r.isNothing content then some .declaration else none
    | ("Expression", .text e) => some (.expression e)
    | ("Block", lines) => (decode r lines).map .block
    | _ => none

instance : Record Property where
  encode p := .table
    [("accessibility", encode p.accessibility), ("modifiers", encode p.modifiers),
      ("type_name", encode p.typeName), ("name", encode p.name),
      ("explicit_interface", encode p.explicitInterface), ("body", encode p.body)]
  decode r v := do
    let f ← r.fields?
      ["accessibility", "modifiers", "type_name", "name", "explicit_interface", "body"] v
    return {
      accessibility := ← f.required "accessibility"
      modifiers := ← f.required "modifiers"
      typeName := ← f.required "type_name"
      name := ← f.required "name"
      explicitInterface := ← f.optional "explicit_interface"
      body := ← f.required "body" }

instance : Record Method where
  encode m := .table
    [("accessibility", encode m.accessibility), ("modifiers", encode m.modifiers),
      ("return_type", encode m.returnType), ("name", encode m.name),
      ("explicit_interface", encode m.explicitInterface), ("parameters", encode m.parameters),
      ("body", encode m.body)]
  decode r v := do
    let f ← r.fields?
      ["accessibility", "modifiers", "return_type", "name", "explicit_interface", "parameters",
        "body"] v
    return {
      accessibility := ← f.required "accessibility"
      modifiers := ← f.required "modifiers"
      returnType := ← f.required "return_type"
      name := ← f.required "name"
      explicitInterface := ← f.optional "explicit_interface"
      parameters := ← f.required "parameters"
      body := ← f.required "body" }

instance : Record Indexer where
  encode i := .table
    [("accessibility", encode i.accessibility), ("modifiers", encode i.modifiers),
      ("type_name", encode i.typeName), ("explicit_interface", encode i.explicitInterface),
      ("parameters", encode i.parameters), ("expression", encode i.expression)]
  decode r v := do
    let f ← r.fields?
      ["accessibility", "modifiers", "type_name", "explicit_interface", "parameters",
        "expression"] v
    return {
      accessibility := ← f.required "accessibility"
      modifiers := ← f.required "modifiers"
      typeName := ← f.required "type_name"
      explicitInterface := ← f.optional "explicit_interface"
      parameters := ← f.required "parameters"
      expression := ← f.required "expression" }

instance : Record Field where
  encode d := .table
    [("accessibility", encode d.accessibility), ("modifiers", encode d.modifiers),
      ("type_name", encode d.typeName), ("name", encode d.name),
      ("initializer", encode d.initializer)]
  decode r v := do
    let f ← r.fields? ["accessibility", "modifiers", "type_name", "name", "initializer"] v
    return {
      accessibility := ← f.required "accessibility"
      modifiers := ← f.required "modifiers"
      typeName := ← f.required "type_name"
      name := ← f.required "name"
      initializer := ← f.optional "initializer" }

instance : Record Constructor where
  encode c := .table
    [("accessibility", encode c.accessibility), ("name", encode c.name),
      ("parameters", encode c.parameters), ("base_arguments", encode c.baseArguments),
      ("body", encode c.body)]
  decode r v := do
    let f ← r.fields? ["accessibility", "name", "parameters", "base_arguments", "body"] v
    return {
      accessibility := ← f.required "accessibility"
      name := ← f.required "name"
      parameters := ← f.required "parameters"
      baseArguments := ← f.optional "base_arguments"
      body := ← f.required "body" }

def Leaf.toValue : Leaf → Value
  | comment s => .table [("Comment", .text s)]
  | property p => .table [("Property", encode p)]
  | method m => .table [("Method", encode m)]
  | indexer i => .table [("Indexer", encode i)]
  | field d => .table [("Field", encode d)]
  | constructor c => .table [("Constructor", encode c)]

def Leaf.ofChoice? (r : Reading) (name : String) (content : Value) : Option Leaf :=
  match name with
  | "Comment" => (decode r content).map comment
  | "Property" => (decode r content).map property
  | "Method" => (decode r content).map method
  | "Indexer" => (decode r content).map indexer
  | "Field" => (decode r content).map field
  | "Constructor" => (decode r content).map constructor
  | _ => none

end Decl

namespace TypeDecl

def fieldNames : List String :=
  ["leading_comments", "accessibility", "modifiers", "kind", "name", "bases", "constraints",
    "members"]

mutual

def toValue : TypeDecl → Value
  | ⟨comments, access, modifiers, kind, name, bases, constraints, members⟩ => .table
    [("leading_comments", encode comments), ("accessibility", encode access),
      ("modifiers", encode modifiers), ("kind", encode kind), ("name", encode name),
      ("bases", encode bases), ("constraints", encode constraints),
      ("members", .list (memberValues members))]

def memberValue : Member → Value
  | .leaf l => l.toValue
  | .type d => .table [("Type", toValue d)]

def memberValues : List Member → List Value
  | [] => []
  | m :: ms => memberValue m :: memberValues ms

end

/-- The declaration without its members. -/
def withoutMembers? (r : Reading) (v : Value) : Option TypeDecl := do
  let f ← r.fields? fieldNames v
  return {
    leadingComments := ← f.required "leading_comments"
    accessibility := ← f.required "accessibility"
    modifiers := ← f.required "modifiers"
    kind := ← f.required "kind"
    name := ← f.required "name"
    bases := ← f.required "bases"
    constraints := ← f.required "constraints" }

mutual

def ofValue? (r : Reading) : Value → Option TypeDecl
  | .table fields => do
    let d ← withoutMembers? r (.table fields)
    return { d with members := ← membersIn? r fields }
  | .list items => do
    let d ← withoutMembers? r (.list items)
    return { d with members := ← membersAt? r 7 items }
  | _ => none

def membersIn? (r : Reading) : List (String × Value) → Option (List Member)
  | [] => none
  | (name, v) :: rest => if name = "members" then memberList? r v else membersIn? r rest

/-- The members given in a list, behind the first `skip` fields. -/
def membersAt? (r : Reading) (skip : Nat) : List Value → Option (List Member)
  | [] => none
  | v :: vs =>
    match skip with
    | 0 => memberList? r v
    | n + 1 => membersAt? r n vs

def memberList? (r : Reading) : Value → Option (List Member)
  | .list vs => ofValues? r vs
  | _ => none

def ofValues? (r : Reading) : List Value → Option (List Member)
  | [] => some []
  | v :: vs => do return (← member? r v) :: (← ofValues? r vs)

def member? (r : Reading) : Value → Option Member
  | .table [(name, v)] =>
    if name = "Type" then (ofValue? r v).map Member.type
    else (Decl.Leaf.ofChoice? r name v).map Member.leaf
  | _ => none

end

instance : Record Member where
  encode := memberValue
  decode := member?

instance : Record TypeDecl where
  encode := toValue
  decode := ofValue?

end TypeDecl

end ActorLinks
