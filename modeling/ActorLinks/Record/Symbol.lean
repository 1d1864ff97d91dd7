import ActorLinks.Record.Reading
import ActorLinks.Symbol.Type

/-! # Records of symbols

Field names and defaults of the symbols in a manifest. A constant is a table of its kind and its
value, and only the error constant has no value.
-/
namespace ActorLinks

namespace TypeKind

instance : Record TypeKind where
  encode k := .text (match k with
    | .unknown => "unknown"
    | k => k.keyword)
  decode r := r.choice? (fun k => match k with
    | .unknown => "unknown"
    | k => k.keyword) all

end TypeKind

namespace Constant

mutual

def toValue : Constant → Value
  | primitive s => .table [("kind", .text "primitive"), ("value", .text s)]
  | bool b => .table [("kind", .text "bool"), ("value", .bool b)]
  | enumeration s => .table [("kind", .text "enum"), ("value", .text s)]
  | type s => .table [("kind", .text "type"), ("value", .text s)]
  | array items => .table [("kind", .text "array"), ("value", .list (toValues items))]
  | error => .table [("kind", .text "error")]

def toValues : List Constant → List Value
  | [] => []
  | c :: cs => c.toValue :: toValues cs

end

/-- A value with what it holds as a list of constants. -/
structure Content where
  raw : Value
  items : Option (List Constant)

def ofContent? (kind : String) (content : Option Content) : Option Constant :=
  match kind, content with
  | "error", none => some error
  | "error", some ⟨.null, _⟩ => some error
  | "primitive", some ⟨.text s, _⟩ => some (primitive s)
  | "enum", some ⟨.text s, _⟩ => some (enumeration s)
  | "type", some ⟨.text s, _⟩ => some (type s)
  | "bool", some ⟨.bool b, _⟩ => some (bool b)
  | "array", some ⟨_, some items⟩ => some (array items)
  | _, _ => none

def kinds (fields : List (String × Value)) : List Value :=
  (fields.filter fun f => f.1 == "kind").map Prod.snd

mutual

def ofValue? (r : Reading) : Value → Option Constant
  | .table fields => do
    match kinds fields, ← contents? r false fields with
    | [kind], [] => ofContent? (← r.word? kind) none
    | [kind], [content] => ofContent? (← r.word? kind) (some content)
    | _, _ => none
  | .list (kind :: value :: more) =>
    if r.allowsMore || more.isEmpty then
      (r.word? kind).bind fun k => ofContent? k (some ⟨value, itemsOf? r value⟩)
    else none
  | _ => none

/-- Everything that is given as the value of the constant, after its kind or ahead of it. -/
def contents? (r : Reading) (afterKind : Bool) : List (String × Value) → Option (List Content)
  | [] => some []
  | (name, v) :: rest =>
    if name = "value" then
      if afterKind then do
        return ⟨v, itemsOf? r v⟩ :: (← contents? r afterKind rest)
      else if v.isReadable then do
        return ⟨v, itemsOf? .ahead v⟩ :: (← contents? r afterKind rest)
      else none
    else contents? r (afterKind || name = "kind") rest

def itemsOf? (r : Reading) : Value → Option (List Constant)
  | .list vs => ofValues? r vs
  | _ => none

def ofValues? (r : Reading) : List Value → Option (List Constant)
  | [] => some []
  | v :: vs => do return (← ofValue? r v) :: (← ofValues? r vs)

end

instance : Record Constant where
  encode := toValue
  decode := ofValue?

end Constant

namespace Attribute

def decodeNamed (r : Reading) : List (String × Value) → Option (List (String × Constant))
  | [] => some []
  | (name, v) :: rest => do return (name, ← decode r v) :: (← decodeNamed r rest)

instance : Record (Dict Constant) where
  encode d := .table (d.entries.map fun e => (e.1, encode e.2))
  decode
    | r, .table fields => (decodeNamed r fields).map Dict.ofList
    | _, _ => none

instance : Record Attribute where
  encode a := .table
    [("class", encode a.className), ("type_arguments", encode a.typeArguments),
      ("arguments", encode a.arguments), ("named", encode a.named)]
  decode r v := do
    let f ← r.fields? ["class", "type_arguments", "arguments", "named"] v
    return {
      className := ← f.required "class"
      typeArguments := ← f.defaulted [] "type_arguments"
      arguments := ← f.defaulted [] "arguments"
      named := ← f.defaulted ∅ "named" }

end Attribute

namespace Symbol

instance : Record Property where
  encode p := .table
    [("name", encode p.name), ("type", encode p.typeName), ("type_kind", encode p.typeKind),
      ("explicit_interface", encode p.explicitInterface), ("attributes", encode p.attributes)]
  decode r v := do
    let f ← r.fields? ["name", "type", "type_kind", "explicit_interface", "attributes"] v
    return {
      name := ← f.required "name"
      typeName := ← f.required "type"
      typeKind := ← f.defaulted .classType "type_kind"
      explicitInterface := ← f.defaulted none "explicit_interface"
      attributes := ← f.defaulted [] "attributes" }

instance : Record Parameter where
  encode p := .table
    [("name", encode p.name), ("type", encode p.typeName), ("default", encode p.default)]
  decode r v := do
    let f ← r.fields? ["name", "type", "default"] v
    return {
      name := ← f.required "name"
      typeName := ← f.required "type"
      default := ← f.defaulted none "default" }

instance : Record Constructor where
  encode c := .table [("parameters", encode c.parameters)]
  decode r v := do
    let f ← r.fields? ["parameters"] v
    return { parameters := ← f.defaulted [] "parameters" }

instance : Record Field where
  encode d := .table [("name", encode d.name), ("attributes", encode d.attributes)]
  decode r v := do
    let f ← r.fields? ["name", "attributes"] v
    return {
      name := ← f.required "name"
      attributes := ← f.defaulted [] "attributes" }

end Symbol

namespace TypeSymbol

def fieldNames : List String :=
  ["name", "kind", "type_parameters", "constraint_clauses", "base_type", "interfaces",
    "containing_type", "attributes", "properties", "constructors", "fields"]

instance : Record TypeSymbol where
  encode t := .table
    [("name", encode t.name), ("kind", encode t.kind),
      ("type_parameters", encode t.typeParameters),
      ("constraint_clauses", encode t.constraintClauses), ("base_type", encode t.baseType),
      ("interfaces", encode t.interfaces), ("containing_type", encode t.containingType),
      ("attributes", encode t.attributes), ("properties", encode t.properties),
      ("constructors", encode t.constructors), ("fields", encode t.fields)]
  decode r v := do
    let f ← r.fields? fieldNames v
    return {
      name := ← f.required "name"
      kind := ← f.defaulted .classType "kind"
      typeParameters := ← f.defaulted [] "type_parameters"
      constraintClauses := ← f.defaulted [] "constraint_clauses"
      baseType := ← f.defaulted none "base_type"
      interfaces := ← f.defaulted [] "interfaces"
      containingType := ← f.defaulted none "containing_type"
      attributes := ← f.defaulted [] "attributes"
      properties := ← f.defaulted [] "properties"
      constructors := ← f.defaulted [] "constructors"
      fields := ← f.defaulted [] "fields" }

end TypeSymbol

end ActorLinks
