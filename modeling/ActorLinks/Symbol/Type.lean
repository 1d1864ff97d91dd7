import ActorLinks.Symbol.Attribute

/-! # Type symbols

What is known of a declared type: its members, its direct supertypes and the attributes on
them. Supertypes and containers are named, not linked, and need not be declared.
-/
namespace ActorLinks

inductive TypeKind where
  | interface
  | classType
  | struct
  | enum
  | unknown
  deriving DecidableEq, Repr, Inhabited

namespace TypeKind

def all : List TypeKind := [interface, .classType, struct, enum, unknown]

def keyword : TypeKind → String
  | interface => "interface"
  | .classType => "class"
  | struct => "struct"
  | enum => "enum"
  | unknown => "class"

end TypeKind

namespace Symbol

structure Property where
  name : String
  typeName : String
  typeKind : TypeKind := .classType
  explicitInterface : Option String := none
  attributes : List Attribute := []
  deriving DecidableEq

structure Parameter where
  name : String
  typeName : String
  default : Option String := none
  deriving DecidableEq

structure Constructor where
  parameters : List Parameter := []
  deriving DecidableEq

structure Field where
  name : String
  attributes : List Attribute := []
  deriving DecidableEq

def Property.attribute? (p : Property) (m : Marker) : Option Attribute := m.find? p.attributes

def Parameter.simpleTypeName (p : Parameter) : String := Text.simpleName p.typeName

end Symbol

structure TypeSymbol where
  name : String
  kind : TypeKind := .classType
  typeParameters : List String := []
  constraintClauses : List String := []
  baseType : Option String := none
  interfaces : List String := []
  containingType : Option String := none
  attributes : List Attribute := []
  properties : List Symbol.Property := []
  constructors : List Symbol.Constructor := []
  fields : List Symbol.Field := []
  deriving DecidableEq

/-- A name followed by its type parameters, if it has any. -/
def withTypeParameters (name : String) (parameters : List String) : String :=
  if parameters.isEmpty then name else name ++ "<" ++ ", ".intercalate parameters ++ ">"

namespace TypeSymbol

def simpleName (t : TypeSymbol) : String := Text.simpleName t.name

def isGeneric (t : TypeSymbol) : Bool := !t.typeParameters.isEmpty

def declaredName (t : TypeSymbol) : String := withTypeParameters t.simpleName t.typeParameters

def attribute? (t : TypeSymbol) (m : Marker) : Option Attribute := m.find? t.attributes

def carries (t : TypeSymbol) (m : Marker) : Bool := (t.attribute? m).isSome

/-- The direct supertypes, base type first. -/
def parents (t : TypeSymbol) : List String := t.baseType.toList ++ t.interfaces

end TypeSymbol

/-- The name left of an actor type when the words that every actor carries are dropped. -/
def friendlyName (typeName : String) (kind : TypeKind) : String :=
  let name := Text.simpleName typeName
  let name := if kind = .interface then Text.dropFirstByte name else name
  Text.erase "Rest" (Text.erase "Gateway" (Text.erase "Actor" (Text.erase "Trait" name)))

end ActorLinks
