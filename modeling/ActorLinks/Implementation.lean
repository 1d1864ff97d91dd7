import ActorLinks.Decl.Type

/-! # Implementation classes

A node outside the core assembly has properties and a constructor that fills them. Constructors
form a chain, a class before its base: the parameters of the base come first, and a parameter
whose name the base already uses is left out.
-/
namespace ActorLinks

structure ImplProperty where
  name : String
  typeName : String
  accessibility : Accessibility := .internalAccess
  modifiers : Modifiers := ∅
  deriving DecidableEq

namespace ImplProperty

/-- An override where a base has the property, else virtual where something derives. -/
def overridable (p : ImplProperty) (hasBase hasChild : Bool) : ImplProperty :=
  if hasBase then { p with modifiers := p.modifiers.insert .override }
  else if hasChild then { p with modifiers := p.modifiers.insert .virtual }
  else p

def virtualIf (p : ImplProperty) (condition : Bool) : ImplProperty :=
  if condition then { p with modifiers := p.modifiers.insert .virtual } else p

def parameterName (p : ImplProperty) : String := Text.parameterName p.name

def decl (p : ImplProperty) : Decl.Property where
  accessibility := p.accessibility
  modifiers := p.modifiers
  typeName := p.typeName
  name := p.name

end ImplProperty

/-- `initializes` names the property that is set from the parameter. -/
structure ImplParameter where
  typeName : String
  name : String
  initializes : Option String := none
  deriving DecidableEq

/-- What one class adds to a chain of constructors. -/
structure ConstructorLayer where
  className : String
  parameters : List ImplParameter
  deriving DecidableEq

/-- A class first, then its base, and so on; empty where there is no constructor. -/
abbrev ConstructorChain := List ConstructorLayer

namespace ConstructorChain

def addParameter (ps : List Decl.Parameter) (p : ImplParameter) : List Decl.Parameter :=
  if ps.any fun q => q.name == p.name then ps
  else ps ++ [{ typeName := p.typeName, name := p.name }]

def parameters : ConstructorChain → List Decl.Parameter
  | [] => []
  | layer :: base => layer.parameters.foldl addParameter (parameters base)

def argumentNames (chain : ConstructorChain) : List String := chain.parameters.map (·.name)

def assignments (layer : ConstructorLayer) : List String :=
  layer.parameters.filterMap fun p => p.initializes.map fun property =>
    property ++ " = " ++ p.name ++ ";"

def decl? : ConstructorChain → Option Decl.Constructor
  | [] => none
  | layer :: base => some
    { name := layer.className
      parameters := parameters (layer :: base)
      baseArguments := if base.isEmpty then none else some (argumentNames base)
      body := assignments layer }

def layerOf (className : String) (properties : List ImplProperty) : ConstructorLayer where
  className := className
  parameters := properties.map fun p => ⟨p.typeName, p.parameterName, some p.name⟩

end ConstructorChain

structure Implementation where
  properties : List ImplProperty := []
  constructors : ConstructorChain := []
  deriving DecidableEq, Inhabited

namespace Implementation

def ofProperties (className : String) (properties : List ImplProperty)
    (base : ConstructorChain) : Implementation where
  properties := properties
  constructors := ConstructorChain.layerOf className properties :: base

def parameters (i : Implementation) : List Decl.Parameter := i.constructors.parameters

def arguments (i : Implementation) : List String := i.constructors.argumentNames

def propertyMembers (i : Implementation) : List Member :=
  i.properties.map fun (p : ImplProperty) => (p.decl : Member)

/-- The constructor, if there is one. -/
def constructorMembers (i : Implementation) : List Member :=
  i.constructors.decl?.toList.map fun (c : Decl.Constructor) => (c : Member)

end Implementation

end ActorLinks
