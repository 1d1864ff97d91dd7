import ActorLinks.Arena.Basic
import ActorLinks.Implementation

/-! # Node states

What a visit derives for one node: the part common to all kinds, and a part of its own for each
kind.
-/
namespace ActorLinks

structure ActorState where
  relationshipName : String
  baseActor : Option NodeId
  hasChildTarget : Bool
  /-- The model carries its own id, so that entities are made through the actor. -/
  modelHasId : Bool
  redefinesRootMembers : Bool
  /-- The actors related through a canonical relationship, by relationship name. -/
  additionalRelationships : Dict (List NodeId)
  canonicalRelationshipRedefined : Bool
  implementation : Implementation
  deriving DecidableEq

structure LinkTypeState where
  /-- The same link type on the base actor, if that one is implemented. -/
  implementationBase : Option NodeId
  redefinesLinkMembers : Bool
  shouldDeclareNew : Bool
  implementation : Implementation
  deriving DecidableEq

structure ExtensionProperty where
  symbol : Symbol.Property
  isLinkMirror : Bool
  isBackLinkMirror : Bool
  /-- The actor that the property mirrors. -/
  target : Option NodeId
  /-- The extension that an overload redeclares. -/
  overloadedBase : Option NodeId
  isValid : Bool
  deriving DecidableEq

namespace ExtensionProperty

def name (p : ExtensionProperty) : String := p.symbol.name

def isOverload (p : ExtensionProperty) : Bool := p.symbol.explicitInterface.isSome

/-- Whether an extension declares the property: at the actor every valid one, below it only
links to other actors. -/
def isDefinedOnPath (p : ExtensionProperty) (isTemplate : Bool) : Bool :=
  p.isValid && (isTemplate || (p.isLinkMirror && !p.isBackLinkMirror))

end ExtensionProperty

structure ExtensionState where
  properties : List ExtensionProperty
  implementation : Implementation
  deriving DecidableEq

/-- The members that the fields of an enum select. -/
structure Delimiter where
  enumType : String
  cases : List (String × NodeId)
  deriving DecidableEq

structure HierarchyState where
  members : List NodeId
  delimiters : List Delimiter
  implementation : Implementation
  deriving DecidableEq

structure BackLinkState where
  isClass : Bool
  /-- `TSource` is declared `out`. -/
  isCovariant : Bool
  implementation : Implementation
  deriving DecidableEq

inductive NodeDetail where
  | actor (state : ActorState)
  | linkType (state : LinkTypeState)
  | extension (state : ExtensionState)
  | hierarchy (state : HierarchyState)
  | backLink (state : BackLinkState)
  deriving DecidableEq

def NodeDetail.implementation : NodeDetail → Implementation
  | actor s => s.implementation
  | linkType s => s.implementation
  | extension s => s.implementation
  | hierarchy s => s.implementation
  | backLink s => s.implementation

structure NodeState where
  /-- The graph actors that the root derives from, nearest first. -/
  ancestors : List NodeId
  implicitComposition : SortedSet NodeId
  /-- The implicit composition without what the parent already composes. -/
  composition : SortedSet NodeId
  detail : NodeDetail
  deriving DecidableEq

end ActorLinks
