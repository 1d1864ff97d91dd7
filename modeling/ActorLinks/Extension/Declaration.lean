import ActorLinks.Extension.Property
import ActorLinks.Graph.Part

/-! # Declarations of extensions

An extension is an interface at every place of the tree. Below the actor it derives from its
parent and from the extensions it composes, and implements what those define under the same
property names.
-/
namespace ActorLinks.LinkGraph

/-- The property as another extension defines it, answered by the property of this one. -/
def explicitProperty (g : LinkGraph) (n : NodeId) (p : ExtensionProperty) : Decl.Property :=
  .explicit (g.propertyType p n false false) (g.arena.fullPath n) p.name p.name

def corePath (g : LinkGraph) (id : NodeId) : String :=
  (g.target id).coreActor ++ g.arena.relativePath id ++ "." ++ g.arena.typeName id

def declaredProperty (g : LinkGraph) (id : NodeId) (p : ExtensionProperty)
    (existing : Option (List (NodeId × ExtensionProperty))) : List Member :=
  let isCore := g.arena.isCore id
  let own : Decl.Property :=
    { modifiers := .ofList (if !isCore || existing.isSome then [.new] else [])
      typeName := g.propertyType p id false false
      name := p.name }
  let core : List Member :=
    if isCore then []
    else [(Decl.Property.explicit (g.propertyType p id false true) (g.corePath id) p.name p.name
      : Member)]
  (own : Member) :: core
    ++ (existing.getD []).map fun e => (g.explicitProperty e.1 e.2 : Member)

def extensionMembers (g : LinkGraph) (id : NodeId) (s : ExtensionState)
    (inherited : Dict (List (NodeId × ExtensionProperty))) : List Member :=
  s.properties.flatMap fun p =>
    if !p.isValid then [.comment (p.name ++ " is invalid")]
    else if p.isOverload || !p.isDefinedOnPath (g.arena.isTemplate id) then []
    else g.declaredProperty id p (inherited.get? p.name)

def composedExtensionBases (g : LinkGraph) (id n : NodeId) : List String :=
  g.arena.fullPath n
    :: if g.arena.isCore id then []
      else [(g.target id).coreActor ++ g.arena.relativePath n ++ "." ++ g.arena.typeName id]

/-- Extensions that this one builds on: those it overloads and those its symbol derives from. -/
def extendedBases (g : LinkGraph) (symbol : TypeSymbol) (s : ExtensionState) : List NodeId :=
  s.properties.filterMap (·.overloadedBase) ++ symbol.interfaces.filterMap g.templateExtension?

def extensionBases (g : LinkGraph) (id : NodeId) (symbol : TypeSymbol) (visited : NodeState)
    (s : ExtensionState) : SortedSet String :=
  let core := if g.arena.isCore id then [] else [g.corePath id]
  let composed :=
    if g.arena.isTemplate id then []
    else g.arena.path id :: (visited.composition.toList.filter g.isExtensionNode).flatMap
      (g.composedExtensionBases id)
  SortedSet.ofList (core ++ composed ++ (g.extendedBases symbol s).map g.arena.fullPath)

/-- The nearest definition of a property: the extension's own, or the first one it inherits. -/
def nearestDefinition (g : LinkGraph) (id : NodeId) (p : ExtensionProperty)
    (inherited : Dict (List (NodeId × ExtensionProperty))) :
    Option (NodeId × ExtensionProperty) :=
  if p.isDefinedOnPath (g.arena.isTemplate id) then some (id, p)
  else (inherited.get? p.name).bind List.head?

def extensionClass (g : LinkGraph) (id : NodeId) (s : ExtensionState)
    (inherited : Dict (List (NodeId × ExtensionProperty))) : TypeDecl :=
  let answers := (ownProperties s).filterMap fun p =>
    (g.nearestDefinition id p inherited).map fun e => (g.explicitProperty e.1 e.2 : Member)
  (g.implementationClass id (g.implementedParentType? id)
    |>.addMembers s.implementation.propertyMembers
    |>.addMembers answers
    |>.addMembers s.implementation.constructorMembers)

def extensionPart (g : LinkGraph) (id : NodeId) : Except Failure Part := do
  let visited ← g.expectState id
  match g.extensionState? id, g.extensionSymbol? id with
  | some s, some symbol =>
    let inherited := g.inheritedProperties id
    let decl := ((TypeDecl.interfaceNamed (g.arena.typeName id)).markNew
        (g.redeclares id visited.ancestors)
      |>.addMembers (g.extensionMembers id s inherited)
      |>.addBases (g.extensionBases id symbol visited s).toList)
    return g.withImplementation id decl (g.extensionClass id s inherited)
      (g.createMethod id s.implementation [.static])
  | _, _ => throw (notAnExtension id)

end ActorLinks.LinkGraph
