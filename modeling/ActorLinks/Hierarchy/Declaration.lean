import ActorLinks.Graph.Part
import ActorLinks.Hierarchy.Visit

/-! # Declarations of hierarchies

A hierarchy has a property for every member, and for every delimiter a method that selects the
member of an enum value. What the hierarchies in its composition declare is implemented too.
-/
namespace ActorLinks.LinkGraph

def isHierarchyNode (g : LinkGraph) (id : NodeId) : Bool := (g.arena.kind id).isHierarchy

def coreHierarchy (g : LinkGraph) (id : NodeId) : String :=
  (g.target id).coreActor ++ g.arena.relativePath id ++ ".Hierarchy"

/-- The type whose values an `OfType` method gives. -/
def ownerType (g : LinkGraph) (id : NodeId) : String :=
  if g.arena.isTemplate id then (g.target id).link
  else (g.target id).actor ++ g.arena.relativePath id

def memberProperties (g : LinkGraph) (id : NodeId) (m : NodeId) : List Member :=
  let isCore := g.arena.isCore id
  let name := g.memberName id m
  let own : Decl.Property :=
    { modifiers := .ofList (if !isCore || !g.arena.isTemplate id then [.new] else [])
      typeName := g.memberType id m false
      name := name }
  (own : Member)
    :: if isCore then []
      else [(Decl.Property.explicit (g.memberType id m true) (g.coreHierarchy id) name name
        : Member)]

/-- The members of a composed hierarchy, answered by the properties of this one. -/
def composedMembers (g : LinkGraph) (n : NodeId) : List Member :=
  match g.hierarchyState? n with
  | some s => s.members.map fun m =>
    (Decl.Property.explicit (g.memberType n m false) (g.arena.fullPath n) (g.memberName n m)
      (g.memberName n m) : Member)
  | none => []

def delimits (g : LinkGraph) (enumType : String) (n : NodeId) : Bool :=
  match g.hierarchyState? n with
  | some s => s.delimiters.any fun d => d.enumType == enumType
  | none => false

def delimiterMethods (g : LinkGraph) (id : NodeId) (relatives : List NodeId) (d : Delimiter) :
    List Member :=
  let overridden := relatives.filter (g.delimits d.enumType)
  let arms := d.cases.map fun c => "    " ++ c.1 ++ " => " ++ g.memberName id c.2 ++ ","
  let delimiter := Decl.Parameter.of d.enumType "delimiter"
  let own : Decl.Method :=
    { accessibility := .internalAccess
      modifiers := .ofList (if !g.arena.isCore id || !overridden.isEmpty then [.new] else [])
      returnType := g.ownerType id
      name := "OfType"
      parameters := [delimiter]
      body := .block (["return delimiter switch", "\x7b"] ++ arms ++ ["    _ => this", "\x7d;"]) }
  let forward (n : NodeId) : Member :=
    ({ returnType := g.ownerType n
       name := "OfType"
       explicitInterface := some (g.arena.fullPath n)
       parameters := [delimiter]
       body := .expression "OfType(delimiter)" } : Decl.Method)
  own :: overridden.map forward

def hierarchyBases (g : LinkGraph) (id : NodeId) (relatives : List NodeId) : SortedSet String :=
  let core := if g.arena.isCore id then [] else [g.coreHierarchy id]
  SortedSet.ofList (core ++
    if g.arena.isTemplate id then [(g.target id).actor ++ ".Link"]
    else relatives.map g.arena.fullPath)

def hierarchyClass (g : LinkGraph) (id : NodeId) (s : HierarchyState) : TypeDecl :=
  let members := s.implementation.properties.flatMap fun p =>
    [(p.decl : Member),
      (Decl.Property.explicit p.typeName (g.arena.fullPath id) p.name p.name : Member)]
  (g.implementationClass id (g.implementedParentType? id)
    |>.addMembers members
    |>.addMembers s.implementation.constructorMembers)

def hierarchyPart (g : LinkGraph) (id : NodeId) : Except Failure Part := do
  let visited ← g.expectState id
  match g.hierarchyState? id with
  | none => throw (notAHierarchy id)
  | some s =>
    if s.members.isEmpty then return .nothing
    let relatives := visited.composition.toList.filter g.isHierarchyNode
    let composed := if g.arena.isTemplate id then [] else relatives.flatMap g.composedMembers
    let decl := ((TypeDecl.interfaceNamed "Hierarchy").markNew (g.redeclares id visited.ancestors)
      |>.addMembers (s.members.flatMap (g.memberProperties id))
      |>.addMembers composed
      |>.addMembers (s.delimiters.flatMap (g.delimiterMethods id relatives))
      |>.addBases (g.hierarchyBases id relatives).toList)
    return g.withImplementation id decl (g.hierarchyClass id s)
      (g.createMethod id s.implementation [.static])

end ActorLinks.LinkGraph
