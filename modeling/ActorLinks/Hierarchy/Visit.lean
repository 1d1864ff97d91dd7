import ActorLinks.Graph.Basic

/-! # Visiting hierarchies

The members of a hierarchy are the actors that its marker lists, or else the actors of the
assembly that implement the core actor. A marker that lists anything but types is a schema
failure. Delimiters say which member each field of an enum stands for.
-/
namespace ActorLinks.LinkGraph

def friendlyWords (g : LinkGraph) (id : NodeId) : List String :=
  Text.nameParts (friendlyName (g.target id).coreActor .interface)

/-- The words that set the member apart from its owner, or all its words. -/
def memberName (g : LinkGraph) (owner member : NodeId) : String :=
  let apart := String.join ((g.friendlyWords member).filter (· ∉ g.friendlyWords owner))
  if apart.isEmpty then String.join (g.friendlyWords member) else apart

def memberType (g : LinkGraph) (owner member : NodeId) (useCore : Bool) : String :=
  let t := g.target member
  if g.arena.isTemplate owner then
    if useCore then t.coreLink else t.link
  else (if useCore then t.coreActor else t.actor) ++ g.arena.relativePath owner

def memberByCore? (g : LinkGraph) (assembly : Assembly) (coreActor : String) : Option NodeId :=
  g.roots.find? fun id =>
    (g.target id).coreActor == coreActor && (g.target id).assembly == assembly

def specializingMembers (g : LinkGraph) (t : Target) : List NodeId :=
  g.roots.filter fun n =>
    (g.target n).assembly == t.assembly
      && g.compilation.implements (g.target n).coreActor t.coreActor

/-- The listed types in order; a type without an actor in the assembly is passed over. -/
def listedMembers (g : LinkGraph) (t : Target) : List Constant → Except Failure (List NodeId)
  | [] => .ok []
  | c :: cs =>
    match c.type? with
    | none => .error (.schema t.coreActor ("Types entries must be types, found " ++ c.quoted))
    | some name => (g.listedMembers t cs).map ((g.memberByCore? t.assembly name).toList ++ ·)

def membersOf (g : LinkGraph) (t : Target) : Option Constant → Except Failure (List NodeId)
  | none | some .error => .ok (g.specializingMembers t)
  | some (.type name) => .ok (g.memberByCore? t.assembly name).toList
  | some (.array items) => g.listedMembers t items
  | some c =>
    .error (.schema t.coreActor ("Types must be a type or an array of types, found " ++ c.quoted))

def notAHierarchy (id : NodeId) : Failure := .emission (Arena.idText id ++ " is not a hierarchy")

def hierarchyMembers (g : LinkGraph) (id : NodeId) : Except Failure (List NodeId) :=
  match g.arena.kind id with
  | .hierarchy marker => g.membersOf (g.target id) (marker.named.get? "Types")
  | _ => .error (notAHierarchy id)

/-- The member whose core entity is the one type argument of the field's heuristic marker. -/
def fieldMember? (g : LinkGraph) (members : List NodeId) (f : Symbol.Field) : Option NodeId :=
  match (Marker.typeHeuristic.find? f.attributes).map (·.typeArguments) with
  | some [entity] => members.find? fun m => (g.target m).coreEntity == entity
  | _ => none

def delimiter? (g : LinkGraph) (members : List NodeId) (p : Symbol.Property) : Option Delimiter :=
  match g.compilation.type? p.typeName with
  | none => none
  | some enum =>
    if enum.kind ≠ .enum then none
    else
      let cases := enum.fields.filterMap fun f =>
        (g.fieldMember? members f).map fun m => (enum.name ++ "." ++ f.name, m)
      if cases.isEmpty then none else some ⟨enum.name, cases⟩

/-- The entity and its supertypes as far as they are declared. -/
def entityTypes (g : LinkGraph) (entity : String) : List TypeSymbol :=
  (entity :: (g.compilation.supertypes entity).toList).filterMap g.compilation.type?

def delimiters (g : LinkGraph) (id : NodeId) (members : List NodeId) : List Delimiter :=
  (((g.entityTypes (g.target id).coreEntity).flatMap (·.properties)).filter fun p =>
    (p.attribute? .typeHeuristic).isSome).filterMap (g.delimiter? members)

def visitHierarchy (g : LinkGraph) (id : NodeId) : Except Failure HierarchyState :=
  (g.hierarchyMembers id).map fun members =>
    let isVirtual := g.arena.isTemplate id || (g.arena.backLinkOf? id).isSome
    let properties := members.map fun m =>
      ({ name := g.memberName id m, typeName := g.memberType id m false } : ImplProperty).virtualIf
        isVirtual
    { members := members
      delimiters := g.delimiters id members
      implementation :=
        if g.arena.isImplemented id then
          Implementation.ofProperties (g.arena.className id) properties (g.parentConstructors id)
        else {} }

end ActorLinks.LinkGraph
