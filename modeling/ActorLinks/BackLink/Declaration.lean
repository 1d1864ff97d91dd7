import ActorLinks.BackLink.Visit
import ActorLinks.Extension.Property
import ActorLinks.Graph.Part
import ActorLinks.Hierarchy.Visit

/-! # Declarations of back links

A back link remembers the source it was reached from. It derives from the back links of all
that its parent behaves as, declares `Source` anew where one of those does, and redeclares the
parent's properties with back link types.
-/
namespace ActorLinks.LinkGraph

/-- The back links in the node's own composition, and those of the nodes in its parent's. -/
def inheritedBackLinks (g : LinkGraph) (id : NodeId) : SortedSet NodeId :=
  let own := match g.state? id with
    | some s => s.composition.toList.filter fun n => (g.arena.kind n).isBackLink
    | none => []
  let ofParent := match (g.arena.parent? id).bind g.state? with
    | some s => s.composition.toList.filterMap g.arena.backLinkOf?
    | none => []
  (SortedSet.ofList (own ++ ofParent)).filter (· ≠ id)

/-- The equivalents of a node in the trees of its ancestors. -/
def equivalents (g : LinkGraph) (id : NodeId) (ancestors : List NodeId) : List NodeId :=
  ancestors.filterMap (g.arena.equivalent? id)

/-- A reason of its own to declare `Source` anew. -/
def changesSource (g : LinkGraph) (id : NodeId) : Bool :=
  !g.arena.isCore id || match g.state? id with
    | some s => g.redeclares id s.ancestors
    | none => false

/-- The ids that can have a parent or a state. -/
def knownIds (g : LinkGraph) : List NodeId := List.range (max g.arena.size g.states.size)

theorem inheritedBackLinks_outside (g : LinkGraph) (id : NodeId) (h : id ∉ g.knownIds) :
    (g.inheritedBackLinks id).toList = [] := by
  have h : max g.arena.size g.states.size ≤ id := by simpa [knownIds] using h
  have hp : g.arena.parent? id = none := by
    cases hp : g.arena.parent? id with
    | none => rfl
    | some p =>
      have := Arena.lt_size_of_parent hp
      omega
  have hs : g.state? id = none := by
    simp [state?, Array.getElem?_eq_none (show g.states.size ≤ id by omega)]
  simp [inheritedBackLinks, hp, hs, SortedSet.ofList, SortedSet.insertAll, SortedSet.filter,
    SortedSet.empty]

/-- Whether the back link, or any that it inherits over any number of steps, changes `Source`. -/
def redefinesSource (g : LinkGraph) (id : NodeId) : Bool :=
  (seek g.knownIds (fun n => (g.inheritedBackLinks n).toList) g.inheritedBackLinks_outside
    g.changesSource [] [id]).found

def redeclaredExtensionProperty (g : LinkGraph) (parent : NodeId) (p : ExtensionProperty) :
    List Member :=
  if p.isBackLinkMirror then
    [({ typeName := g.propertyType p parent true false, name := p.name } : Decl.Property)]
  else if !p.isDefinedOnPath (g.arena.isTemplate parent) || p.target.isNone then []
  else
    [({ modifiers := .ofList [.new]
        typeName := g.propertyType p parent true false
        name := p.name } : Decl.Property),
      (Decl.Property.explicit (g.propertyType p parent false false) (g.arena.fullPath parent)
        p.name p.name)]

def redeclaredHierarchyMember (g : LinkGraph) (parent m : NodeId) : List Member :=
  let name := g.memberName parent m
  let t := g.target m
  let backLinkType :=
    if g.arena.isTemplate parent then t.backLinkType
    else t.actor ++ g.arena.relativePath parent ++ ".BackLink<TSource>"
  [({ modifiers := .ofList [.new], typeName := backLinkType, name := name } : Decl.Property),
    (Decl.Property.explicit (g.memberType parent m false) (g.arena.fullPath parent) name name)]

/-- The properties of the parent, over back links. -/
def redeclaredMembers (g : LinkGraph) (parent : NodeId) : List Member :=
  match g.arena.kind parent with
  | .extension _ =>
    match g.extensionState? parent with
    | some s => (ownProperties s).flatMap (g.redeclaredExtensionProperty parent)
    | none => []
  | .hierarchy _ =>
    match g.hierarchyState? parent with
    | some s => s.members.flatMap (g.redeclaredHierarchyMember parent)
    | none => []
  | _ => []

def explicitSource (interface : String) : Decl.Property :=
  .explicit "TSource" interface "Source" "Source"

def backLinkClass (g : LinkGraph) (id : NodeId) (s : BackLinkState) : TypeDecl :=
  let t := g.target id
  let core := t.coreActor ++ ".BackLink<TSource>"
  let source : Decl.Property :=
    { accessibility := .internalAccess, typeName := "TSource", name := "Source" }
  let getActor : Decl.Method :=
    { returnType := t.actor
      name := "GetActor"
      explicitInterface := some t.backLinkType
      body := .expression "this" }
  let constructors := s.implementation.constructors.decl?.toList.map
    fun (c : Decl.Constructor) =>
      (({ c with accessibility := .internalAccess } : Decl.Constructor) : Member)
  ((TypeDecl.classNamed "BackLink<TSource>").addBases [g.arena.path id, t.backLinkType, core]
    |>.addConstraint sourceConstraint
    |>.addMembers [source, explicitSource t.backLinkType, explicitSource core]
    |>.addMembers constructors
    |>.addMember getActor)

def backLinkBases (g : LinkGraph) (id parent : NodeId) (ancestors : List NodeId) :
    SortedSet String :=
  let t := g.target id
  let atActor := if (g.arena.kind parent).isActor then [t.backLinkType] else []
  let core :=
    if t.isCore then []
    else [t.coreActor ++ g.arena.relativePath id ++ ".BackLink<TSource>"]
  let inherited := (g.inheritedBackLinks id).toList ++ g.equivalents id ancestors
  SortedSet.ofList (g.arena.path id :: atActor ++ core ++ inherited.map g.arena.fullPath)

/-- `Source` itself, and one explicit `Source` for each inherited back link. -/
def sourceMembers (g : LinkGraph) (id parent : NodeId) (ancestors : List NodeId) : List Member :=
  let inherited := (g.inheritedBackLinks id).toList ++ g.equivalents id ancestors
  let atActor := if (g.arena.kind parent).isActor then [(g.target id).backLinkType] else []
  let interfaces : SortedSet String := SortedSet.ofList (inherited.map g.arena.fullPath ++ atActor)
  ({ modifiers := .ofList [.new], typeName := "TSource", name := "Source" } : Decl.Property)
    :: interfaces.toList.map fun i => (explicitSource i : Member)

def backLinkImplementation (g : LinkGraph) (id : NodeId) (s : BackLinkState) : TypeDecl :=
  { g.implementationClass id (g.implementedParentType? id) with
      accessibility := .privateAccess
      modifiers := .ofList [.sealed] }
    |>.addMembers s.implementation.propertyMembers
    |>.addMember (explicitSource (g.arena.fullPath id))
    |>.addMembers s.implementation.constructorMembers

def backLinkPart (g : LinkGraph) (id : NodeId) : Except Failure Part := do
  let visited ← g.expectState id
  match g.backLinkState? id with
  | none => throw (.emission (Arena.idText id ++ " is not a back link"))
  | some s =>
    let parent ← g.backLinkParent id
    if s.isClass then return .closed (g.backLinkClass id s)
    let name := if s.isCovariant then "BackLink<out TSource>" else "BackLink<TSource>"
    let source :=
      if g.redefinesSource id then g.sourceMembers id parent visited.ancestors else []
    let decl := ((TypeDecl.interfaceNamed name).addConstraint sourceConstraint
      |>.markNew (!(g.equivalents id visited.ancestors).isEmpty)
      |>.addMembers source
      |>.addMembers (g.redeclaredMembers parent)
      |>.addBases (g.backLinkBases id parent visited.ancestors).toList)
    return g.withImplementation id decl (g.backLinkImplementation id s)
      (g.createMethod id s.implementation [.static])

end ActorLinks.LinkGraph
