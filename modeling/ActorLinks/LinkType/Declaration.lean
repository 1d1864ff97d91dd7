import ActorLinks.Graph.Part

/-! # Declarations of link types

A link type redeclares its operations over the actor's own types where it redefines them, and
forwards to them those of the link type interfaces and of the ancestors' link types.
-/
namespace ActorLinks.LinkGraph

/-- An interface whose operations are forwarded, with the types it is declared over. -/
structure Forwarded where
  interface : String
  actor : String
  entity : String

def forwardedOwn (t : Target) (typeName : String) : List Forwarded :=
  ⟨t.linkType ++ "." ++ typeName, t.actor, t.entity⟩
    :: if t.isCore then [] else [⟨t.coreLinkType ++ "." ++ typeName, t.coreActor, t.coreEntity⟩]

/-- The type at the node's place below another actor, if that has a node there. -/
def ancestorPath (g : LinkGraph) (id ancestor : NodeId) : String :=
  (g.target ancestor).actor ++ g.arena.relativePath id ++ "." ++ g.arena.typeName id

def equivalentAncestors (g : LinkGraph) (id : NodeId) (ancestors : List NodeId) : List NodeId :=
  ancestors.filter fun a => (g.arena.equivalent? id a).isSome

def forwarded (g : LinkGraph) (id : NodeId) (e : Schematic.Entry) (ancestors : List NodeId) :
    List Forwarded :=
  forwardedOwn (g.target id) e.typeName
    ++ (g.equivalentAncestors id ancestors).map fun a =>
      ⟨g.ancestorPath id a, (g.target a).actor, (g.target a).entity⟩

def indexableMembers (g : LinkGraph) (id : NodeId) (redefines : Bool) (fs : List Forwarded) :
    List Member :=
  let t := g.target id
  let idParameter := Decl.Parameter.of t.id "id"
  let byProvider := s!"(this as {t.actorProvider}).GetActor(id)"
  let byIdentity : Decl.Indexer :=
    { accessibility := .internalAccess
      modifiers := .ofList (if redefines then [.new] else [])
      typeName := t.actor
      parameters := [Decl.Parameter.of t.identifiable "identity"]
      expression := "identity.Actor ?? GetActor(identity.Id)" }
  let coreByIdentity : Decl.Indexer :=
    { typeName := t.coreActor
      explicitInterface :=
        some (t.coreActor ++ g.arena.relativePath id ++ "." ++ g.arena.typeName id)
      parameters := [Decl.Parameter.of t.coreIdentifiable "identity"]
      expression := "identity.Actor ?? GetActor(identity.Id)" }
  let byId : Decl.Indexer :=
    { modifiers := .ofList [.new]
      typeName := t.actor
      parameters := [idParameter]
      expression := byProvider }
  let specifically : Decl.Method :=
    { modifiers := .ofList [.new]
      returnType := t.actor
      name := "Specifically"
      parameters := [idParameter]
      body := .expression byProvider }
  let forward (f : Forwarded) : List Member :=
    let indexer : Decl.Indexer :=
      { typeName := f.actor
        explicitInterface := some f.interface
        parameters := [idParameter]
        expression := "this[id]" }
    let method : Decl.Method :=
      { returnType := f.actor
        name := "Specifically"
        explicitInterface := some f.interface
        parameters := [idParameter]
        body := .expression "Specifically(id)" }
    [indexer, method]
  let identities : List Member :=
    byIdentity :: if t.isCore then [] else [(coreByIdentity : Member)]
  identities ++ if redefines then ([byId, specifically] : List Member) ++ fs.flatMap forward else []

def enumerableMembers (t : Target) (fs : List Forwarded) : List Member :=
  let allAsync (entity : String) : Decl.Method :=
    { returnType := s!"ITask<IReadOnlyCollection<{entity}>>"
      name := "AllAsync" }
  let own : Decl.Method :=
    { allAsync t.entity with
      modifiers := .ofList [.new]
      parameters := [Decl.Parameter.withDefault "RequestOptions?" "options" "null",
        Decl.Parameter.withDefault "CancellationToken" "token" "default"] }
  let forward (f : Forwarded) : Member :=
    ({ allAsync f.entity with
      explicitInterface := some f.interface
      parameters := [Decl.Parameter.of "RequestOptions?" "options",
        Decl.Parameter.of "CancellationToken" "token"]
      body := .expression "AllAsync(options, token)" } : Decl.Method)
  own :: fs.map forward

def definedMembers (t : Target) (fs : List Forwarded) : List Member :=
  let ids := s!"IReadOnlyCollection<{t.id}>"
  let own : Decl.Property :=
    { modifiers := .ofList [.new]
      typeName := ids
      name := "Ids" }
  own :: fs.map fun f => (Decl.Property.explicit ids f.interface "Ids" "Ids" : Member)

/-- The first two type parameters are the item and the page parameters. -/
def pagedMembers (e : Schematic.Entry) (fs : List Forwarded) : List Member :=
  let item := e.typeParameters[0]?.getD "TPaged"
  let page := e.typeParameters[1]?.getD "TPageParams"
  let pagedAsync : Decl.Method :=
    { returnType := s!"IAsyncPaged<{item}>"
      name := "PagedAsync" }
  let own : Decl.Method :=
    { pagedAsync with
      modifiers := .ofList [.new]
      parameters := [Decl.Parameter.withDefault (page ++ "?") "args" "default",
        Decl.Parameter.withDefault "RequestOptions?" "options" "null"] }
  let forward (f : Forwarded) : Member :=
    ({ pagedAsync with
      explicitInterface := some f.interface
      parameters := [Decl.Parameter.of (page ++ "?") "args",
        Decl.Parameter.of "RequestOptions?" "options"]
      body := .expression "PagedAsync(args, options)" } : Decl.Method)
  own :: fs.map forward

def linkTypeMembers (g : LinkGraph) (id : NodeId) (k : LinkKind) (e : Schematic.Entry)
    (redefines : Bool) (ancestors : List NodeId) : List Member :=
  let fs := g.forwarded id e ancestors
  match k with
  | .indexable => g.indexableMembers id redefines fs
  | .enumerable => if redefines then enumerableMembers (g.target id) fs else []
  | .defined => if redefines then definedMembers (g.target id) fs else []
  | .paged => if redefines then pagedMembers e fs else []

def linkTypeBases (g : LinkGraph) (id : NodeId) (s : NodeState) : SortedSet String :=
  let t := g.target id
  let place := g.arena.relativePath id ++ "." ++ g.arena.typeName id
  let own :=
    if g.arena.isTemplate id then [t.actor ++ ".Link", t.linkType ++ place]
    else (s.composition.toList.filter fun n => (g.arena.kind n).isLinkType).map g.arena.fullPath
  let core := if t.isCore then [] else (t.coreActor ++ place) :: t.assemblyLinkType.toList
  let inherited := (g.equivalentAncestors id s.ancestors).map (g.ancestorPath id)
  SortedSet.ofList (own ++ core ++ inherited)

/-- The class goes below that of the base actor's link type, or else below the actor's root
class. -/
def linkTypeFirstBase (g : LinkGraph) (id : NodeId) (s : LinkTypeState) : String :=
  match s.implementationBase with
  | some base => (g.target base).actor ++ "." ++ g.arena.implementationType base
  | none =>
    let root := (g.arena.rootActor? id).getD id
    (g.target root).actor ++ ".__LinkBase"

def linkTypePart (g : LinkGraph) (id : NodeId) : Except Failure Part := do
  let notALinkType := Failure.emission (Arena.idText id ++ " is not a link type")
  let visited ← g.expectState id
  match g.linkTypeState? id, g.arena.kind id with
  | some s, .linkType k e =>
    let t := g.target id
    if !t.isCore && t.assemblyLinkType.isNone then return .nothing
    let decl := ((TypeDecl.interfaceNamed (g.arena.typeName id)).markNew s.shouldDeclareNew
      |>.addBases (g.linkTypeBases id visited).toList
      |>.addConstraints e.constraintClauses
      |>.addMembers (g.linkTypeMembers id k e s.redefinesLinkMembers visited.ancestors))
    let implementing := (g.implementationClass id (g.linkTypeFirstBase id s)
      |>.addMembers s.implementation.propertyMembers
      |>.addMembers s.implementation.constructorMembers)
    return g.withImplementation id decl implementing
      (g.createMethod id s.implementation [.static, .new])
  | _, _ => throw notALinkType

end ActorLinks.LinkGraph
