import ActorLinks.Actor.Visit
import ActorLinks.Decl.Type

/-! # The link interface of an actor

`Link` is what every link type of an actor derives from; in the rest assembly a class
`__LinkBase` implements it and is the root of the actor's implementation classes.
-/
namespace ActorLinks

namespace Target
variable (t : Target)

def getActor : Decl.Method where
  returnType := t.actor
  name := "GetActor"
  parameters := [.of t.id "id"]

def createEntity : Decl.Method where
  returnType := t.entity
  name := "CreateEntity"
  parameters := [.of t.model "model"]

def coreGetActor : Decl.Method := { t.getActor with returnType := t.coreActor }

def coreCreateEntity : Decl.Method := { t.createEntity with returnType := t.coreEntity }

end Target

namespace Decl.Method

def implementing (m : Method) (interface expression : String) : Method :=
  { m with explicitInterface := some interface, body := .expression expression }

def internal (m : Method) (modifier : Modifier) (body : MethodBody) : Method :=
  { m with accessibility := .internalAccess, modifiers := .ofList [modifier], body := body }

end Decl.Method

namespace LinkGraph

/-- The link members that an actor declares anew. -/
def ownLinkMembers (t : Target) (redefines : Bool) : List Member :=
  match t.assembly with
  | .rest => [t.getActor.internal .new (.expression "Provider.GetActor(id)"),
      t.createEntity.internal .new .declaration]
  | .core =>
    if redefines then [t.getActor.internal .new .declaration,
      t.createEntity.internal .new .declaration]
    else []
  | .gateway => []

def providerMembers (t : Target) : List Member :=
  ([t.getActor.implementing t.actorProvider "GetActor(id)",
    t.createEntity.implementing t.entityProvider "CreateEntity(model)"] : List Member)
  ++ if t.isCore then []
    else [(t.coreGetActor.implementing t.coreActorProvider "GetActor(id)" : Member),
      (t.coreCreateEntity.implementing t.coreEntityProvider "CreateEntity(model)" : Member)]

/-- An ancestor that redefines its members is implemented through its link interface, any other
through its providers. -/
def ancestorLinkMembers (g : LinkGraph) (ancestor : NodeId) : List Member :=
  let t := g.target ancestor
  let redefines := ((g.actorState? ancestor).map (·.redefinesRootMembers)).getD false
  let link := t.actor ++ ".Link"
  [t.getActor.implementing (if redefines then link else t.actorProvider) "GetActor(id)",
    t.createEntity.implementing (if redefines then link else t.entityProvider)
      "CreateEntity(model)"]

def linkBases (g : LinkGraph) (t : Target) (ancestors : List NodeId) : List String :=
  let core := if t.isCore then [] else [t.coreLink]
  let rest := if t.assembly = .rest then [t.restLinkType, t.coreActor ++ ".Link"] else []
  t.link :: core ++ rest ++ ancestors.map fun a => (g.target a).actor ++ ".Link"

def linkInterface (g : LinkGraph) (id : NodeId) (s : ActorState) (ancestors : List NodeId) :
    TypeDecl :=
  let t := g.target id
  let providers :=
    if s.redefinesRootMembers || !ancestors.isEmpty then providerMembers t else []
  ((TypeDecl.interfaceNamed "Link").markNew (!ancestors.isEmpty)
    |>.addBases (g.linkBases t ancestors)
    |>.addMembers (ownLinkMembers t s.redefinesRootMembers)
    |>.addMembers providers
    |>.addMembers (ancestors.flatMap g.ancestorLinkMembers))

def linkBase (g : LinkGraph) (id : NodeId) (s : ActorState) : TypeDecl :=
  let t := g.target id
  let link := t.actor ++ ".Link"
  let inheritance := if s.baseActor.isSome then Modifier.override else .virtual
  let factory :=
    if s.modelHasId then "GetActor(model.Id).CreateEntity(model)"
    else "EntityProvider.CreateEntity(model)"
  let own := { TypeDecl.classNamed linkBaseName with
    accessibility := .privateProtectedAccess
    modifiers := .ofList [.abstract] }
  let based := (own.markNew s.baseActor.isSome).addBase link
  let based := match s.baseActor with
    | some base => based.insertBase 0 ((g.target base).actor ++ "." ++ linkBaseName)
    | none => based
  based.addMembers s.implementation.propertyMembers
    |>.addMembers
      [t.getActor.internal inheritance (.expression "ActorProvider.GetActor(id)"),
        t.createEntity.internal inheritance (.expression factory),
        t.getActor.implementing link "GetActor(id)",
        t.createEntity.implementing link "CreateEntity(model)",
        Decl.Property.explicit t.actorProvider t.restLinkType "Provider" "ActorProvider"]
    |>.addMembers s.implementation.constructorMembers

end LinkGraph

end ActorLinks
