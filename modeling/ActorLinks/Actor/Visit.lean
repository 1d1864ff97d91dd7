import ActorLinks.Actor.Relationship

/-! # Visiting actors -/
namespace ActorLinks.LinkGraph

def linkBaseName : String := "__LinkBase"

/-- The properties of the class that all link classes of an actor derive from. -/
def rootProperties (t : Target) (modelHasId hasBase hasChild : Bool) : List ImplProperty :=
  let client : ImplProperty :=
    { name := "Client", typeName := t.clientType, accessibility := .publicAccess }
  let actorProvider : ImplProperty := { name := "ActorProvider", typeName := t.actorProvider }
  let entityProvider : ImplProperty := { name := "EntityProvider", typeName := t.entityProvider }
  [client, actorProvider.overridable hasBase hasChild]
    ++ if modelHasId then [] else [entityProvider.overridable hasBase hasChild]

def baseConstructors (g : LinkGraph) (base : Option NodeId) : ConstructorChain :=
  match base.bind g.actorState? with
  | some s => s.implementation.constructors
  | none => []

def visitActor (g : LinkGraph) (id : NodeId) (ancestors : List NodeId) : ActorState :=
  let t := g.target id
  let name := g.derivedRelationshipName id
  let base := g.baseTarget? id
  let hasChild := g.hasChildTarget id
  let modelHasId := g.compilation.implementsSimple t.model "IEntityModel"
  let related := g.additionalRelationships id
  { relationshipName := name
    baseActor := base
    hasChildTarget := hasChild
    modelHasId := modelHasId
    redefinesRootMembers := !t.isCore || !ancestors.isEmpty
    additionalRelationships := related
    canonicalRelationshipRedefined :=
      related.contains name || ancestors.any fun a => g.relationshipName a == name
    implementation :=
      if t.isCore then {}
      else Implementation.ofProperties linkBaseName
        (rootProperties t modelHasId base.isSome hasChild) (g.baseConstructors base) }

end ActorLinks.LinkGraph
