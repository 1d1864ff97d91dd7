import ActorLinks.Graph.Basic

/-! # Visiting link types -/
namespace ActorLinks.LinkGraph

def rootActorState? (g : LinkGraph) (id : NodeId) : Option ActorState :=
  (g.arena.rootActor? id).bind g.actorState?

/-- The link type at the same place below the base actor, if it is implemented. -/
def implementationBase? (g : LinkGraph) (id : NodeId) : Option NodeId := do
  let base ← ((← g.rootActorState? id).baseActor)
  let n ← g.arena.equivalent? id base
  if (g.arena.kind n).isLinkType && g.arena.isImplemented n then some n else none

def rootConstructors (g : LinkGraph) (id : NodeId) : ConstructorChain :=
  match g.rootActorState? id with
  | some s => s.implementation.constructors
  | none => []

def visitLinkType (g : LinkGraph) (id : NodeId) (ancestors : List NodeId) : LinkTypeState :=
  let isCore := g.arena.isCore id
  { implementationBase := if isCore then none else g.implementationBase? id
    redefinesLinkMembers := !isCore || !ancestors.isEmpty
    shouldDeclareNew := g.redeclares id ancestors
    implementation :=
      if g.arena.isImplemented id then
        Implementation.ofProperties (g.arena.className id) [] (g.rootConstructors id)
      else {} }

end ActorLinks.LinkGraph
