import ActorLinks.Actor.Visit
import ActorLinks.BackLink.Visit
import ActorLinks.Extension.Property
import ActorLinks.Hierarchy.Visit
import ActorLinks.LinkType.Visit

/-! # Visiting a graph

Actors are visited after the graph actors they implement, and each tree from the root down. The
state of a node depends only on the graph and on the states before it; a failure keeps those.
-/
namespace ActorLinks.LinkGraph

/-- The state of a node as a node of the given category. -/
def visitAs (g : LinkGraph) (category : Category) (id : NodeId) : Except Failure NodeDetail :=
  let ancestors := g.ancestorsOfRoot id
  match category with
  | .actor => .ok (.actor (g.visitActor id ancestors))
  | .linkType => .ok (.linkType (g.visitLinkType id ancestors))
  | .extension => (g.visitExtension id).map .extension
  | .hierarchy => (g.visitHierarchy id).map .hierarchy
  | .backLink => (g.visitBackLink id).map .backLink

def implicitComposition (g : LinkGraph) (id : NodeId) : SortedSet NodeId :=
  if (g.arena.kind id).isActor then ∅ else g.arena.composition id true none

/-- What the visited parent composes. -/
def parentComposition (g : LinkGraph) (id : NodeId) : SortedSet NodeId :=
  match (g.arena.parent? id).bind g.state? with
  | some s => s.implicitComposition
  | none => ∅

def visitNode (g : LinkGraph) (id : NodeId) : Except Failure NodeState :=
  (g.visitAs (g.arena.category id) id).map fun detail =>
    let implicit := g.implicitComposition id
    { ancestors := g.ancestorsOfRoot id
      implicitComposition := implicit
      composition := implicit.diff (g.parentComposition id)
      detail := detail }

def visitNodes (g : LinkGraph) : List NodeId → LinkGraph × Option Failure
  | [] => (g, none)
  | id :: ids =>
    match g.visitNode id with
    | .ok s => (g.withState id s).visitNodes ids
    | .error e => (g, some e)

/-- The graph with the new states, and the failure that ended the visit early. -/
def visit (g : LinkGraph) : LinkGraph × Option Failure :=
  g.visitNodes (g.visitOrder.flatMap g.arena.descendants)

end ActorLinks.LinkGraph
