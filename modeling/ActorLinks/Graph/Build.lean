import ActorLinks.Actor.Declaration
import ActorLinks.Graph.Visit

/-! # Building a graph

Every actor gives one declaration, in the order of actor names. Only a visited graph can be
built; one without nodes gives nothing.
-/
namespace ActorLinks.LinkGraph

def build (g : LinkGraph) (treeView : Bool) : Except Failure (List (String × TypeDecl)) :=
  if !g.isVisited && g.arena.size ≠ 0 then
    .error (.emission "link graph has not been visited")
  else g.actors.entries.mapM fun e => (g.buildActor e.2 treeView).map fun d => (e.1, d)

def buildNamed (g : LinkGraph) (actor : String) (treeView : Bool) : Except Failure TypeDecl :=
  match g.actor? actor with
  | none => .error (.notFound ("actor " ++ actor))
  | some id =>
    if (g.state? id).isNone then .error (.emission (actor ++ " has not been visited"))
    else g.buildActor id treeView

end ActorLinks.LinkGraph
