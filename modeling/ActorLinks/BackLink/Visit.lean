import ActorLinks.Graph.Basic

/-! # Visiting back links -/
namespace ActorLinks.LinkGraph

def backLinkParent (g : LinkGraph) (id : NodeId) : Except Failure NodeId :=
  match g.arena.parent? id with
  | some p => .ok p
  | none => .error (.emission ("back link " ++ Arena.idText id ++ " has no parent"))

def hasBackLinkMirror (g : LinkGraph) (id : NodeId) : Bool :=
  match g.extensionState? id with
  | some s => s.properties.any (·.isBackLinkMirror)
  | none => false

/-- A back link directly under an actor that is not core is a class. -/
def visitBackLink (g : LinkGraph) (id : NodeId) : Except Failure BackLinkState :=
  (g.backLinkParent id).map fun parent =>
    let isCore := g.arena.isCore id
    let isClass := !isCore && (g.arena.kind parent).isActor
    { isClass := isClass
      isCovariant := isCore || !g.hasBackLinkMirror parent
      implementation :=
        if g.arena.isImplemented id then
          Implementation.ofProperties (if isClass then "BackLink" else g.arena.className id)
            [{ name := "Source", typeName := "TSource" }] (g.parentConstructors id)
        else {} }

end ActorLinks.LinkGraph
