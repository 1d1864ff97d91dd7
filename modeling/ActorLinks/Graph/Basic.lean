import ActorLinks.Arena.Planting
import ActorLinks.Composition
import ActorLinks.Failure
import ActorLinks.Graph.State

/-! # Link graphs

All actor trees of one run with the symbols they were made from and the states derived so far.
Actors are related through the compilation: supertypes that are in the graph, those among them
that share the entity, and the nearest base class in the graph.
-/
namespace ActorLinks

structure LinkGraph where
  compilation : Compilation
  schematic : Schematic
  arena : Arena := .empty
  /-- The roots by actor name. -/
  actors : Dict NodeId := ∅
  states : Array (Option NodeState) := #[]

namespace LinkGraph

/-- Of two targets with one actor the first is kept. -/
def addTarget (g : LinkGraph) (t : Target) : LinkGraph :=
  if g.actors.contains t.actor then g
  else
    { g with
      arena := g.arena.addActor g.compilation g.schematic t
      actors := g.actors.insert t.actor g.arena.size }

def ofTargets (c : Compilation) (s : Schematic) (targets : List Target) : LinkGraph :=
  let g := targets.foldl addTarget { compilation := c, schematic := s }
  { g with states := Array.replicate g.arena.size none }

section
variable (g : LinkGraph)

def roots : List NodeId := g.actors.values

def actor? (name : String) : Option NodeId := g.actors.get? name

def target (id : NodeId) : Target := g.arena.target id

def state? (id : NodeId) : Option NodeState := g.states[id]?.join

def withState (id : NodeId) (s : NodeState) : LinkGraph :=
  { g with states := g.states.setIfInBounds id (some s) }

/-- Whether every node has a state; an empty graph is not visited. -/
def isVisited : Bool := !g.states.isEmpty && g.states.all Option.isSome

def detail? (id : NodeId) : Option NodeDetail := (g.state? id).map (·.detail)

def actorState? (id : NodeId) : Option ActorState :=
  match g.detail? id with
  | some (.actor s) => some s
  | _ => none

def linkTypeState? (id : NodeId) : Option LinkTypeState :=
  match g.detail? id with
  | some (.linkType s) => some s
  | _ => none

def extensionState? (id : NodeId) : Option ExtensionState :=
  match g.detail? id with
  | some (.extension s) => some s
  | _ => none

def hierarchyState? (id : NodeId) : Option HierarchyState :=
  match g.detail? id with
  | some (.hierarchy s) => some s
  | _ => none

def backLinkState? (id : NodeId) : Option BackLinkState :=
  match g.detail? id with
  | some (.backLink s) => some s
  | _ => none

def expectState (id : NodeId) : Except Failure NodeState :=
  match g.state? id with
  | some s => .ok s
  | none => .error (.emission
      (g.arena.describe id ++ " " ++ Arena.idText id ++ " has not been visited"))

/-- An actor is its own root. -/
def actorRoot? (id : NodeId) : Option NodeId :=
  if (g.arena.kind id).isActor then some id else g.arena.rootActor? id

def actorSymbol? (id : NodeId) : Option TypeSymbol :=
  (g.actorRoot? id).bind fun root =>
    match g.arena.kind root with
    | .actor s => some s
    | _ => none

/-- The first actor, by name, that stands for the given core actor. -/
def actorByCore? (coreActor : String) : Option NodeId :=
  g.roots.find? fun id => (g.target id).coreActor == coreActor

def supertypeCount (id : NodeId) : Nat :=
  (g.compilation.supertypes (g.target id).actor).size

/-- The more supertypes, the nearer; ties go by id. -/
def isNearer (x y : Nat × NodeId) : Bool := y.1 < x.1 || (x.1 == y.1 && x.2 ≤ y.2)

/-- The graph actors among an actor's supertypes, nearest first. -/
def supertypeActors (id : NodeId) : List NodeId :=
  let found := (g.compilation.supertypes (g.target id).actor).toList.filterMap g.actor?
  ((found.map fun n => (g.supertypeCount n, n)).mergeSort isNearer).map Prod.snd

/-- The supertype actors whose entity is the actor's own or one of its supertypes. -/
def ancestors (id : NodeId) : List NodeId :=
  let entity := (g.target id).entity
  (g.supertypeActors id).filter fun a =>
    (g.target a).entity == entity || g.compilation.implements entity (g.target a).entity

def ancestorsOfRoot (id : NodeId) : List NodeId :=
  match g.actorRoot? id with
  | some root => g.ancestors root
  | none => []

/-- The nearest graph actor along the base classes. -/
def baseTarget? (id : NodeId) : Option NodeId :=
  match g.actorSymbol? id with
  | some s => (g.compilation.chain (·.baseType) s.baseType).findSome? g.actor?
  | none => none

/-- Whether the class of another graph actor derives directly from this one. -/
def hasChildTarget (id : NodeId) : Bool :=
  g.roots.any fun n =>
    n != id && ((g.actorSymbol? n).bind (·.baseType)) == some (g.target id).actor

/-- The constructors of the nearest parent with an implementation class. -/
def parentConstructors (id : NodeId) : ConstructorChain :=
  match (g.arena.implementedParent? id).bind g.detail? with
  | some d => d.implementation.constructors
  | none => []

/-- Whether some ancestor has a node at the same place. -/
def redeclares (id : NodeId) (ancestors : List NodeId) : Bool :=
  ancestors.any fun a => (g.arena.equivalent? id a).isSome

def isBeforeInVisit (x y : Nat × String × NodeId) : Bool :=
  x.1 < y.1 || (x.1 == y.1 && (x.2.1 < y.2.1 || (x.2.1 == y.2.1 && x.2.2 ≤ y.2.2)))

/-- The roots, each after the graph actors it implements. -/
def visitOrder : List NodeId :=
  ((g.actors.entries.map fun e => ((g.compilation.supertypes e.1).size, e.1, e.2)).mergeSort
    isBeforeInVisit).map (·.2.2)

end

end LinkGraph

end ActorLinks
