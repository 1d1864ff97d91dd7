import ActorLinks.Arena.Basic
import ActorLinks.Compilation

/-! # Link trees

The tree of an actor is first described by its kinds alone and then planted in the arena, each
node before what is below it. Every position carries the same trimmings: a back link, the
extensions of the core actor in every order, and a hierarchy if the core actor is the root of
one.
-/
namespace ActorLinks

inductive LinkTree where
  | node (kind : NodeKind) (branches : List LinkTree)

/-- Every item with the others, in order. -/
def picks {α : Type} : List α → List (α × List α)
  | [] => []
  | x :: xs => (x, xs) :: (picks xs).map fun p => (p.1, x :: p.2)

theorem length_of_mem_picks {α : Type} {xs : List α} {p : α × List α} (h : p ∈ picks xs) :
    p.2.length + 1 = xs.length := by
  induction xs generalizing p with
  | nil => simp [picks] at h
  | cons x xs ih =>
    rcases List.mem_cons.mp h with rfl | h
    · rfl
    · obtain ⟨q, hq, rfl⟩ := List.mem_map.mp h
      simp [← ih hq]

namespace LinkTree

def kind : LinkTree → NodeKind
  | node k _ => k

def branches : LinkTree → List LinkTree
  | node _ bs => bs

def backLink : LinkTree := node .backLink []

/-- One tree per extension; below each, the same for the others. -/
def extensions (symbols : List TypeSymbol) : List LinkTree :=
  (picks symbols).attach.map fun p =>
    node (.extension p.1.1) (backLink :: extensions p.1.2)
  termination_by symbols.length
  decreasing_by have := length_of_mem_picks p.2; omega

/-- The extensions of a target: marked types nested in its core actor, in name order. -/
def extensionSymbols (c : Compilation) (t : Target) : List TypeSymbol :=
  (c.nestedTypes t.coreActor).filter fun s => s.carries .linkExtension

def extensionsOf (c : Compilation) (t : Target) : List LinkTree :=
  extensions (extensionSymbols c t)

def hierarchyMarker? (c : Compilation) (t : Target) : Option Attribute :=
  (c.type? t.coreActor).bind fun s => s.attribute? .linkHierarchicalRoot

def hierarchyOf? (c : Compilation) (t : Target) : Option LinkTree :=
  (hierarchyMarker? c t).map fun marker => node (.hierarchy marker) (backLink :: extensionsOf c t)

def trimmings (c : Compilation) (t : Target) : List LinkTree :=
  backLink :: extensionsOf c t ++ (hierarchyOf? c t).toList

mutual

/-- Nothing for an entry of no known kind, or of a kind that `within` does not accept. -/
def entryTree? (extras : List LinkTree) (within : Option LinkKind) :
    Schematic.Entry → Option LinkTree
  | ⟨symbol, parameters, clauses, children⟩ =>
    match LinkKind.ofSymbol? symbol with
    | none => none
    | some k =>
      if within.all fun w => w.accepts.contains k then
        some (node (.linkType k ⟨symbol, parameters, clauses, children⟩)
          (extras ++ entryTrees extras (some k) children))
      else none

def entryTrees (extras : List LinkTree) (within : Option LinkKind) :
    List Schematic.Entry → List LinkTree
  | [] => []
  | e :: es => (entryTree? extras within e).toList ++ entryTrees extras within es

end

/-- An actor that is not declared is taken for an interface in the core assembly, and for a
class elsewhere. -/
def actorSymbol (c : Compilation) (t : Target) : TypeSymbol :=
  (c.type? t.actor).getD
    { name := t.actor, kind := if t.isCore then .interface else .classType }

def ofTarget (c : Compilation) (s : Schematic) (t : Target) : LinkTree :=
  node (.actor (actorSymbol c t)) (trimmings c t ++ entryTrees (trimmings c t) none s.root.children)

end LinkTree

namespace Arena

mutual

def plant (target : Target) (parent : Option NodeId) (a : Arena) : LinkTree → Arena
  | .node kind branches => plantAll target a.size (a.alloc parent target kind) branches

def plantAll (target : Target) (parent : NodeId) (a : Arena) : List LinkTree → Arena
  | [] => a
  | t :: ts => plantAll target parent (plant target (some parent) a t) ts

end

/-- The kind of link type that a node is. -/
def linkKind? (a : Arena) (id : NodeId) : Option LinkKind :=
  match a.kind id with
  | .linkType k _ => some k
  | _ => none

def addExtensions (a : Arena) (c : Compilation) (t : Target) (parent : NodeId) : Arena :=
  a.plantAll t parent (LinkTree.extensionsOf c t)

def addHierarchy (a : Arena) (c : Compilation) (t : Target) (parent : NodeId) : Arena :=
  a.plantAll t parent (LinkTree.hierarchyOf? c t).toList

/-- The arena with the entry below `parent`, or unchanged if it does not fit there. -/
def addLinkType (a : Arena) (c : Compilation) (t : Target) (parent : NodeId)
    (e : Schematic.Entry) : Arena :=
  a.plantAll t parent (LinkTree.entryTree? (LinkTree.trimmings c t) (a.linkKind? parent) e).toList

def addActor (a : Arena) (c : Compilation) (s : Schematic) (t : Target) : Arena :=
  a.plant t none (LinkTree.ofTarget c s t)

end Arena

end ActorLinks
