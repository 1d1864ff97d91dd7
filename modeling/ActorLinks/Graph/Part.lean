import ActorLinks.Graph.Basic

/-! # What a node contributes

A node contributes a type declaration, which takes in those of its children, and classes that
are hoisted to the level of the actor. The implementation class derives from the node's own
type, with a class put before it, and a static method creates it.
-/
namespace ActorLinks

inductive Part where
  /-- Neither the node nor anything below it is declared. -/
  | nothing
  /-- A declaration that does not take in the children. -/
  | closed (decl : TypeDecl)
  | spread (decl : TypeDecl) (hoisted : List TypeDecl)

/-- The declaration of a node and the classes hoisted out of it and out of what is below it. -/
structure Built where
  decl : Option TypeDecl
  hoisted : List TypeDecl
  deriving DecidableEq

namespace Built

/-- The declarations of several nodes, as members. -/
def members (bs : List Built) : List Member := bs.filterMap fun b => b.decl.map Member.type

def classes (bs : List Built) : List TypeDecl := bs.flatMap (·.hoisted)

end Built

namespace LinkGraph

def implementationClass (g : LinkGraph) (id : NodeId) (first : Option String) : TypeDecl :=
  let own := ({ TypeDecl.classNamed (g.arena.implementationType id) with
    accessibility := .privateProtectedAccess } : TypeDecl).addBase (g.arena.fullPath id)
  (match first with
    | some base => own.insertBase 0 base
    | none => own).addConstraints (g.arena.generics id).2

/-- The class of the nearest implemented parent, as a base. -/
def implementedParentType? (g : LinkGraph) (id : NodeId) : Option String :=
  (g.arena.implementedParent? id).map fun p =>
    (g.target id).actor ++ "." ++ g.arena.implementationType p

def createMethod (g : LinkGraph) (id : NodeId) (i : Implementation) (modifiers : List Modifier) :
    Decl.Method where
  accessibility := .internalAccess
  modifiers := .ofList modifiers
  returnType := g.arena.fullPath id
  name := "Create"
  parameters := i.parameters
  body := .expression ("new " ++ (g.target id).actor ++ "." ++ g.arena.implementationType id
    ++ "(" ++ ", ".intercalate i.arguments ++ ")")

/-- Adds the creating method and hoists the class, if the node is implemented below an actor. -/
def withImplementation (g : LinkGraph) (id : NodeId) (decl : TypeDecl) (implementing : TypeDecl)
    (create : Decl.Method) : Part :=
  if g.arena.isImplemented id && (g.arena.rootActor? id).isSome then
    .spread (decl.addMember create) [implementing]
  else .spread decl []

end LinkGraph

end ActorLinks
