import ActorLinks.Actor.Link
import ActorLinks.Actor.Provider
import ActorLinks.BackLink.Declaration
import ActorLinks.Extension.Declaration
import ActorLinks.Hierarchy.Declaration
import ActorLinks.LinkType.Declaration

/-! # Declarations of actors

The declaration of an actor is partial and takes in everything below it: the link interface, the
root class or the relationships, the declarations of the tree, and the hoisted classes.
-/
namespace ActorLinks.LinkGraph

def relationshipInterface (t : Target) (name : String) (isNew : Bool) : TypeDecl :=
  let own : Decl.Property :=
    { accessibility := .internalAccess, typeName := t.actor, name := name }
  (TypeDecl.interfaceNamed "Relationship").markNew isNew
    |>.addBase t.relationship
    |>.addMembers [Decl.Property.explicit t.actor t.relationship "RelationshipActor" name, own]

def inheritedRelationship (g : LinkGraph) (name : String) (ancestor : NodeId) : Member :=
  let actor := (g.target ancestor).actor
  Decl.Property.explicit actor (actor ++ ".Relationship") (g.relationshipName ancestor) name

/-- Actors with one entity relate through one id, that of the first of them. -/
def sharedEntities (g : LinkGraph) (t : Target) (nodes : List NodeId) : List Member :=
  let byEntity := nodes.foldl (fun d n => d.append (g.target n).entity n) (∅ : Dict (List NodeId))
  byEntity.entries.filterMap fun e =>
    match e.2 with
    | first :: _ :: _ =>
      some (Decl.Property.explicit t.id s!"Discord.IRelation<{t.id}, {e.1}>" "RelationshipId"
        (g.relationshipName first ++ ".Id"))
    | _ => none

def redefinedRelationship (t : Target) (name : String) : List Member :=
  let own : Decl.Property :=
    { accessibility := .internalAccess
      modifiers := .ofList [.new]
      typeName := t.actor
      name := name }
  [own, Decl.Property.explicit t.actor (t.actor ++ ".Relationship") name name]

/-- The related actors with their names, each actor type once. -/
def relatedActors (g : LinkGraph) (s : ActorState) : List (String × NodeId) :=
  let all := s.additionalRelationships.entries.flatMap fun e => e.2.map fun n => (e.1, n)
  all.foldl (fun kept e =>
    if kept.any fun k => (g.target k.2).actor == (g.target e.2).actor then kept
    else kept ++ [e]) []

/-- A related actor that redefines its relationship declares it on its canonical one. -/
def relationshipOwner (g : LinkGraph) (n : NodeId) : String :=
  let redefined := ((g.actorState? n).map (·.canonicalRelationshipRedefined)).getD false
  (g.target n).actor ++ if redefined then ".CanonicalRelationship" else ".Relationship"

def relatedRelationship (g : LinkGraph) (name : String) (e : String × NodeId) : Member :=
  Decl.Property.explicit (g.target e.2).actor (g.relationshipOwner e.2) e.1 (name ++ "." ++ e.1)

def canonicalRelationship (g : LinkGraph) (id : NodeId) (s : ActorState)
    (ancestors : List NodeId) : TypeDecl :=
  let t := g.target id
  let name := s.relationshipName
  let related := g.relatedActors s
  let canonical (n : NodeId) : String := (g.target n).actor ++ ".CanonicalRelationship"
  let redefined :=
    if s.canonicalRelationshipRedefined then
      redefinedRelationship t name ++ related.map (g.relatedRelationship name)
    else []
  (TypeDecl.interfaceNamed "CanonicalRelationship").markNew (!ancestors.isEmpty)
    |>.addBases ("Relationship" :: t.canonicalRelationship :: ancestors.map canonical
      ++ related.map fun e => canonical e.2)
    |>.addMembers (ancestors.map (g.inheritedRelationship name))
    |>.addMembers (g.sharedEntities t (ancestors ++ [id]))
    |>.addMembers redefined

def relationships (g : LinkGraph) (id : NodeId) (s : ActorState) (ancestors : List NodeId) :
    List Member :=
  [relationshipInterface (g.target id) s.relationshipName (!ancestors.isEmpty),
    g.canonicalRelationship id s ancestors]

def treeComment (g : LinkGraph) (id : NodeId) (ancestors : List NodeId) : List String :=
  let t := g.target id
  ["Actor: " ++ t.actor, "Model: " ++ t.model, "Entity: " ++ t.entity, "Id: " ++ t.id,
      "Interfaces:"]
    ++ (ancestors.map fun a => "  - " ++ (g.target a).actor)
    ++ ["Nodes:"] ++ (g.arena.outline id).map ("  " ++ ·)

def containerDecl (c : Compilation) (name : String) (inner : TypeDecl) : TypeDecl :=
  let (kind, declaredName) := match c.type? name with
    | some s => (s.kind, s.declaredName)
    | none => (TypeKind.classType, Text.simpleName name)
  { accessibility := .unspecified
    modifiers := .ofList [.partialType]
    kind := kind
    name := declaredName
    members := [inner] }

/-- The declaration inside partial redeclarations of the containing types. -/
def wrapInContainers (c : Compilation) (symbol : TypeSymbol) (decl : TypeDecl) : TypeDecl :=
  (c.chain (·.containingType) symbol.containingType).foldl (fun d name => containerDecl c name d)
    decl

/-- The part of one node as a node of the given category. An actor is never below another node. -/
def partAs (g : LinkGraph) (category : Category) (id : NodeId) : Except Failure Part :=
  match category with
  | .actor =>
    .error (.emission ("actor " ++ Arena.idText id ++ " cannot be built as a child node"))
  | .linkType => g.linkTypePart id
  | .extension => g.extensionPart id
  | .hierarchy => g.hierarchyPart id
  | .backLink => g.backLinkPart id

/-- The declaration of a node below an actor, as a node of the given category, together with
everything below it. -/
def buildChildAs (g : LinkGraph) (category : Category) (id : NodeId) : Except Failure Built := do
  match ← g.partAs category id with
  | .nothing => return ⟨none, []⟩
  | .closed decl => return ⟨some decl, []⟩
  | .spread decl hoisted =>
    let below ← (g.arena.children id).attach.mapM fun c =>
      g.buildChildAs (g.arena.category c.1) c.1
    return ⟨some (decl.addMembers (Built.members below)), hoisted ++ Built.classes below⟩
  termination_by g.arena.size - id
  decreasing_by have := Arena.lt_of_mem_children c.2; omega

def buildNode (g : LinkGraph) (id : NodeId) : Except Failure Built :=
  g.buildChildAs (g.arena.category id) id

def actorDecl (g : LinkGraph) (id : NodeId) (symbol : TypeSymbol) (s : ActorState)
    (ancestors : List NodeId) (treeView : Bool) : TypeDecl :=
  let t := g.target id
  let empty : TypeDecl :=
    { leadingComments := if treeView then g.treeComment id ancestors else []
      modifiers := .ofList [.partialType]
      kind := symbol.kind
      name := symbol.declaredName }
  empty.addConstraints symbol.constraintClauses
    |>.addMember (g.linkInterface id s ancestors)
    |>.addMembers (if t.assembly = .rest then [(g.linkBase id s : Member)] else [])
    |>.addMembers (if t.isCore then g.relationships id s ancestors else g.providerFactories id s)

def buildActor (g : LinkGraph) (id : NodeId) (treeView : Bool) : Except Failure TypeDecl := do
  let visited ← g.expectState id
  match g.actorState? id with
  | none => throw (.emission (Arena.idText id ++ " is not an actor"))
  | some s =>
    match g.actorSymbol? id with
    | none => throw (.emission (Arena.idText id ++ " has no actor symbol"))
    | some symbol =>
      let below ← (g.arena.children id).mapM g.buildNode
      let decl := (g.actorDecl id symbol s visited.ancestors treeView).addMembers
        (Built.members below ++ (Built.classes below).map Member.type)
      return wrapInContainers g.compilation symbol decl

/-- The declaration of any node, as a node of the given category. An actor's takes in its hoisted
classes, so it leaves none beside it. -/
def buildAs (g : LinkGraph) (category : Category) (id : NodeId) : Except Failure Built :=
  match category with
  | .actor => (g.buildActor id false).map fun decl => ⟨some decl, []⟩
  | _ => g.buildChildAs category id

end ActorLinks.LinkGraph
