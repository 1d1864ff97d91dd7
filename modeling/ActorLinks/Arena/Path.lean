import ActorLinks.Arena.Basic

/-! # Names and paths of nodes

A node's type is reached through the types of its parents, so its path is their names from the
root down. The implementation class of a node is not nested; its name is pressed together from
parts of the path.
-/
namespace ActorLinks

namespace NodeKind

def isExtension (k : NodeKind) : Bool := k.category == .extension

def isHierarchy (k : NodeKind) : Bool := k.category == .hierarchy

end NodeKind

def sourceConstraint : String := "where TSource : class, IPathable"

namespace Arena
variable (a : Arena)

/-- The name of the type that a node declares. -/
def typeName (id : NodeId) : String :=
  match a.kind id with
  | .actor _ => (a.target id).actor
  | .linkType _ e => e.typeName
  | .extension s => Text.erase "Extension" s.simpleName
  | .hierarchy _ => "Hierarchy"
  | .backLink => "BackLink<TSource>"

/-- Whether the node has an implementation class: never in the core assembly, and below an
actor only, unless it is an actor or an extension. -/
def isImplemented (id : NodeId) : Bool :=
  !a.isCore id && match a.kind id with
    | .actor _ | .extension _ => true
    | .linkType _ _ | .hierarchy _ | .backLink => (a.rootActor? id).isSome

/-- The names of the parents that `keep` admits, root first. -/
def pathOver (keep : NodeId → Bool) (id : NodeId) : String :=
  ".".intercalate (((a.parents id).filter keep).reverse.map a.typeName)

def path (id : NodeId) : String := a.pathOver (fun _ => true) id

/-- The path down to the node itself; empty for a node without parents. -/
def fullPath (id : NodeId) : String :=
  let path := a.path id
  if path.isEmpty then path else path ++ "." ++ a.typeName id

/-- The parents that `keep` admits, without the actor, as a suffix of the actor's name. -/
def relativePathOver (keep : NodeId → Bool) (id : NodeId) : String :=
  let path := a.pathOver (fun p => !(a.kind p).isActor && keep p) id
  if path.isEmpty then path else "." ++ path

def relativePath (id : NodeId) : String := a.relativePathOver (fun _ => true) id

/-- The type parameters and constraint clauses that a node and its parents bring in, nearest
first. -/
def generics (id : NodeId) : List String × List String :=
  let parts := (id :: a.parents id).map fun n =>
    match a.kind n with
    | .linkType _ e => if e.isGeneric then (e.typeParameters, e.constraintClauses) else ([], [])
    | .backLink => (["TSource"], [sourceConstraint])
    | _ => ([], [])
  (parts.flatMap Prod.fst, parts.flatMap Prod.snd)

def withGenerics (id : NodeId) (name : String) : String :=
  withTypeParameters name (a.generics id).1

/-- The parts of a path that class names are made of. -/
def classSegments (path : List NodeId) (keep : NodeKind → Bool) : String :=
  String.join ((path.filter fun n => keep (a.kind n)).map fun n =>
    match a.kind n with
    | .linkType _ e => e.classSegment
    | _ => a.typeName n)

def className (id : NodeId) : String :=
  let above := (a.parents id).reverse
  let assembly := (a.target id).assembly.name
  match a.kind id with
  | .actor _ => "__LinkBase"
  | .linkType _ _ => s!"__{assembly}Link" ++ a.classSegments (above ++ [id]) NodeKind.isLinkType
  | .hierarchy _ =>
    s!"__{assembly}Hierarchy" ++ a.classSegments above fun k => k.isLinkType || k.isExtension
  | .extension _ =>
    s!"__{assembly}LinkExtension"
      ++ a.classSegments above (fun k => k.isLinkType || k.isHierarchy) ++ a.typeName id
  | .backLink =>
    s!"__{assembly}"
      ++ a.classSegments above (fun k => k.isLinkType || k.isExtension || k.isHierarchy)
      ++ "BackLink"

/-- The class with the generics of its path, as it is declared. -/
def implementationType (id : NodeId) : String := a.withGenerics id (a.className id)

/-- The nearest parent with an implementation class. -/
def implementedParent? (id : NodeId) : Option NodeId := (a.parents id).find? a.isImplemented

/-- Declared directly under its actor. -/
def isTemplate (id : NodeId) : Bool :=
  match a.parent? id with
  | some p => (a.kind p).isActor
  | none => false

def describe (id : NodeId) : String :=
  match a.kind id with
  | .actor _ => a.typeName id ++ " (Actor)"
  | .linkType k _ => s!"{a.typeName id} Link ({k.name})"
  | .extension s => s!"{a.typeName id} (Extension: {s.name})"
  | .hierarchy _ => "Hierarchy"
  | .backLink => "BackLink<TSource>"

end Arena

namespace Arena

/-- One line for the node and one for everything below it, two blanks further in per level. -/
def outlineAt (depth : Nat) (a : Arena) (id : NodeId) : List String :=
  (String.ofList (List.replicate (2 * depth) ' ') ++ "- " ++ a.describe id)
    :: (a.children id).attach.flatMap fun c => outlineAt (depth + 1) a c.1
  termination_by a.size - id
  decreasing_by have := lt_of_mem_children c.2; omega

theorem outlineAt_eq_cons (depth : Nat) (a : Arena) (id : NodeId) : outlineAt depth a id
    = (String.ofList (List.replicate (2 * depth) ' ') ++ "- " ++ a.describe id)
      :: (a.children id).flatMap fun c => outlineAt (depth + 1) a c := by
  rw [outlineAt, List.flatMap_subtype (g := fun c => outlineAt (depth + 1) a c) (by intros; rfl),
    List.unattach_attach]

def outline (a : Arena) (id : NodeId) : List String := outlineAt 0 a id

def idText (id : NodeId) : String := "#" ++ toString id

end Arena

end ActorLinks
