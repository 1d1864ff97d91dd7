import ActorLinks.Graph.Basic
import ActorLinks.Text.Alphanumeric

/-! # Extension properties

A property of an extension mirrors the links of another actor, overloads a property of another
extension, or stands for its own type. One that cannot be resolved is kept and marked invalid.
-/
namespace ActorLinks.LinkGraph

def extensionSymbol? (g : LinkGraph) (id : NodeId) : Option TypeSymbol :=
  match g.arena.kind id with
  | .extension s => some s
  | _ => none

/-- The extension of that symbol directly below some actor; actors go by name. -/
def templateExtension? (g : LinkGraph) (symbolName : String) : Option NodeId :=
  g.roots.findSome? fun actor => (g.arena.children actor).find? fun c =>
    ((g.extensionSymbol? c).map (·.name)) == some symbolName

/-- The words of a type text: letters, digits and underscores. -/
def typeWords (typeName : String) : List String :=
  (typeName.toList.splitOnP fun c => !Text.isAlphanumeric c && c != '_').map String.ofList

/-- An actor of the assembly that the text of an unbound type mentions. -/
def mentionedActor? (g : LinkGraph) (assembly : Assembly) (typeName : String) : Option NodeId :=
  ((typeWords typeName).filter fun w =>
    w.startsWith assembly.name && (w.endsWith "Actor" || w.endsWith "Trait")).findSome? fun w =>
      g.actor? (assembly.namespaceName ++ "." ++ w)

def hasLinkShape (typeName : String) : Bool :=
  ["Indexable", "Enumerable", "Defined", "Paged<"].any fun shape => typeName.startsWith shape

/-- The actor that a property refers to. A type that is not bound may only mention an actor, or
name a link type, which then belongs to the extended actor. -/
def propertyTarget? (g : LinkGraph) (id : NodeId) (p : Symbol.Property) : Option NodeId :=
  let t := g.target id
  let direct := if t.isCore then g.actor? p.typeName else g.actorByCore? p.typeName
  match direct with
  | some n => some n
  | none =>
    if p.typeKind ≠ .unknown then none
    else
      match g.mentionedActor? t.assembly p.typeName with
      | some n => some n
      | none => if hasLinkShape p.typeName then g.actorRoot? id else none

def classify (g : LinkGraph) (id : NodeId) (p : Symbol.Property) : ExtensionProperty :=
  let mirror := p.attribute? .linkMirror
  let base := p.explicitInterface.bind g.templateExtension?
  let target := g.propertyTarget? id p
  { symbol := p
    isLinkMirror := mirror.isSome
    isBackLinkMirror :=
      ((mirror.bind fun m => m.named.get? "OnlyBackLinks").bind Constant.bool?).getD false
    target := target
    overloadedBase := base
    isValid := !(p.explicitInterface.isSome && base.isNone) && !(mirror.isSome && target.isNone)
      && !(p.typeKind == .unknown && target.isNone) }

/-- The type that a property is declared with on `owner`. -/
def propertyType (g : LinkGraph) (p : ExtensionProperty) (owner : NodeId)
    (backLink useCore : Bool) : String :=
  match p.target.filter fun _ => p.isLinkMirror with
  | none => p.symbol.typeName
  | some n =>
    let t := g.target n
    let actor := if useCore then t.coreActor else t.actor
    if p.isBackLinkMirror then
      if backLink then actor ++ ".BackLink<TSource>" else actor
    else if g.arena.isTemplate owner then
      match backLink, useCore with
      | true, true => t.coreBackLinkType
      | true, false => t.backLinkType
      | false, true => t.coreLink
      | false, false => t.link
    else
      let path := actor ++ g.arena.relativePathOver (fun n => (g.arena.kind n).isLinkType) owner
      if backLink then path ++ ".BackLink<TSource>" else path

/-- The properties of that extension's own. -/
def ownProperties (s : ExtensionState) : List ExtensionProperty :=
  s.properties.filter fun p => p.isValid && !p.isOverload

def isExtensionNode (g : LinkGraph) (id : NodeId) : Bool := (g.arena.kind id).isExtension

/-- What the extensions in a node's implicit composition define, by property name. -/
def inheritedProperties (g : LinkGraph) (id : NodeId) :
    Dict (List (NodeId × ExtensionProperty)) :=
  let nodes := match g.state? id with
    | some s => s.implicitComposition.toList.filter g.isExtensionNode
    | none => []
  let defined := nodes.flatMap fun n =>
    match g.extensionState? n with
    | some s =>
      (s.properties.filter fun p => p.isDefinedOnPath (g.arena.isTemplate n)).map fun p => (n, p)
    | none => []
  defined.foldl (fun d e => d.append e.2.name e) ∅

def notAnExtension (id : NodeId) : Failure := .emission (Arena.idText id ++ " is not an extension")

def visitExtension (g : LinkGraph) (id : NodeId) : Except Failure ExtensionState :=
  match g.extensionSymbol? id with
  | none => .error (notAnExtension id)
  | some symbol =>
    let properties := symbol.properties.map (g.classify id)
    let hasBackLink := (g.arena.backLinkOf? id).isSome
    let own := (properties.filter fun p => p.isValid && !p.isOverload).map fun p =>
      ({ name := p.name, typeName := g.propertyType p id false false } : ImplProperty).virtualIf
        hasBackLink
    .ok
      { properties := properties
        implementation :=
          if g.arena.isImplemented id then
            Implementation.ofProperties (g.arena.className id) own (g.parentConstructors id)
          else {} }

end ActorLinks.LinkGraph
