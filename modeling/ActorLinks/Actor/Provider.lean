import ActorLinks.Actor.Relationship
import ActorLinks.Decl.Type

/-! # Provider factories

An actor constructor that takes at least two identities is given a factory. The factory takes
what the constructor takes, but for the actor's own identity, and in addition the identities of
related actors that no parameter covers; the latter become part of a cache key.
-/
namespace ActorLinks

/-- An argument of the constructor; without a parameter it is the id that the provider is given. -/
structure FactoryArgument where
  name : String
  parameter : Option Decl.Parameter
  deriving DecidableEq

/-- `pending` are the related actors that no argument covers yet. -/
structure Factory where
  pending : List NodeId
  cacheKeys : List String := []
  arguments : List FactoryArgument := []
  deriving DecidableEq

namespace LinkGraph

def isIdentityParameter (t : Target) (friendly : String) (p : Symbol.Parameter) : Bool :=
  p.simpleTypeName == t.clientType || p.typeName == t.identifiable
    || p.simpleTypeName == friendly ++ "Identity"

def passOn (p : Symbol.Parameter) : FactoryArgument where
  name := p.name
  parameter := some ⟨p.typeName, p.name, p.default⟩

/-- Takes in the next parameter of the constructor. -/
def takeParameter (g : LinkGraph) (t : Target) (f : Factory) (p : Symbol.Parameter) : Factory :=
  if p.simpleTypeName = "IIdentifiable" then
    if p.typeName = t.identifiable then { f with arguments := f.arguments ++ [⟨p.name, none⟩] }
    else
      let pending := f.pending.filter fun n => (g.target n).identifiable != p.typeName
      { pending := pending
        cacheKeys :=
          if pending.length = f.pending.length then f.cacheKeys else f.cacheKeys ++ [p.name]
        arguments := f.arguments ++ [passOn p] }
  else { f with arguments := f.arguments ++ [passOn p] }

def relatedParameterName (g : LinkGraph) (n : NodeId) : String :=
  let kind := ((g.actorSymbol? n).map (·.kind)).getD .classType
  Text.parameterName (friendlyName (g.target n).actor kind)

/-- Adds a related actor that is still pending as an argument of its own. -/
def takeRelated (g : LinkGraph) (f : Factory) (n : NodeId) : Factory :=
  let name := g.relatedParameterName n
  { f with
    cacheKeys := f.cacheKeys ++ [name]
    arguments := f.arguments ++ [⟨name, some (.of (g.target n).identifiable name)⟩] }

def factory (g : LinkGraph) (t : Target) (s : ActorState) (c : Symbol.Constructor) : Factory :=
  let covered := c.parameters.foldl (g.takeParameter t)
    { pending := s.additionalRelationships.values.flatten }
  covered.pending.foldl g.takeRelated covered

/-- Parameters without a default in order, then those with one from the last to the first. -/
def Factory.parameters (f : Factory) : List Decl.Parameter :=
  let ps := f.arguments.filterMap (·.parameter)
  ps.filter (fun p => p.default.isNone) ++ (ps.filter fun p => p.default.isSome).reverse

def Factory.constructorArguments (t : Target) (f : Factory) : String :=
  ", ".intercalate (f.arguments.map fun a =>
    match a.parameter with
    | some _ => a.name
    | none => t.identifiable ++ ".Of(id)")

def Factory.invocation (t : Target) (s : ActorState) (f : Factory) : String :=
  let construct := s!"(client, id) => new {t.actor}({Factory.constructorArguments t f})"
  if s.additionalRelationships.entries.isEmpty then
    s!"CreateRoot<{t.actor}, {t.id}>(client, {construct})"
  else
    let keys := ", ".intercalate (f.cacheKeys.map (· ++ ".Id"))
    s!"CreateStateful<{t.actor}, {t.id}>(client, HashCode.Combine({keys}), {construct})"

def Factory.members (t : Target) (s : ActorState) (f : Factory) : List Member :=
  let types := (Factory.parameters f).map (·.typeName) ++ [t.actorProvider]
  let field : Decl.Field :=
    { accessibility := .internalAccess
      modifiers := .ofList [.static, .readonly, .new]
      typeName := "Func<" ++ ", ".intercalate types ++ ">"
      name := "DefaultActorProvider"
      initializer := some "GetProvider" }
  let method : Decl.Method :=
    { accessibility := .internalAccess
      modifiers := .ofList [.static, .new]
      returnType := t.actorProvider
      name := "GetProvider"
      parameters := Factory.parameters f
      body := .expression ("RestActorProvider." ++ Factory.invocation t s f) }
  [field, method]

def providerFactories (g : LinkGraph) (id : NodeId) (s : ActorState) : List Member :=
  match g.actorSymbol? id with
  | none => []
  | some symbol =>
    let t := g.target id
    let friendly := friendlyName t.actor symbol.kind
    let identified := symbol.constructors.filter fun c =>
      2 ≤ c.parameters.countP (isIdentityParameter t friendly)
    identified.flatMap fun c => Factory.members t s (g.factory t s c)

end LinkGraph

end ActorLinks
