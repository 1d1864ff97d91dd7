import ActorLinks.Symbol.Type

/-! # Targets

A target ties an actor to its entity, id and model, in one assembly. Outside the core assembly
it may name the core actor and core entity it stands for. The signatures are the interfaces
that generated declarations refer to.
-/
namespace ActorLinks

inductive Assembly where
  | core
  | rest
  | gateway
  deriving DecidableEq, Repr, Inhabited

namespace Assembly

def name : Assembly → String
  | core => "Core"
  | rest => "Rest"
  | gateway => "Gateway"

/-- The name space that actors of the assembly are declared in. -/
def namespaceName : Assembly → String
  | core => "Discord"
  | a => "Discord." ++ a.name

def precedes : Assembly → Assembly → Bool
  | core, rest | core, gateway | rest, gateway => true
  | _, _ => false

end Assembly

structure Target where
  actor : String
  entity : String
  id : String
  model : String
  assembly : Assembly := .core
  declaredCoreActor : Option String := none
  declaredCoreEntity : Option String := none
  deriving DecidableEq, Inhabited

namespace Target
variable (t : Target)

def isCore : Bool := t.assembly == .core

/-- A core target is its own counterpart, whatever it declares. -/
def coreActor : String := if t.isCore then t.actor else t.declaredCoreActor.getD t.actor

def coreEntity : String := if t.isCore then t.entity else t.declaredCoreEntity.getD t.entity

def actorName : String := Text.simpleName t.actor

def clientType : String := s!"Discord{t.assembly.name}Client"

def link : String := s!"Discord.ILink<{t.actor}, {t.id}, {t.entity}, {t.model}>"

def coreLink : String := s!"Discord.ILink<{t.coreActor}, {t.id}, {t.coreEntity}, {t.model}>"

def linkType : String := s!"Discord.ILinkType<{t.actor}, {t.id}, {t.entity}, {t.model}>"

def coreLinkType : String :=
  s!"Discord.ILinkType<{t.coreActor}, {t.id}, {t.coreEntity}, {t.model}>"

def restLinkType : String :=
  s!"Discord.Rest.IRestLinkType<{t.actor}, {t.id}, {t.entity}, {t.model}>"

/-- Only the rest assembly has a link type interface of its own. -/
def assemblyLinkType : Option String :=
  match t.assembly with
  | .rest => some t.restLinkType
  | _ => none

def backLinkType : String :=
  s!"Discord.IBackLink<TSource, {t.actor}, {t.id}, {t.entity}, {t.model}>"

def coreBackLinkType : String :=
  s!"Discord.IBackLink<TSource, {t.coreActor}, {t.id}, {t.coreEntity}, {t.model}>"

def actorProvider : String := s!"Discord.IActorProvider<{t.actor}, {t.id}>"

def coreActorProvider : String := s!"Discord.IActorProvider<{t.coreActor}, {t.id}>"

def restActorProvider : String := s!"Discord.Rest.RestActorProvider<{t.actor}, {t.id}>"

def entityProvider : String := s!"Discord.IEntityProvider<{t.entity}, {t.model}>"

def coreEntityProvider : String := s!"Discord.IEntityProvider<{t.coreEntity}, {t.model}>"

def identifiable : String :=
  s!"Discord.IIdentifiable<{t.id}, {t.entity}, {t.actor}, {t.model}>"

def coreIdentifiable : String :=
  s!"Discord.IIdentifiable<{t.id}, {t.coreEntity}, {t.coreActor}, {t.model}>"

def relationship : String := s!"Discord.IRelationship<{t.actor}, {t.id}, {t.entity}>"

def canonicalRelationship : String :=
  s!"Discord.ICanonicalRelationship<{t.actor}, {t.id}, {t.entity}>"

def summary : String :=
  s!"{t.actor} ({t.assembly.name}; entity {t.entity}, id {t.id}, model {t.model})"

end Target

end ActorLinks
