import ActorLinks.Config
import ActorLinks.Decl.Emitter
import ActorLinks.Graph.Build
import ActorLinks.Manifest

/-! # Sources

A generation makes one source of every actor, in the order of actor names, and one more with
short names for the links of all targets.
-/
namespace ActorLinks

structure Source where
  /-- The name of the file without its ending. -/
  name : String
  text : String
  deriving DecidableEq, Inhabited

def Source.fileName (s : Source) : String := s.name ++ ".g.cs"

/-- The part of the short names that stands for the target; only core targets go without their
assembly. -/
def aliasStem (c : Compilation) (t : Target) : String :=
  let kind := match c.type? t.actor with
    | some s => s.kind
    | none => if t.isCore then .interface else .classType
  let friendly := friendlyName t.actor kind
  if t.isCore then friendly else t.assembly.name ++ friendly

/-- The targets with their stems; of targets with one stem the first is kept. -/
def aliasTargets (c : Compilation) (ts : List Target) : List (String × Target) :=
  ts.foldl (fun kept t =>
    let stem := aliasStem c t
    if kept.any fun k => k.1 == stem then kept else kept ++ [(stem, t)]) []

def aliasText (c : Compilation) (ts : List Target) : String :=
  String.join ((aliasTargets c ts).map fun (stem, t) =>
    s!"global using {stem}Link = {t.link};\nglobal using {stem}LinkType = {t.linkType};\n")

namespace LinkGraph

/-- The qualifier of the outermost type around the actor. -/
def namespaceOf? (c : Compilation) (actor : String) : Option String :=
  let containers := c.chain (·.containingType) ((c.type? actor).bind (·.containingType))
  let outermost := containers.getLast?.getD actor
  ((Text.qualifier? (Text.unboundChars outermost.toList)).filter fun q => !q.isEmpty).map
    String.ofList

def pragma (action : String) : String := s!"#pragma warning {action} CS0108, CS0109\n"

def sourceText (g : LinkGraph) (o : Config.Output) (actor : String) (decl : TypeDecl) : String :=
  let body := s!"namespace {(namespaceOf? g.compilation actor).getD o.defaultNamespace};\n\n"
    ++ decl.render o.indent.toNat
  if o.emitPragmas then pragma "disable" ++ body ++ pragma "restore" else body

def targets (g : LinkGraph) : List Target := g.roots.map g.target

def aliasSources (g : LinkGraph) : List Source :=
  if g.targets.isEmpty then [] else [⟨"LinkAliases", aliasText g.compilation g.targets⟩]

/-- A graph that is visited stays as it is. -/
def visitOnce (g : LinkGraph) : LinkGraph × Option Failure :=
  if g.isVisited then (g, none) else g.visit

def sources (g : LinkGraph) (o : Config.Output) : Except Failure (List Source) := do
  let built ← g.build o.emitTreeView
  return (built.map fun (actor, decl) => ⟨actor, g.sourceText o actor decl⟩) ++ g.aliasSources

/-- Visits the graph if need be; the states stay also where that fails. -/
def generate (g : LinkGraph) (o : Config.Output) : LinkGraph × Except Failure (List Source) :=
  match g.visitOnce with
  | (g, some e) => (g, .error e)
  | (g, none) => (g, g.sources o)

/-- The trees of all actors, one line per node. -/
def outline (g : LinkGraph) : LinkGraph × Except Failure (List String) :=
  match g.visitOnce with
  | (g, some e) => (g, .error e)
  | (g, none) => (g, .ok (g.roots.flatMap g.arena.outline))

end LinkGraph

def Manifest.graph (m : Manifest) : LinkGraph := .ofTargets m.compilation m.schematic m.targets

end ActorLinks
