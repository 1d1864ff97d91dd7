import ActorLinks.Proofs.Build.NestedTypes
import ActorLinks.Proofs.Compilation.Containers
import ActorLinks.Proofs.Compilation.Survivors
import ActorLinks.Proofs.TreeView

/-! # Name spaces

A source opens the name space of its actor and redeclares the types around it. Both follow the
containing types of the actor, each in its own way. Where these are named in the usual way, the name
space and the names of the partial declarations make up the full name of the actor.
-/
namespace ActorLinks

namespace TypeDecl
variable {d inner outer : TypeDecl} {path : List TypeDecl}

/-- The partial declarations of a declaration, at any depth: the declaration itself, one in it, one
in that and so on. -/
structure PartialPath (d : TypeDecl) (path : List TypeDecl) : Prop where
  head : path.head? = some d
  nested : path.IsChain fun outer inner => Member.type inner ∈ outer.members
  mem_iff : ∀ t, t ∈ path ↔ d.Contains t ∧ .partialType ∈ t.modifiers

/-- The name without type parameters. -/
def plainName (d : TypeDecl) : String := Text.unbound d.name

theorem partialPath_singleton (hself : .partialType ∈ d.modifiers)
    (hinner : ∀ inner, Member.type inner ∈ d.members → ∀ t, inner.Contains t →
      .partialType ∉ t.modifiers) : d.PartialPath [d] where
  head := rfl
  nested := .singleton d
  mem_iff t := by
    rw [List.mem_singleton]
    constructor
    · rintro rfl
      exact ⟨.refl t, hself⟩
    · rintro ⟨hcontains, hpartial⟩
      cases hcontains with
      | refl => rfl
      | nested hmember ht => exact absurd hpartial (hinner _ hmember t ht)

theorem PartialPath.cons (h : inner.PartialPath path) (hself : .partialType ∈ outer.modifiers)
    (hmembers : outer.members = [.type inner]) : outer.PartialPath (outer :: path) where
  head := rfl
  nested := by
    refine List.isChain_cons.mpr ⟨fun t ht => ?_, h.nested⟩
    obtain rfl := Option.some.inj (h.head.symm.trans ht)
    rw [hmembers]
    exact List.mem_cons_self
  mem_iff t := by
    rw [List.mem_cons, h.mem_iff]
    constructor
    · rintro (rfl | ⟨hcontains, hpartial⟩)
      · exact ⟨.refl t, hself⟩
      · exact ⟨.nested (hmembers ▸ List.mem_cons_self) hcontains, hpartial⟩
    · rintro ⟨hcontains, hpartial⟩
      cases hcontains with
      | refl => exact Or.inl rfl
      | nested hmember ht =>
        rw [hmembers, List.mem_singleton] at hmember
        obtain rfl := Member.type.inj hmember
        exact Or.inr ⟨ht, hpartial⟩

end TypeDecl

namespace LinkGraph
variable {types : List TypeSymbol} {space name outer : String} {decl inner own : TypeDecl}
  {path : List TypeDecl} {g : LinkGraph} {root : NodeId}

section Containers

theorem plainName_containerDecl :
    (containerDecl (.ofTypes types) name inner).plainName = Text.simpleName name := by
  unfold containerDecl TypeDecl.plainName
  cases hs : (Compilation.ofTypes types).type? name with
  | none => exact Text.unbound_simpleName name
  | some s =>
    rw [← (Compilation.type?_ofTypes_iff.mp hs).2]
    exact Text.unbound_declaredName s

theorem partialPath_containerDecl (c : Compilation) (name : String) (h : inner.PartialPath path) :
    (containerDecl c name inner).PartialPath (containerDecl c name inner :: path) :=
  h.cons (by simp [containerDecl]) rfl

/-- The declaration inside those of the given containers, from the inside out. -/
def wrapIn (c : Compilation) (containers : List String) (decl : TypeDecl) : TypeDecl :=
  containers.foldl (fun d name => containerDecl c name d) decl

theorem namespaceOf?_eq {c : Compilation} : namespaceOf? c name
    = ((Text.qualifier? (Text.unboundChars ((c.containers name).getLast?.getD name).toList)).filter
      fun q => !q.isEmpty).map String.ofList := rfl

/-- The name space of a type is that of the type around it. -/
theorem namespaceOf?_of_containers {c : Compilation}
    (h : c.containers name = outer :: c.containers outer) :
    namespaceOf? c name = namespaceOf? c outer := by
  rw [namespaceOf?_eq, namespaceOf?_eq, h, List.getLast?_cons, Option.getD_some]

end Containers

section Named
variable {c : Compilation} (hmark : '<' ∉ space.toList)
include hmark

theorem namespaceOf?_of_namedIn (hspace : space ≠ "") (h : c.NamedIn space name) :
    namespaceOf? c name = some space := by
  induction h with
  | @outermost segment hsegment hnone =>
    rw [namespaceOf?_eq, Compilation.containers_of_none hnone, List.getLast?_nil, Option.getD_none,
      Text.unboundChars_eq_self (Text.lt_not_mem_dotted hmark hsegment), Text.toList_dotted,
      Text.qualifier?_append hsegment.dotless]
    simp [hspace]
  | inside houter _ hc ih => rw [namespaceOf?_of_containers (houter.containers_eq_cons hc), ih]

/-- Inside the types that contain it, a declaration stands below the names that lead from the name
space to its own. -/
theorem exists_partialPath_wrapIn (h : (Compilation.ofTypes types).NamedIn space name) :
    ∃ names, ".".intercalate (space :: (names ++ [Text.simpleName name])) = name ∧
      ∀ decl path, decl.PartialPath path → ∃ full,
        (wrapIn (.ofTypes types) ((Compilation.ofTypes types).containers name) decl).PartialPath
          full ∧ full.map (·.plainName) = names ++ path.map (·.plainName) := by
  induction h with
  | @outermost segment hsegment hnone =>
    refine ⟨[], ?_, fun decl path hpath => ⟨path, ?_, rfl⟩⟩
    · simp [Text.simpleName_dotted hmark hsegment]
    · rw [Compilation.containers_of_none hnone]
      exact hpath
  | @inside outer segment houter hsegment hc ih =>
    obtain ⟨names, hname, hwrap⟩ := ih
    refine ⟨names ++ [Text.simpleName outer], ?_, fun decl path hpath => ?_⟩
    · rw [Text.simpleName_dotted (houter.lt_not_mem hmark) hsegment, ← List.cons_append,
        String.intercalate_append_of_ne_nil (by simp) (by simp), hname,
        String.intercalate_singleton]
    · obtain ⟨full, hfull, hnames⟩ :=
        hwrap _ _ (partialPath_containerDecl (.ofTypes types) outer hpath)
      refine ⟨full, ?_, ?_⟩
      · rw [houter.containers_eq_cons hc]
        exact hfull
      · rw [hnames, List.map_cons, plainName_containerDecl, List.append_assoc]
        rfl

end Named

section Actor

theorem DeclaresItself.partialPath (h : g.DeclaresItself root own) : own.PartialPath [own] := by
  refine TypeDecl.partialPath_singleton ?_ fun inner hinner t ht =>
    (h.grown_of_contains hinner ht).whole
  obtain ⟨_, _, _, _, _, _, _, _, rfl⟩ := h.exists_actorDecl
  simp [actorDecl]

theorem DeclaresItself.plainName_eq {symbol : TypeSymbol} (h : g.DeclaresItself root own)
    (hsymbol : g.actorSymbol? root = some symbol) :
    own.plainName = Text.simpleName symbol.name := by
  obtain ⟨symbol', _, _, _, _, hsymbol', _, _, rfl⟩ := h.exists_actorDecl
  obtain rfl := Option.some.inj (hsymbol.symm.trans hsymbol')
  rw [← Text.unbound_declaredName]
  simp [TypeDecl.plainName, actorDecl]

theorem name_actorSymbol (types : List TypeSymbol) (t : Target) :
    (LinkTree.actorSymbol (.ofTypes types) t).name = t.actor := by
  unfold LinkTree.actorSymbol
  cases hs : (Compilation.ofTypes types).type? t.actor with
  | none => rfl
  | some s => exact (Compilation.type?_ofTypes_iff.mp hs).2

theorem wrapInContainers_actorSymbol (c : Compilation) (t : Target) (d : TypeDecl) :
    wrapInContainers c (LinkTree.actorSymbol c t) d = wrapIn c (c.containers t.actor) d := by
  have hcontainer : (LinkTree.actorSymbol c t).containingType = c.container? t.actor := by
    unfold LinkTree.actorSymbol Compilation.container?
    cases c.type? t.actor <;> rfl
  rw [wrapInContainers, hcontainer]
  rfl

variable {sch : Schematic} {targets : List Target}

/-- The partial declarations lead from the name space to the actor. -/
theorem Grounded.exists_partialPath (hg : Grounded (.ofTypes types) sch targets g)
    (hroot : g.actor? name = some root) (hmark : '<' ∉ space.toList)
    (hnamed : (Compilation.ofTypes types).NamedIn space name) {treeView : Bool}
    (h : g.buildActor root treeView = .ok decl) : ∃ path, decl.PartialPath path ∧
      ".".intercalate (space :: path.map (·.plainName)) = name := by
  obtain ⟨symbol, own, hsymbol, rfl, hown⟩ := exists_declaresItself h
  have hactor := hg.actorSymbol?_of_actor hroot
  obtain rfl := Option.some.inj (hactor.symm.trans hsymbol)
  have hplain := hown.plainName_eq hactor
  rw [name_actorSymbol, hg.target_of_actor hroot] at hplain
  obtain ⟨names, hname, hwrap⟩ := exists_partialPath_wrapIn hmark hnamed
  obtain ⟨path, hpath, hnames⟩ := hwrap own [own] hown.partialPath
  refine ⟨path, ?_, ?_⟩
  · rw [hg.compilation_eq, wrapInContainers_actorSymbol, hg.target_of_actor hroot]
    exact hpath
  · rw [hnames, List.map_singleton, hplain, hname]

theorem Complete.eq_of_mem_sources (h : g.Complete) {o : Config.Output} {sources : List Source}
    (hsources : g.sources o = .ok sources) (hroot : g.actor? name = some root)
    (hdecl : g.buildActor root o.emitTreeView = .ok decl) (halias : name ≠ "LinkAliases")
    {source : Source} (hmem : source ∈ sources) (hname : source.name = name) :
    source = ⟨name, g.sourceText o name decl⟩ := by
  obtain ⟨built, hbuilt, hpure⟩ := Failure.bind_eq_ok_iff.mp hsources
  obtain rfl := Except.ok.inj hpure
  rcases List.mem_append.mp hmem with hactor | haliases
  · obtain ⟨⟨actor, d⟩, hb, rfl⟩ := List.mem_map.mp hactor
    obtain rfl : actor = name := hname
    obtain ⟨i, hi, hd⟩ := (h.mem_built_iff hbuilt).mp hb
    obtain rfl := Option.some.inj (hi.symm.trans hroot)
    obtain rfl := Except.ok.inj (hd.symm.trans hdecl)
    rfl
  · unfold aliasSources at haliases
    split at haliases
    · cases haliases
    · rw [List.mem_singleton.mp haliases] at hname
      exact absurd hname.symm halias

end Actor

/-- The text of a source that opens the name space for the declaration. -/
def textIn (o : Config.Output) (space : String) (decl : TypeDecl) : String :=
  let body := s!"namespace {space};\n\n" ++ decl.render o.indent.toNat
  if o.emitPragmas then pragma "disable" ++ body ++ pragma "restore" else body

theorem sourceText_of_namespaceOf? (h : namespaceOf? g.compilation name = some space)
    (o : Config.Output) (decl : TypeDecl) : g.sourceText o name decl = textIn o space decl := by
  rw [sourceText, h]
  rfl

end LinkGraph

namespace Manifest

/-- Where an actor and the types around it are named by segments after the name space, each
generation makes one source for the actor. It opens just this name space, and the partial
declarations in it, each in the one before, lead to the full name of the actor. -/
theorem source_spells_actor (m : Manifest) (os : List Config.Output) (o : Config.Output)
    {t : Target} (ht : t ∈ m.targets) {space : String} (hspace : space ≠ "")
    (hmark : '<' ∉ space.toList) (hnamed : m.compilation.NamedIn space t.actor)
    {sources : List Source} (hok : ((m.graph.generations os).generate o).2 = .ok sources) :
    ∃ built decl path,
      ((m.graph.generations os).generate o).1.build o.emitTreeView = .ok built ∧
      (t.actor, decl) ∈ built ∧ decl.PartialPath path ∧
      ".".intercalate (space :: path.map (·.plainName)) = t.actor ∧
      ∀ source, source ∈ sources ∧ source.name = t.actor ↔
        source = ⟨t.actor, LinkGraph.textIn o space decl⟩ := by
  have hlater := LinkGraph.Visits.generations (.refl : m.graph.Visits m.graph) os
  obtain ⟨hcomplete, hsources⟩ := hlater.sources_of_generate hok
  have hg := (hlater.generate o).grounded
  generalize ((m.graph.generations os).generate o).1 = g at *
  obtain ⟨root, hroot⟩ := hg.exists_actor ht
  obtain ⟨built, hbuilt, _⟩ := hcomplete.exists_build hg o.emitTreeView
  obtain ⟨decl, hdecl⟩ := hcomplete.exists_buildActor_of_mem_roots hg
    (LinkGraph.mem_roots_iff.mpr ⟨_, hroot⟩) o.emitTreeView
  obtain ⟨path, hpath, hnames⟩ := hg.exists_partialPath hroot hmark hnamed hdecl
  have htext : g.sourceText o t.actor decl = LinkGraph.textIn o space decl := by
    refine LinkGraph.sourceText_of_namespaceOf? ?_ o decl
    rw [hg.compilation_eq]
    exact LinkGraph.namespaceOf?_of_namedIn hmark hspace hnamed
  have hmember := (hcomplete.mem_built_iff hbuilt).mpr ⟨root, hroot, hdecl⟩
  refine ⟨built, decl, path, hbuilt, hmember, hpath, hnames, fun source => ?_⟩
  rw [← htext]
  constructor
  · rintro ⟨hmem, hname⟩
    exact hcomplete.eq_of_mem_sources hsources hroot hdecl (hnamed.ne_of_dotless (by decide)) hmem
      hname
  · rintro rfl
    exact ⟨hcomplete.mem_sources hsources hroot hdecl, rfl⟩

/-- An actor in an interface, in a generic class. -/
def innerActor : Manifest where
  targets := [{ LinkGraph.sampleTarget with actor := "Discord.Api.IUsers.IUserActor" }]
  types :=
    [{ name := "Discord.Api", typeParameters := ["T"] },
     { name := "Discord.Api.IUsers", kind := .interface, containingType := some "Discord.Api" },
     { name := "Discord.Api.IUsers.IUserActor"
       kind := .interface
       containingType := some "Discord.Api.IUsers" }]

theorem namedIn_innerActor :
    innerActor.compilation.NamedIn "Discord" "Discord.Api.IUsers.IUserActor" := by
  have hapi : Text.IsSegment "Api" := ⟨by decide, by decide⟩
  have husers : Text.IsSegment "IUsers" := ⟨by decide, by decide⟩
  have hactor : Text.IsSegment "IUserActor" := ⟨by decide, by decide⟩
  have houter : innerActor.compilation.NamedIn "Discord" ("Discord" ++ "." ++ "Api") :=
    .outermost hapi (by decide +kernel)
  exact (houter.inside husers (by decide +kernel)).inside hactor (by decide +kernel)

theorem source_spells_actor_inner : ∃ sources decl path,
    (innerActor.graph.generate {}).2 = .ok sources ∧
    ⟨"Discord.Api.IUsers.IUserActor", LinkGraph.textIn {} "Discord" decl⟩ ∈ sources ∧
    decl.PartialPath path ∧
    ".".intercalate ("Discord" :: path.map (·.plainName)) = "Discord.Api.IUsers.IUserActor" := by
  have hquiet : 0 < innerActor.graph.arena.size ∧
      ∀ i < innerActor.graph.arena.size, innerActor.graph.complaint? i = none := by
    decide +kernel
  obtain ⟨sources, hok, _⟩ := LinkGraph.Visits.generate_succeeds .refl
    (LinkGraph.visited_of_quiet hquiet).1 {}
  obtain ⟨_, decl, path, _, _, hpath, hnames, hsource⟩ := source_spells_actor innerActor [] {}
    List.mem_cons_self (by decide) (by decide) namedIn_innerActor hok
  exact ⟨sources, decl, path, hok, ((hsource _).mpr rfl).1, hpath, hnames⟩

end Manifest

end ActorLinks
