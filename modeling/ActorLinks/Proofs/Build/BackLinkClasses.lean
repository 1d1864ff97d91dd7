import ActorLinks.Proofs.Arena.Paths
import ActorLinks.Proofs.Build.EmittedClasses
import ActorLinks.Proofs.Build.Factories

/-! # Back link classes

Outside the core assembly the back link of an actor is a class that derives from the class of the
actor. Its constructor stands on the chain of root classes, so it passes on what those ask for,
whatever constructors the class of the actor declares.
-/
namespace ActorLinks

theorem TypeDecl.head?_bases_addBases {d : TypeDecl} {first : String}
    (h : d.bases.head? = some first) (bases : List String) :
    (d.addBases bases).bases.head? = some first := by
  induction bases generalizing d with
  | nil => exact h
  | cons base bases ih =>
    refine ih (d := d.addBase base) ?_
    unfold addBase appendNew
    split
    · exact h
    · dsimp only
      split
      · exact h
      · rw [List.head?_append, h]
        rfl

theorem Arena.implementedParent?_of_implemented {a : Arena} {i p : NodeId}
    (hp : a.parent? i = some p) (h : a.isImplemented p = true) :
    a.implementedParent? i = some p := by
  simp [implementedParent?, parents_of_some hp, h]

namespace LinkGraph
variable {c : Compilation} {sch : Schematic} {targets : List Target} {g : LinkGraph}
  {i p root : NodeId} {s : BackLinkState} {d : TypeDecl} {l : List NodeId}

/-- What the class of a back link adds to the chain. -/
def sourceLayer : ConstructorLayer :=
  ConstructorChain.layerOf "BackLink" [{ name := "Source", typeName := "TSource" }]

theorem sourceLayer_parameters :
    sourceLayer.parameters = [⟨"TSource", "source", some "Source"⟩] := by
  decide +kernel

/-- The class of a back link stands on the root classes of a lineage of its actor. -/
def ClassChains (g : LinkGraph) : Prop :=
  ∀ {i p : NodeId} {s : BackLinkState}, g.backLinkState? i = some s → g.arena.parent? i = some p →
    (g.arena.kind p).isActor = true → g.arena.isImplemented i = true →
    g.arena.isImplemented p = true → ∃ l, g.Lineage (p :: l) ∧
      s.implementation.constructors = sourceLayer :: (p :: l).map g.rootLayer

theorem implementation_visitBackLink (hs : g.visitBackLink i = .ok s)
    (hp : g.arena.parent? i = some p) (hk : (g.arena.kind p).isActor = true)
    (hi : g.arena.isImplemented i = true) (himplemented : g.arena.isImplemented p = true) :
    s.implementation.constructors
      = sourceLayer :: ((g.detail? p).map (·.implementation.constructors)).getD [] := by
  obtain ⟨parent, hparent, rfl⟩ := Failure.map_eq_ok_iff.mp hs
  rw [backLinkParent, hp] at hparent
  cases hparent
  have hcore : g.arena.isCore i = false := by
    simpa using (Bool.and_eq_true_iff.mp hi).1
  have habove := Arena.implementedParent?_of_implemented hp himplemented
  simp only [hi, hcore, hk, parentConstructors, habove, Option.bind_some, if_true]
  cases g.detail? p <;> rfl

/-- The constructor of an implemented actor is a chain of the root classes of a lineage. -/
theorem RootChains.exists_lineage (h : g.RootChains) (hf : g.Fitting) {v : NodeState}
    (hv : g.state? p = some v) (hk : (g.arena.kind p).isActor = true)
    (himplemented : g.arena.isImplemented p = true) :
    ∃ l, g.Lineage (p :: l) ∧ v.detail.implementation.constructors = (p :: l).map g.rootLayer := by
  have hcategory : v.detail.category = .actor := (hf hv).1.trans (beq_iff_eq.mp hk)
  have hcore : (g.target p).isCore = false := by
    show g.arena.isCore p = false
    simpa using (Bool.and_eq_true_iff.mp himplemented).1
  cases hdetail : v.detail with
  | actor s =>
    have hchain := h p s (actorState?_eq_some.mpr ⟨v, hv, hdetail⟩)
    rwa [hcore, if_neg Bool.false_ne_true] at hchain
  | _ => simp [hdetail, NodeDetail.category] at hcategory

theorem classChains_preserved {top : LinkGraph} (h : top.arena.Nested) :
    Preserved top (fun i => (top.arena.parent? i).toList)
      fun g => g.Fitting ∧ g.RootChains ∧ g.ClassChains := by
  intro g done i v hprogress hi hreads hvisit ⟨hfitting, hroots, hchains⟩
  have hsize := hprogress.size_eq ▸ hi
  refine ⟨fitting_preserved h hprogress hi hreads hvisit hfitting, hroots.withState hsize hvisit,
    fun {j q s} hs hq hk hj himplemented => ?_⟩
  obtain ⟨w, hw, hdetail⟩ := backLinkState?_eq_some.mp hs
  rw [state?_withState hsize] at hw
  split at hw
  · next hij =>
    cases hw
    subst hij
    obtain ⟨_, hback⟩ := visitAs_of_visitNode hvisit
    rw [hdetail] at hback
    obtain ⟨_, hstate, heq⟩ := Failure.map_eq_ok_iff.mp hback
    cases heq
    obtain ⟨u, hu⟩ : ∃ u, g.state? q = some u := by
      refine Option.isSome_iff_exists.mp (hprogress.isSome q (hreads ?_))
      exact Option.mem_toList.mpr (hprogress.arena_eq ▸ hq)
    obtain ⟨l, hl, hconstructors⟩ := hroots.exists_lineage hfitting hu hk himplemented
    refine ⟨l, hl, ?_⟩
    rw [implementation_visitBackLink hstate hq hk hj himplemented, detail?, hu]
    exact congrArg (sourceLayer :: ·) hconstructors
  · exact hchains (backLinkState?_eq_some.mpr ⟨w, hw, hdetail⟩) hq hk hj himplemented

theorem Visits.classChains (hv : Visits (ofTargets c sch targets) g) : g.ClassChains :=
  (hv.preserves_ofTargets (classChains_preserved grounded_ofTargets.nested)
    grounded_ofTargets.supported_parent
    ⟨by simp [Fitting, state?_ofTargets],
      fun i s hs => by simp [actorState?, detail?, state?_ofTargets] at hs,
      fun hs => by simp [backLinkState?, detail?, state?_ofTargets] at hs⟩).2.2.2

/-- The class of a back link on top of these root classes. -/
structure StandsOn (g : LinkGraph) (root : NodeId) (l : List NodeId) (d : TypeDecl)
    (k : Decl.Constructor) : Prop where
  name_eq : d.name = "BackLink<TSource>"
  isClass : d.IsClass
  /-- It derives from the class of its actor. -/
  head_bases : (g.target root).actor ≠ "" → d.bases.head? = some (g.target root).actor
  constructors_eq : d.constructors = [k]
  constructor_name : k.name = "BackLink"
  /-- The source comes after what is passed on. -/
  parameters_eq : k.parameters = ConstructorChain.parameters (l.map g.rootLayer)
    ++ [{ typeName := "TSource", name := "source" }]
  baseArguments_eq : k.baseArguments = some (g.rootArguments l)

/-- What is passed on are the parameters of a constructor that the class of the actor declares. -/
def CallsDeclared (symbol : TypeSymbol) (k : Decl.Constructor) : Prop :=
  ∃ declared ∈ symbol.constructors, k.baseArguments = some (declared.parameters.map (·.name))

theorem head_bases_backLinkClass (hne : g.arena.path i ≠ "") :
    (g.backLinkClass i s).bases.head? = some (g.arena.path i) := by
  have hfirst : ((TypeDecl.classNamed "BackLink<TSource>").addBase (g.arena.path i)).bases.head?
      = some (g.arena.path i) := by
    simp [TypeDecl.addBase, TypeDecl.classNamed, appendNew, hne]
  simp only [backLinkClass, TypeDecl.bases_addMember, TypeDecl.bases_addMembers,
    TypeDecl.bases_addConstraint]
  exact TypeDecl.head?_bases_addBases hfirst _

theorem constructors_backLinkClass : (g.backLinkClass i s).constructors =
    s.implementation.constructors.decl?.toList.map fun k =>
      { k with accessibility := .internalAccess } := by
  have hbare (bases : List String) : (((TypeDecl.classNamed "BackLink<TSource>").addBases
      bases).addConstraint sourceConstraint).constructors = [] := by
    simp [TypeDecl.constructors, TypeDecl.classNamed]
  rw [backLinkClass, TypeDecl.constructors_addMember, TypeDecl.constructors_addMembers,
    TypeDecl.constructors_addMembers_of_none, hbare]
  · cases s.implementation.constructors.decl? <;> rfl
  · simp [Member.constructor?]

theorem constructor_of_sourceLayer {l : List NodeId} (hl : l ≠ []) : ∃ k : Decl.Constructor,
    ConstructorChain.decl? (sourceLayer :: l.map g.rootLayer) = some k ∧ k.name = "BackLink" ∧
      k.parameters = ConstructorChain.parameters (l.map g.rootLayer)
        ++ [{ typeName := "TSource", name := "source" }] ∧
      k.baseArguments = some (g.rootArguments l) := by
  have harguments := argumentNames_rootLayers (g := g) hl
  have hfresh : (ConstructorChain.argumentNames (l.map g.rootLayer)
      ++ sourceLayer.parameters.map (·.name)).Nodup := by
    rw [harguments, sourceLayer_parameters, rootArguments]
    cases l.all g.modelHasId <;> decide
  refine ⟨_, rfl, rfl, ?_, ?_⟩
  · show ConstructorChain.parameters (sourceLayer :: l.map g.rootLayer) = _
    rw [ConstructorChain.parameters_cons_eq_append_iff.mpr hfresh, sourceLayer_parameters]
    rfl
  · show (if (l.map g.rootLayer).isEmpty then none else some _) = _
    rw [if_neg (by simpa using hl), harguments]

/-- What is declared as a class is a back link. -/
theorem DeclaredAs.eq_backLinkClass (h : g.DeclaredAs i d) (hclass : d.IsClass) :
    g.arena.category i = .backLink ∧
      ∃ s, g.backLinkState? i = some s ∧ d = g.backLinkClass i s := by
  obtain ⟨_, hback, s, hs, _, rfl⟩ | ⟨decl, hoisted, below, hpart, _, rfl⟩ := h.closed_or_spread
  · exact ⟨hback, s, hs, rfl⟩
  · have hkind := (decl.kind_addMembers (Built.members below)).trans
      (draft_of_partAs hpart).1.kind_eq
    exact absurd hclass (TypeDecl.not_isClass_of_kind hkind)

/-- Where no name is above itself, the lineage is that of the base actors as far as they ask for
providers of entities. -/
theorem Visits.takesEntities_iff_of_chain (hv : Visits (ofTargets c sch targets) g)
    (hvisited : g.isVisited = true) (hc : c.Acyclic) (hroot : root ∈ g.roots)
    (hcore : (g.target root).isCore = false) (hp : g.arena.parent? i = some root)
    (hback : g.arena.category i = .backLink) (hi : g.arena.isImplemented i = true)
    (hs : g.backLinkState? i = some s)
    (hchain : s.implementation.constructors = sourceLayer :: l.map g.rootLayer) :
    (∃ n ∈ l, g.modelHasId n = false) ↔ g.TakesEntities root := by
  have himplemented := hv.grounded.isImplemented_of_root hroot hcore
  obtain ⟨name, hname⟩ := mem_roots_iff.mp hroot
  obtain ⟨t, as, hat⟩ := exists_actorAt hv hvisited hname
  obtain ⟨w, hw, hactor, _⟩ := id hat
  obtain ⟨v, hstate, hdetail⟩ := backLinkState?_eq_some.mp hs
  have hsettled : g.Settled := hv.settled hc
  obtain ⟨layer, hlayer⟩ := hsettled.exists_layer hstate hi
  have hbase : g.classBase? i = some root := by
    rw [classBase?, hback]
    exact Arena.implementedParent?_of_implemented hp himplemented
  have hno : ∀ r, g.linkTypeState? i = some r → r.implementationBase = none := by
    intro r hr
    rw [hv.category_of_linkTypeState? hr] at hback
    cases hback
  rw [hdetail, hv.chainBelow_eq hbase hw hno, hactor] at hlayer
  have hsame := (List.cons.inj (hchain.symm.trans hlayer)).2
  rw [← hv.takesEntities_iff hc hvisited hat hcore,
    show t.implementation.constructors = l.map g.rootLayer from hsame.symm, asked_rootLayers]
  simp only [List.mem_flatMap, List.mem_reverse, ← asks_entityProvider_iff]
  constructor
  · rintro ⟨n, hn, p, hp, hname⟩
    exact ⟨p, ⟨n, hn, hp⟩, hname⟩
  · rintro ⟨p, ⟨n, hn, hp⟩, hname⟩
    exact ⟨n, hn, p, hp, hname⟩

/-- The class of a back link and the root classes that its constructor stands on. -/
theorem Visits.exists_standsOn (hv : Visits (ofTargets c sch targets) g)
    (hvisited : g.isVisited = true) (hroot : root ∈ g.roots)
    (hcore : (g.target root).isCore = false) (hp : g.arena.parent? i = some root)
    (hd : g.DeclaredAs i d) (hclass : d.IsClass) :
    ∃ k l, g.Lineage (root :: l) ∧ g.StandsOn root (root :: l) d k ∧
      (c.Acyclic → ((∃ n ∈ root :: l, g.modelHasId n = false) ↔ g.TakesEntities root)) := by
  have hg := hv.grounded
  obtain ⟨_, hk⟩ := hg.isActor_of_mem_roots hroot
  obtain ⟨hback, s, hs, rfl⟩ := hd.eq_backLinkClass hclass
  have hi : g.arena.isImplemented i = true := by
    have hicore : g.arena.isCore i = false := by
      rw [← hg.target_of_parent hp] at hcore
      exact hcore
    rw [Arena.isImplemented_of_backLink hback (Arena.rootActor?_of_actor hp hk), hicore]
    rfl
  obtain ⟨l, hl, hconstructors⟩ :=
    hv.classChains hs hp hk hi (hg.isImplemented_of_root hroot hcore)
  obtain ⟨k, hdecl, hname, hparameters, harguments⟩ :=
    constructor_of_sourceLayer (g := g) (List.cons_ne_nil root l)
  have hpath : g.arena.path i = (g.target root).actor := hg.nested.path_of_actor hp hk
  refine ⟨{ k with accessibility := .internalAccess }, l, hl, ⟨by simp [backLinkClass,
    TypeDecl.classNamed], hclass, fun hne => ?_, ?_, hname, hparameters, harguments⟩, fun hc => ?_⟩
  · rw [← hpath]
    exact head_bases_backLinkClass (hpath ▸ hne)
  · rw [constructors_backLinkClass, hconstructors, hdecl]
    rfl
  · exact hv.takesEntities_iff_of_chain hvisited hc hroot hcore hp hback hi hs hconstructors

/-- Outside the core assembly the declaration of an actor holds a back link that derives from the
class of the actor. It has one constructor, which passes on what the root classes of a lineage take,
whatever constructors the class of the actor declares. So what it calls is declared just if one of
those takes the same. -/
theorem back_link_class_stands_on (hv : Visits (ofTargets c sch targets) g)
    (hvisited : g.isVisited = true) (hroot : root ∈ g.roots)
    (hcore : (g.target root).isCore = false) : ∃ i d k l own,
      g.arena.backLinkOf? root = some i ∧ g.DeclaredAs i d ∧ g.DeclaresItself root own ∧
      Member.type d ∈ own.members ∧ g.Lineage (root :: l) ∧ g.StandsOn root (root :: l) d k ∧
      (c.Acyclic → ((∃ n ∈ root :: l, g.modelHasId n = false) ↔ g.TakesEntities root)) ∧
      ∀ symbol, g.actorSymbol? root = some symbol → (CallsDeclared symbol k ↔
        ∃ declared ∈ symbol.constructors,
          declared.parameters.map (·.name) = g.rootArguments (root :: l)) := by
  have hg := hv.grounded
  obtain ⟨i, d, hp, hd, hclass, _⟩ := hv.exists_backLinkClass hvisited hroot hcore
  obtain ⟨k, l, hl, hstands, hentities⟩ := hv.exists_standsOn hvisited hroot hcore hp hd hclass
  obtain ⟨decl, hdecl⟩ :=
    (hv.complete_of_isVisited hvisited).exists_buildActor_of_mem_roots hg hroot false
  obtain ⟨_, own, _, _, hown⟩ := exists_declaresItself hdecl
  obtain ⟨_, _, _, _, _, _, _, _, _, hmembers⟩ := hown.exists_standsIn
  refine ⟨i, d, k, l, own, hg.backLinkOf?_eq_some.mpr ⟨hp, (hd.eq_backLinkClass hclass).1⟩, hd,
    hown, (hmembers d).mpr (.node hp hd), hl, hstands, hentities, fun symbol _ => ?_⟩
  simp only [CallsDeclared, hstands.baseArguments_eq, Option.some.injEq, eq_comm]

/-- It takes what the root class of the thread takes. -/
def providedConstructor : Symbol.Constructor :=
  ⟨[⟨"client", (pairTarget .rest "Thread").clientType, none⟩,
    ⟨"actorProvider", (pairTarget .rest "Thread").actorProvider, none⟩,
    ⟨"entityProvider", (pairTarget .rest "Thread").entityProvider, none⟩]⟩

theorem threadGraph_root : ∀ k ∈ [providedConstructor, plainConstructor],
    (0 < (threadGraph [k]).arena.size ∧
      ∀ i < (threadGraph [k]).arena.size, (threadGraph [k]).complaint? i = none) ∧
    (threadGraph [k]).actors.get? "Discord.Rest.RestThreadActor" = some 0 ∧
    (threadGraph [k]).target 0 = pairTarget .rest "Thread" ∧
    ((threadGraph [k]).actorSymbol? 0).map (·.constructors) = some [k] ∧
    (threadTypes [k]).parents (pairTarget .rest "Thread").model = [] := by
  decide +kernel

theorem exists_threadRoot {k : Symbol.Constructor}
    (hk : k ∈ [providedConstructor, plainConstructor]) :
    (threadGraph [k]).visit.2 = none ∧ (threadGraph [k]).visit.1.isVisited = true ∧
    0 ∈ (threadGraph [k]).visit.1.roots ∧
    (threadGraph [k]).visit.1.target 0 = pairTarget .rest "Thread" ∧
    (threadGraph [k]).visit.1.modelHasId 0 = false ∧
    ∃ symbol, (threadGraph [k]).visit.1.actorSymbol? 0 = some symbol ∧
      symbol.constructors = [k] := by
  have hprogress : Progress (threadGraph [k]) [] (threadGraph [k]).visit.1 :=
    Visits.progress (.again .refl)
  obtain ⟨hquiet, hactor, htarget, hsymbol, hmodel⟩ := threadGraph_root k hk
  obtain ⟨hok, hvisited⟩ : (threadGraph [k]).visit.2 = none ∧
      (threadGraph [k]).visit.1.isVisited = true := visited_of_quiet hquiet
  have hcompilation : (threadGraph [k]).compilation = threadTypes [k] :=
    grounded_ofTargets.compilation_eq
  have hid : (threadGraph [k]).modelHasId 0 = false := by
    rw [modelHasId, htarget, hcompilation]
    exact Compilation.implementsSimple_of_orphan hmodel _
  refine ⟨hok, hvisited, mem_roots_iff.mpr ⟨"Discord.Rest.RestThreadActor", ?_⟩, ?_, ?_, ?_⟩
  · rw [actor?, hprogress.actors_eq]
    exact hactor
  · rw [hprogress.target_eq, htarget]
  · rw [hprogress.modelHasId_eq, hid]
  · rw [hprogress.actorSymbol?_eq]
    exact Option.map_eq_some_iff.mp hsymbol

theorem rootArguments_of_mem {n : NodeId} (hn : n ∈ l) (hid : g.modelHasId n = false) :
    g.rootArguments l = ["client", "actorProvider", "entityProvider"] := by
  have hall : l.all g.modelHasId = false := by
    rw [List.all_eq_false]
    exact ⟨n, hn, by simp [hid]⟩
  simp [rootArguments, hall]

/-- With such a constructor in the class of the thread, the back link calls it. -/
theorem back_link_class_stands_on_sample : ∃ symbol d k l,
    (threadGraph [providedConstructor]).visit.1.actorSymbol? 0 = some symbol ∧
    symbol.constructors = [providedConstructor] ∧
    (threadGraph [providedConstructor]).visit.1.StandsOn 0 (0 :: l) d k ∧
    CallsDeclared symbol k := by
  have hv : Visits (threadGraph [providedConstructor])
    (threadGraph [providedConstructor]).visit.1 := .again .refl
  obtain ⟨_, hvisited, hroot, htarget, hid, symbol, hsymbol, hconstructors⟩ :=
    exists_threadRoot (k := providedConstructor) List.mem_cons_self
  obtain ⟨_, d, k, l, _, _, _, _, _, _, hstands, _, hcalls⟩ :=
    back_link_class_stands_on hv hvisited hroot (by rw [htarget]; rfl)
  refine ⟨symbol, d, k, l, hsymbol, hconstructors, hstands, (hcalls symbol hsymbol).mpr ?_⟩
  rw [hconstructors, rootArguments_of_mem List.mem_cons_self hid]
  exact ⟨_, List.mem_singleton_self _, rfl⟩

/-- The class of the thread has a constructor for a client and the thread alone, and that of the
back link passes on three arguments. -/
theorem back_link_passes_providers : (threadGraph [plainConstructor]).visit.2 = none ∧
    (threadGraph [plainConstructor]).visit.1.isVisited = true ∧
    ((threadGraph [plainConstructor]).visit.1.target 0).isCore = false ∧
    ∃ symbol i d k, (threadGraph [plainConstructor]).visit.1.actorSymbol? 0 = some symbol ∧
      symbol.constructors = [plainConstructor] ∧
      (threadGraph [plainConstructor]).visit.1.arena.parent? i = some 0 ∧
      (threadGraph [plainConstructor]).visit.1.DeclaredAs i d ∧ d.name = "BackLink<TSource>" ∧
      d.bases.head? = some "Discord.Rest.RestThreadActor" ∧ d.constructors = [k] ∧
      k.baseArguments = some ["client", "actorProvider", "entityProvider"] ∧
      ¬ CallsDeclared symbol k ∧ plainConstructor.parameters.length = 2 := by
  have hv : Visits (threadGraph [plainConstructor]) (threadGraph [plainConstructor]).visit.1 :=
    .again .refl
  obtain ⟨hok, hvisited, hroot, htarget, hid, symbol, hsymbol, hconstructors⟩ :=
    exists_threadRoot (k := plainConstructor) (List.mem_cons_of_mem _ List.mem_cons_self)
  have hcore : ((threadGraph [plainConstructor]).visit.1.target 0).isCore = false := by
    rw [htarget]
    rfl
  obtain ⟨i, d, hp, hd, hclass, hname⟩ := hv.exists_backLinkClass hvisited hroot hcore
  obtain ⟨k, l, _, hstands, _⟩ := hv.exists_standsOn hvisited hroot hcore hp hd hclass
  have harguments := hstands.baseArguments_eq
  rw [rootArguments_of_mem List.mem_cons_self hid] at harguments
  have hhead := hstands.head_bases
  rw [htarget] at hhead
  refine ⟨hok, hvisited, hcore, symbol, i, d, k, hsymbol, hconstructors, hp, hd, hname,
    hhead (by decide), hstands.constructors_eq, harguments, ?_, rfl⟩
  rintro ⟨declared, hdeclared, hcall⟩
  rw [hconstructors, List.mem_singleton] at hdeclared
  rw [harguments, hdeclared] at hcall
  revert hcall
  decide

end LinkGraph

end ActorLinks
